import RowContract.Value

/-!
Records: the columns of one row of one table, in the order in which they were
first set, and the rows of a name and a value that some operations append.
-/

namespace RowContract

structure Record where
  table : String
  columns : Fields Value := []

namespace Record

def empty (table : String) : Record := { table := table }

def set (r : Record) (column : String) (value : Value) : Record :=
  { r with columns := r.columns.set column value }

def setAll (r : Record) (entries : List (String × Value)) : Record :=
  { r with columns := r.columns.setAll entries }

def get? (r : Record) (column : String) : Option Value := r.columns.get? column

def getOrNull (r : Record) (column : String) : Value := (r.get? column).getD .null

def columnNames (r : Record) : List String := r.columns.names

def size (r : Record) : Nat := r.columns.length

def toJson (r : Record) : Json :=
  .object [("table", .string r.table),
    ("columns", .object (r.columns.map fun (n, v) => (n, v.toJson)))]

end Record

inductive RowVerb where
  | score
  | indicator
  | history
  | reportLookup
  deriving DecidableEq, Repr

namespace RowVerb

def token : RowVerb → String
  | .score => "add_score"
  | .indicator => "add_indicator"
  | .history => "add_history"
  | .reportLookup => "add_report_lookup"

def keyColumn : RowVerb → String
  | .score => "score_identifier"
  | .indicator => "indicator"
  | .history => "name"
  | .reportLookup => "name"

def valueColumn : RowVerb → String
  | .score => "score"
  | .indicator => "value"
  | .history => "value"
  | .reportLookup => "value"

end RowVerb

/-- A row of a name and a value, before the keys of its owner are added. -/
structure KeyValueRow where
  table : String
  verb : RowVerb
  key : String
  value : Value

/-- The whole row: the keys of the owner first, then name and value. -/
def KeyValueRow.toRecord (row : KeyValueRow) (parentKeys : List (String × Value)) : Record :=
  (((Record.empty row.table).setAll parentKeys).set row.verb.keyColumn (.text row.key)).set
    row.verb.valueColumn row.value

end RowContract
