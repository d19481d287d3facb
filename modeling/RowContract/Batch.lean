import RowContract.Contract.Basic
import RowContract.Record

/-!
Batches: the records of one table, loaded together.  The batches of some records
follow the order of insertion; tables that it does not name come after, as they
were first seen.  No batch is empty and no record is lost.
-/

namespace RowContract

structure Batch where
  table : String
  /-- The name of the table within its schema. -/
  qualifiedTable : String
  records : List Record := []
  /-- The values of the identity column are given and not generated. -/
  identityInsert : Bool := false

namespace Batch

def size (b : Batch) : Nat := b.records.length

def addNames (names : List String) (more : List String) : List String :=
  more.foldl (fun names n => if names.contains n then names else names ++ [n]) names

/-- The columns of all records, as they were first seen. -/
def columns (b : Batch) : List String :=
  b.records.foldl (fun names r => addNames names r.columnNames) []

/-- The values of a record in the order of some columns; missing ones are null. -/
def row (columns : List String) (r : Record) : List Value := columns.map r.getOrNull

def tableOrder (order : List String) (records : List Record) : List String :=
  addNames order (records.map Record.table)

/-- Batches for tables, each record in the first batch of its table; records whose table comes again
are not taken twice. -/
def fill (new : String → List Record → Batch) (records : List Record) : List String → List Batch
  | [] => []
  | table :: rest =>
    let (own, others) := records.partition fun r => r.table == table
    if own.isEmpty then fill new others rest else new table own :: fill new others rest

def ofRecords (c : Contract) (identityTables : List String) (records : List Record) :
    List Batch :=
  fill
    (fun table own => ⟨table, c.qualifiedTable table, own, identityTables.contains table⟩)
    records (tableOrder c.tableInsertionOrder records)

end Batch

end RowContract
