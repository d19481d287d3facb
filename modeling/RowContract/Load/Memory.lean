import RowContract.Load.Session
import RowContract.Text.Search

/-!
A database in memory.  It understands the statements that the loader sends, keeps
primary keys apart, asks for permission to set identity columns, and fails on
demand.  A row that is refused leaves the tables as they were.
-/

namespace RowContract

structure Memory where
  tables : Fields (List (Fields Value)) := []
  primaryKeys : Fields (List String) := []
  identityColumns : Fields String := []
  /-- The tables whose identity column may be set. -/
  identityOn : List String := []
  fast : Bool := false
  /-- What every call for many rows fails with, as long as they are bound fast. -/
  failMany : Option DbError := none
  /-- A value, and what rows with it fail with. -/
  reject : Option (Value × DbError) := none
  /-- Whether forbidding identity values fails. -/
  failIdentityOff : Bool := false

namespace Memory

def rows (m : Memory) (table : String) : List (Fields Value) := (m.tables.get? table).getD []

def cell (row : Fields Value) (column : String) : Value := (row.get? column).getD .null

def sameKey (columns : List String) (a b : Fields Value) : Bool :=
  columns.all fun column => (cell a column).same (cell b column)

def identityError (table : String) : DbError where
  message :=
    "Cannot insert explicit value for identity column in table '" ++ table ++
      "' when IDENTITY_INSERT is set to OFF."
  code := some 544

def duplicateError (table : String) : DbError where
  message :=
    "Violation of PRIMARY KEY constraint 'PK_" ++ table ++
      "'. Cannot insert duplicate key in object '" ++ table ++ "'."
  code := some 2627

def rejection? (m : Memory) (row : Fields Value) : Option DbError :=
  match m.reject with
  | some (bad, e) => if row.any fun c => c.2.same bad then some e else none
  | none => none

def identityFault? (m : Memory) (table : String) (row : Fields Value) : Option DbError :=
  match m.identityColumns.get? table with
  | some column =>
    if row.contains column && !m.identityOn.contains table then some (identityError table) else none
  | none => none

/-- Whether a row repeats a key, of a stored row or of one that goes before it. -/
def duplicate? (m : Memory) (table : String) (pending : List (Fields Value))
    (row : Fields Value) : Option DbError :=
  match m.primaryKeys.get? table with
  | some key =>
    if (m.rows table ++ pending).any fun other => sameKey key other row then
      some (duplicateError table)
    else none
  | none => none

def obstacle? (m : Memory) (table : String) (pending : List (Fields Value))
    (row : Fields Value) : Option DbError :=
  ((m.rejection? row).or (m.identityFault? table row)).or (m.duplicate? table pending row)

def acceptAll (m : Memory) (table : String) (pending : List (Fields Value)) :
    List (Fields Value) → Except DbError (List (Fields Value))
  | [] => .ok pending
  | row :: rest =>
    match m.obstacle? table pending row with
    | some e => .error e
    | none => m.acceptAll table (pending ++ [row]) rest

/-! ### Reading statements -/

def unquote (cs : List Char) : String :=
  let inner := (Text.trimChars cs).dropWhile fun c => c == '['
  String.ofList (inner.reverse.dropWhile fun c => c == ']').reverse

def readInsert (text : String) : Except DbError (String × List String) :=
  match Text.dropPrefix? "INSERT INTO ".toList text.toList with
  | none => .error ⟨"unsupported statement: " ++ text, none⟩
  | some rest =>
    match Text.cut? " (".toList rest with
    | none => .error ⟨"bad insert", none⟩
    | some (table, rest) =>
      match Text.cut? ") VALUES".toList rest with
      | none => .error ⟨"bad insert", none⟩
      | some (columns, _) =>
        .ok (String.ofList table, (Text.pieces ", ".toList columns).map unquote)

/-- The column before the place of its value. -/
def assignedColumn (cs : List Char) : String :=
  unquote (Text.dropSuffixes " = ?".toList cs.length cs)

/-- Give columns the parameters in order; a missing one is null. -/
def bindAssignments : List (List Char) → List Value → List (String × Value) × List Value
  | [], params => ([], params)
  | piece :: rest, params =>
    let (others, left) := bindAssignments rest params.tail
    ((assignedColumn piece, params.headD .null) :: others, left)

/-- Give the columns of conditions the parameters in order; a column that has to be missing takes
none. -/
def bindConditions : List (List Char) → List Value → List (String × Value)
  | [], _ => []
  | piece :: rest, params =>
    match Text.dropSuffix? " IS NULL".toList piece with
    | some column => (unquote column, .null) :: bindConditions rest params
    | none => (assignedColumn piece, params.headD .null) :: bindConditions rest params.tail

/-- An update: its table, what it sets, and the rows it is about. -/
structure Update where
  table : String
  sets : List (String × Value)
  conditions : List (String × Value)

def Update.read (rest : List Char) (params : List Value) : Except DbError Update :=
  match Text.cut? " SET ".toList rest with
  | none => .error ⟨"bad update", none⟩
  | some (table, rest) =>
    match Text.cut? " WHERE ".toList rest with
    | none => .error ⟨"bad update", none⟩
    | some (assignments, conditions) =>
      let (sets, params) := bindAssignments (Text.pieces ", ".toList assignments) params
      .ok {
        table := String.ofList table
        sets := sets
        conditions := bindConditions (Text.pieces " AND ".toList conditions) params }

def Update.concerns (u : Update) (row : Fields Value) : Bool :=
  u.conditions.all fun e => (cell row e.1).same e.2

def Update.apply (u : Update) (row : Fields Value) : Fields Value :=
  if u.concerns row then row.setAll u.sets else row

/-! ### The cursor -/

def insert (m : Memory) (text : String) (rows : List (List Value)) :
    Except DbError Nat × Memory :=
  match readInsert text with
  | .error e => (.error e, m)
  | .ok (table, columns) =>
    match m.acceptAll table [] (rows.map fun row => columns.zip row) with
    | .error e => (.error e, m)
    | .ok accepted =>
      (.ok accepted.length, { m with tables := m.tables.set table (m.rows table ++ accepted) })

def update (m : Memory) (rest : List Char) (params : List Value) :
    Except DbError Nat × Memory :=
  match Update.read rest params with
  | .error e => (.error e, m)
  | .ok u =>
    match m.tables.get? u.table with
    | none => (.ok 0, m)
    | some rows =>
      (.ok (rows.filter u.concerns).length,
        { m with tables := m.tables.set u.table (rows.map u.apply) })

def switchIdentity (m : Memory) (rest : List Char) : Except DbError Nat × Memory :=
  match Text.cutLast? ' ' rest with
  | none => (.error ⟨"bad identity statement", none⟩, m)
  | some (table, mode) =>
    let table := String.ofList table
    if mode = ['O', 'N'] then
      (.ok 0, { m with identityOn := if m.identityOn.contains table then m.identityOn
        else m.identityOn ++ [table] })
    else if m.failIdentityOff then (.error ⟨"Communication link failure", none⟩, m)
    else (.ok 0, { m with identityOn := m.identityOn.filter fun t => t != table })

def execute (command : Sql.Command) (m : Memory) : Except DbError Nat × Memory :=
  let cs := command.text.toList
  match Text.dropPrefix? "SET IDENTITY_INSERT ".toList cs with
  | some rest => m.switchIdentity rest
  | none =>
    match Text.dropPrefix? "UPDATE ".toList cs with
    | some rest => m.update rest command.params
    | none => m.insert command.text [command.params]

def executeMany (text : String) (rows : List (List Value)) (m : Memory) :
    Except DbError Unit × Memory :=
  match m.failMany, m.fast with
  | some e, true => (.error e, m)
  | _, _ =>
    let (answer, m) := m.insert text rows
    (answer.map fun _ => (), m)

def cursor : Cursor Memory where
  execute := execute
  executeMany := executeMany
  setFast on m := { m with fast := on }

end Memory

end RowContract
