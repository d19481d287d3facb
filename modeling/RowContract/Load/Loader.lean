import RowContract.Batch
import RowContract.Load.Session
import RowContract.Load.Settings
import RowContract.Sql.Cache

/-!
The loader.  A batch is cut into chunks.  The fast path hands a whole chunk to the
cursor; where that fails in a way that single rows may survive, the chunk is loaded
row by row.  There a duplicate key becomes an update in a table of keys with
values, is passed over in a table whose first row stays, and is an error
elsewhere.  With explicit identity values the whole load stands between a switch
on and a switch off, and the switch off is tried however the load ends.
-/

namespace RowContract

/-- A loader: its settings, and the statements that it keeps from batch to batch. -/
structure Loader where
  settings : LoaderSettings := {}
  cache : Sql.StatementCache := {}

/-- What stays the same while a batch is loaded. -/
structure LoadTask where
  settings : LoaderSettings
  table : String
  qualifiedTable : String
  statement : Sql.InsertStatement

abbrev Loading (σ α : Type) := ExceptT LoadError (Work σ) α

/-- Cut a list into chunks of `size` items, of one item if `size` is zero. -/
def chunks {α : Type} (size : Nat) : List α → List (List α)
  | [] => []
  | a :: rest => (a :: rest.take (size - 1)) :: chunks size (rest.drop (size - 1))
termination_by xs => xs.length
decreasing_by simp only [List.length_drop, List.length_cons]; omega

namespace LoadTask

variable {σ : Type}

def record (s : LoaderSettings) (e : LoadError) (text : String) (columns : List String)
    (rows : List (List Value)) : Work σ Unit := do
  Work.complain e.table e.text
  match ← Work.keep (Report.ofError e text columns rows s.diagnosticSampleRows) with
  | none => pure ()
  | some (.ok id) => Work.warn e.table ("diagnostic saved as " ++ id)
  | some (.error why) => Work.complain e.table ("could not save diagnostic: " ++ why.message)

/-- End the load with an error that is recorded first. -/
def fail {α : Type} (t : LoadTask) (e : LoadError) (text : String) (columns : List String)
    (rows : List (List Value)) : Loading σ α := do
  ExceptT.lift (record t.settings e text columns rows)
  throw e

def valueOf? (t : LoadTask) (row : List Value) (column : String) : Option Value :=
  ((t.statement.columns.zip row).find? fun e => e.1 == column).map Prod.snd

/-- The values that an update sets, as far as the statement has them. -/
def updateValues (t : LoadTask) (kv : KeyValueTable) (row : List Value) :
    List (String × Value) :=
  kv.valueColumns.filterMap fun column => (t.valueOf? row column).map fun v => (column, v)

/-- The keys that an update looks for; those that the statement lacks are null. -/
def updateKeys (t : LoadTask) (kv : KeyValueTable) (row : List Value) : List (String × Value) :=
  kv.keyColumns.map fun column => (column, (t.valueOf? row column).getD .null)

/-- Update the row whose key a new row repeats: how many rows that applies. -/
def update (c : Cursor σ) (t : LoadTask) (kv : KeyValueTable) (index : Nat) (row : List Value) :
    Loading σ Nat := do
  let values := t.updateValues kv row
  if values.isEmpty then
    ExceptT.lift <| Work.warn t.table
      ("row " ++ toString index ++ " duplicates a key but carries no value column")
    return 0
  else
    let keys := t.updateKeys kv row
    let command := Sql.updateCommand t.qualifiedTable values keys
    match ← ExceptT.lift (Work.execute c command) with
    | .ok affected => return min affected 1
    | .error e =>
      t.fail ⟨LoadFault.classify e, t.table, e.message, some index⟩ command.text
        ((values ++ keys).map Prod.fst) [command.params]

def settle (c : Cursor σ) (t : LoadTask) (index : Nat) (row : List Value) (e : DbError) :
    Loading σ Nat :=
  let fault := LoadFault.classify e
  let stop := t.fail ⟨fault, t.table, e.message, some index⟩ t.statement.text t.statement.columns
    [row]
  if fault = .primaryKey then
    match t.settings.keyValueTable? t.table with
    | some kv => t.update c kv index row
    | none =>
      if t.settings.isFirstWriteWins t.table then do
        ExceptT.lift <| Work.warn t.table
          ("row " ++ toString index ++ " duplicates an existing key, first write kept")
        return 0
      else stop
  else stop

def insertRow (c : Cursor σ) (t : LoadTask) (index : Nat) (row : List Value) : Loading σ Nat := do
  match ← ExceptT.lift (Work.execute c ⟨t.statement.text, row⟩) with
  | .ok _ => return 1
  | .error e => t.settle c index row e

def insertRows (c : Cursor σ) (t : LoadTask) (index : Nat) : List (List Value) → Loading σ Nat
  | [] => pure 0
  | row :: rest => do
    let applied ← t.insertRow c index row
    let more ← t.insertRows c (index + 1) rest
    return applied + more

/-- Insert rows one by one, with the cursor told so. -/
def insertSlowly (c : Cursor σ) (t : LoadTask) (index : Nat) (chunk : List (List Value)) :
    Loading σ Nat := do
  ExceptT.lift (Work.setFast c false)
  t.insertRows c index chunk

/-- Whether a failure of the fast path is worth a second attempt row by row. -/
def isRetried (t : LoadTask) : LoadFault → Bool
  | .coercion => true
  | .primaryKey =>
    (t.settings.keyValueTable? t.table).isSome || t.settings.isFirstWriteWins t.table
  | _ => false

/-- Insert a chunk in one call, or row by row if that fails in a way to be retried. -/
def insertFast (c : Cursor σ) (t : LoadTask) (index : Nat) (chunk : List (List Value)) :
    Loading σ Nat := do
  ExceptT.lift (Work.setFast c true)
  match ← ExceptT.lift (Work.executeMany c t.statement.text chunk) with
  | .ok () => return chunk.length
  | .error e =>
    let fault := LoadFault.classify e
    if t.isRetried fault then
      ExceptT.lift <| Work.warn t.table
        ("fast path failed (" ++ fault.phrase ++ "), retrying " ++ toString chunk.length ++
          " rows one by one")
      t.insertSlowly c index chunk
    else
      t.fail ⟨fault, t.table, e.message, none⟩ t.statement.text t.statement.columns chunk

def insertChunk (c : Cursor σ) (t : LoadTask) (index : Nat) (chunk : List (List Value)) :
    Loading σ Nat :=
  if 1 < chunk.length ∧ !t.settings.isRowByRow t.table then t.insertFast c index chunk
  else t.insertSlowly c index chunk

def insertChunks (c : Cursor σ) (t : LoadTask) (index : Nat) :
    List (List (List Value)) → Loading σ Nat
  | [] => pure 0
  | chunk :: rest => do
    let applied ← t.insertChunk c index chunk
    let more ← t.insertChunks c (index + chunk.length) rest
    return applied + more

def insertAll (c : Cursor σ) (t : LoadTask) (rows : List (List Value)) : Loading σ Nat :=
  t.insertChunks c 0 (chunks t.settings.chunkSize rows)

def identityCommand (t : LoadTask) (on : Bool) : Sql.Command :=
  ⟨Sql.identityInsertText t.qualifiedTable on, []⟩

def allowIdentity (c : Cursor σ) (t : LoadTask) : Loading σ Unit := do
  let command := t.identityCommand true
  match ← ExceptT.lift (Work.execute c command) with
  | .ok _ => return ()
  | .error e => t.fail ⟨LoadFault.classify e, t.table, e.message, none⟩ command.text [] []

/-- Forbid explicit identity values again.  An error of the load itself counts for more than one of
this step. -/
def forbidIdentity (c : Cursor σ) (t : LoadTask) (result : Except LoadError Nat) :
    Loading σ Nat := do
  let command := t.identityCommand false
  match ← ExceptT.lift (Work.execute c command), result with
  | .ok _, result => result
  | .error e, .ok _ =>
    t.fail ⟨.system, t.table, "failed to disable IDENTITY_INSERT: " ++ e.message, none⟩
      command.text [] []
  | .error e, .error failure =>
    ExceptT.lift <| Work.complain t.table
      ("failed to disable IDENTITY_INSERT after error: " ++ e.message)
    throw failure

def insertWithIdentity (c : Cursor σ) (t : LoadTask) (rows : List (List Value)) :
    Loading σ Nat := do
  t.allowIdentity c
  let result ← ExceptT.lift (t.insertAll c rows).run
  t.forbidIdentity c result

end LoadTask

namespace Loader

variable {σ : Type}

def prepare (l : Loader) (b : Batch) : LoadTask × Loader :=
  let (statement, cache) := l.cache.statement b.qualifiedTable b.columns
  (⟨l.settings, b.table, b.qualifiedTable, statement⟩, { l with cache := cache })

/-- Load the records of a batch that is not empty: how many were inserted or updated. -/
def run (c : Cursor σ) (t : LoadTask) (b : Batch) : Loading σ Nat := do
  let rows := b.records.map (Batch.row t.statement.columns)
  let applied ← if b.identityInsert then t.insertWithIdentity c rows else t.insertAll c rows
  let applied := min applied b.size
  ExceptT.lift <| Work.log ⟨.info, b.qualifiedTable ++ ": " ++ toString applied ++ "/" ++
    toString b.size ++ " rows applied", none⟩
  return applied

/-- Load a batch: how many rows were inserted or updated, and the loader after it. -/
def load (c : Cursor σ) (l : Loader) (b : Batch) : Work σ (Except LoadError Nat × Loader) :=
  if b.records.isEmpty then pure (.ok 0, l)
  else do
    let (t, l) := l.prepare b
    let result ← (run c t b).run
    return (result, l)

end Loader

end RowContract
