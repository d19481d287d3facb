import RowContract.Load.Store
import RowContract.Sql.Statement

/-!
Sessions with a database.  A cursor answers from a state of its own.  A
computation in a session changes that state, keeps diagnostics, and leaves a trace:
every call with its answer, every log line and every diagnostic saved, in order.
-/

namespace RowContract

/-- How a database answers: one statement, one statement for many rows of parameters, and the switch
between the two ways to bind many rows. -/
structure Cursor (σ : Type) where
  execute : Sql.Command → σ → Except DbError Nat × σ
  executeMany : String → List (List Value) → σ → Except DbError Unit × σ
  setFast : Bool → σ → σ

/-- A store of diagnostics, with the names and times to give to the next ones. -/
structure Archive where
  store : Store := {}
  stamp : Nat → String × DateTime
  /-- How many stamps have been given. -/
  issued : Nat := 0

/-- The next stamp on a report. -/
def Archive.next (a : Archive) (r : Report) : Diagnostic :=
  let (id, time) := a.stamp a.issued
  { toReport := r, id := id, createdAt := time }

inductive LoadEvent where
  | fast (on : Bool)
  | executed (command : Sql.Command) (answer : Except DbError Nat)
  | executedMany (text : String) (rows : List (List Value)) (answer : Except DbError Unit)
  | line (e : LogEntry)
  | saved (d : Diagnostic)

def LoadEvent.lines (es : List LoadEvent) : List LogEntry :=
  es.filterMap fun
    | .line e => some e
    | _ => none

def LoadEvent.savedReports (es : List LoadEvent) : List Diagnostic :=
  es.filterMap fun
    | .saved d => some d
    | _ => none

/-- The state of a session: that of the cursor, and the archive if there is one. -/
structure Session (σ : Type) where
  cursor : σ
  archive : Option Archive := none

structure Episode (σ α : Type) where
  value : α
  session : Session σ
  events : List LoadEvent := []

def Work (σ α : Type) := Session σ → Episode σ α

namespace Work

variable {σ α β : Type}

instance : Monad (Work σ) where
  pure a := fun s => ⟨a, s, []⟩
  bind x f := fun s =>
    let first := x s
    let second := f first.value first.session
    ⟨second.value, second.session, first.events ++ second.events⟩

theorem pure_run (a : α) (s : Session σ) : (pure a : Work σ α) s = ⟨a, s, []⟩ := rfl

theorem bind_run (x : Work σ α) (f : α → Work σ β) (s : Session σ) :
    (x >>= f) s =
      ⟨(f (x s).value (x s).session).value, (f (x s).value (x s).session).session,
        (x s).events ++ (f (x s).value (x s).session).events⟩ := rfl

def log (e : LogEntry) : Work σ Unit := fun s => ⟨(), s, [.line e]⟩

def warn (table message : String) : Work σ Unit := log ⟨.warning, message, some table⟩

def complain (table message : String) : Work σ Unit := log ⟨.error, message, some table⟩

def execute (c : Cursor σ) (command : Sql.Command) : Work σ (Except DbError Nat) := fun s =>
  let (answer, cursor) := c.execute command s.cursor
  ⟨answer, { s with cursor := cursor }, [.executed command answer]⟩

def executeMany (c : Cursor σ) (text : String) (rows : List (List Value)) :
    Work σ (Except DbError Unit) := fun s =>
  let (answer, cursor) := c.executeMany text rows s.cursor
  ⟨answer, { s with cursor := cursor }, [.executedMany text rows answer]⟩

def setFast (c : Cursor σ) (on : Bool) : Work σ Unit := fun s =>
  ⟨(), { s with cursor := c.setFast on s.cursor }, [.fast on]⟩

/-- Keep a report, if there is an archive: the name it is kept under, or why it is not kept. -/
def keep (r : Report) : Work σ (Option (Except SaveError String)) := fun s =>
  match s.archive with
  | none => ⟨none, s, []⟩
  | some a =>
    let d := a.next r
    let a := { a with issued := a.issued + 1 }
    match a.store.save d with
    | .ok store =>
      ⟨some (.ok d.id), { s with archive := some { a with store := store } }, [.saved d]⟩
    | .error e => ⟨some (.error e), { s with archive := some a }, []⟩

end Work

end RowContract
