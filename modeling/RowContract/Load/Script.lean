import RowContract.Load.Session
import RowContract.Sql.Rendering

/-!
Scripts: a cursor that writes down every statement with the literals of its values,
and does nothing else.
-/

namespace RowContract

structure Script where
  statements : List String := []
  deriving DecidableEq, Repr

namespace Script

def failure (e : Sql.RenderError) : DbError := ⟨e.message, none⟩

def add (text : String) (params : List Value) (s : Script) : Except DbError Unit × Script :=
  match Sql.render text params with
  | .ok statement => (.ok (), ⟨s.statements ++ [statement]⟩)
  | .error e => (.error (failure e), s)

/-- Write a statement down for every row, up to the first that does not fit. -/
def addAll (text : String) : List (List Value) → Script → Except DbError Unit × Script
  | [], s => (.ok (), s)
  | row :: rest, s =>
    match add text row s with
    | (.ok (), s) => addAll text rest s
    | (.error e, s) => (.error e, s)

def cursor : Cursor Script where
  execute command s :=
    let (answer, s) := add command.text command.params s
    (answer.map fun _ => 1, s)
  executeMany := addAll
  setFast _ s := s

def text (s : Script) : String := String.join (s.statements.map fun t => t ++ ";\n")

end Script

end RowContract
