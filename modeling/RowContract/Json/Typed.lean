import RowContract.Json.Parser
import RowContract.Json.Shape

/-!
Reading typed data out of a text.  The text is read in its order and no further
than the data goes wrong: a wrong shape is noticed before anything that follows it,
and of the fields that are not asked for only the form is looked at.  An array with
too many items is no JSON of this shape at all.
-/

namespace RowContract

inductive TextError where
  | noJson
  | shape (e : ShapeError)
  deriving DecidableEq, Repr

/-- The wording of the error; `syntaxText` stands for what is said about a text that is no JSON. -/
def TextError.message (syntaxText : String) : TextError → String
  | .noJson => syntaxText
  | .shape e => e.message

abbrev TextReader (α : Type) := Json.Source → Except TextError α

namespace TextReader

open RowContract.Json

def apply {α : Type} (r : Reader α) : Option Json → Except TextError α
  | some v => (r v).mapError .shape
  | none => .error .noJson

/-- A value that holds no others.  The reader refuses every container, so that none is entered. -/
def leaf {α : Type} (r : Reader α) : TextReader α := fun s => apply r s.outside?

def whole {α : Type} (r : Reader α) : TextReader α := fun s => apply r s.toJson?

def wrongType {α : Type} (expected : String) : TextReader α := leaf fun v => v.wrongType expected

/-- Something, unless the text breaks off. -/
def ifClosed {α : Type} (closed : Bool) (a : α) : Except TextError α :=
  if closed then .ok a else .error .noJson

def option {α : Type} (r : TextReader α) : TextReader (Option α)
  | .null => .ok none
  | s => (r s).map some

def list {α : Type} (r : TextReader α) : TextReader (List α)
  | .array items closed => do ifClosed closed (← items.mapM r)
  | s => wrongType "a sequence" s

end TextReader

/-! ### Structures -/

/-- A field of a structure: its name, whether it has to be there, and the check of its value. -/
structure TextRule where
  name : String
  required : Bool
  check : TextReader Unit

namespace TextRule

def checkWith {α : Type} (r : TextReader α) : TextReader Unit := fun s => (r s).map fun _ => ()

def needed {α : Type} (name : String) (r : TextReader α) : TextRule := ⟨name, true, checkWith r⟩

def spare {α : Type} (name : String) (r : TextReader α) : TextRule := ⟨name, false, checkWith r⟩

end TextRule

namespace TextReader

open RowContract.Json

/-- Read the fields of an object one by one; unknown ones are passed over. -/
def entries (rules : List TextRule) (closed : Bool) (seen : Fields Source) :
    List (Option String × Source) → Except TextError (Fields Source)
  | [] => ifClosed closed seen
  | (none, _) :: _ => .error .noJson
  | (some name, s) :: rest =>
    match rules.find? fun rule => rule.name == name with
    | none => if s.isWellFormed then entries rules closed seen rest else .error .noJson
    | some rule =>
      if seen.contains name then .error (.shape (.duplicateField name))
      else do
        rule.check s
        entries rules closed (seen ++ [(name, s)]) rest

def positions (expected : String) (closed : Bool) (position : Nat) :
    List TextRule → List Source → Except TextError (Fields Source)
  | [], [] => ifClosed closed []
  | [], rest => .error (.shape (.surplus (position + rest.length)))
  | rule :: rules, [] =>
    if !closed then .error .noJson
    else if rule.required then .error (.shape (.invalidLength position expected))
    else positions expected closed (position + 1) rules []
  | rule :: rules, s :: rest => do
    rule.check s
    let fields ← positions expected closed (position + 1) rules rest
    return (rule.name, s) :: fields

def fields (name : String) (rules : List TextRule) : TextReader (Fields Source)
  | .object entered closed => entries rules closed [] entered
  | .array items closed => positions (structureItems name rules.length) closed 0 rules items
  | s => wrongType ("struct " ++ name) s

def require {α : Type} (fields : Fields Source) (name : String) (r : TextReader α) :
    Except TextError α :=
  match fields.get? name with
  | some s => r s
  | none => .error (.shape (.missingField name))

def getOr {α : Type} (fields : Fields Source) (name : String) (r : TextReader α) (default : α) :
    Except TextError α :=
  match fields.get? name with
  | some s => r s
  | none => .ok default

def ofText {α : Type} (r : TextReader α) (text : String) : Except TextError α :=
  let (s, whole) := sourceOf text
  match r s with
  | .ok a => ifClosed whole a
  | .error (.shape (.surplus _)) => .error .noJson
  | .error e => .error e

end TextReader

end RowContract
