import RowContract.Json.Text
import RowContract.Text.Digits
import RowContract.Text.Quoted

/-!
Reading typed data out of JSON values.  A structure is written as an object, or as
an array of its fields in order.  Fields are read in the order in which they are
written, so that the first that does not fit gives the error; fields that are
missing are noticed after that.
-/

namespace RowContract

/-- Why a JSON value does not have the shape that is asked for. -/
inductive ShapeError where
  | missingField (name : String)
  | duplicateField (name : String)
  /-- A value of the wrong kind. -/
  | invalidType (found expected : String)
  /-- A value of the right kind that is out of range. -/
  | invalidValue (found expected : String)
  | invalidLength (length : Nat) (expected : String)
  /-- An array with more items than a structure has fields. -/
  | surplus (length : Nat)
  | unknownVariant (found : String) (known : List String)
  /-- None of several readings fits. -/
  | noVariant (name : String)
  /-- A text that its own reader refuses. -/
  | refused (message : String)
  deriving DecidableEq, Repr

def backquoted (s : String) : String := "`" ++ s ++ "`"

def ShapeError.message : ShapeError → String
  | .missingField name => "missing field " ++ backquoted name
  | .duplicateField name => "duplicate field " ++ backquoted name
  | .invalidType found expected => "invalid type: " ++ found ++ ", expected " ++ expected
  | .invalidValue found expected => "invalid value: " ++ found ++ ", expected " ++ expected
  | .invalidLength length expected =>
    "invalid length " ++ toString length ++ ", expected " ++ expected
  | .surplus length =>
    "invalid length " ++ toString length ++ ", expected fewer elements in array"
  | .unknownVariant found known =>
    "unknown variant " ++ backquoted found ++ ", expected one of " ++
      ", ".intercalate (known.map backquoted)
  | .noVariant name => "data did not match any variant of untagged enum " ++ name
  | .refused message => message

namespace Json

def found : Json → String
  | .null => "null"
  | .bool b => "boolean " ++ backquoted (if b then "true" else "false")
  | .number (.integer n) => "integer " ++ backquoted (toString n)
  | .number (.double x) => "floating point " ++ backquoted (JsonNumber.text (.double x))
  | .string s => "string " ++ Text.quoted s
  | .array _ => "sequence"
  | .object _ => "map"

abbrev Reader (α : Type) := Json → Except ShapeError α

def wrongType {α : Type} (v : Json) (expected : String) : Except ShapeError α :=
  .error (.invalidType v.found expected)

def readText : Reader String
  | .string s => .ok s
  | v => v.wrongType "a string"

def readBool : Reader Bool
  | .bool b => .ok b
  | v => v.wrongType "a boolean"

def readCount : Reader Nat
  | .number (.integer n) =>
    if 0 ≤ n then .ok n.toNat
    else .error (.invalidValue (found (.number (.integer n))) "usize")
  | v => v.wrongType "usize"

def readOption {α : Type} (r : Reader α) : Reader (Option α)
  | .null => .ok none
  | v => (r v).map some

def readList {α : Type} (r : Reader α) : Reader (List α)
  | .array items => items.mapM r
  | v => v.wrongType "a sequence"

def readMap {α : Type} (r : Reader α) : Reader (Fields α)
  | .object fields => do
    let entries ← fields.mapM fun (name, v) => do
      let a ← r v
      return (name, a)
    return Fields.ofList entries
  | v => v.wrongType "a map"

/-! ### Structures -/

/-- A field of a structure: its name, another name it may have, whether it has to be there, and
the check of its value. -/
structure FieldRule where
  name : String
  otherName : Option String
  required : Bool
  check : Json → Except ShapeError Unit

def checkWith {α : Type} (r : Reader α) : Json → Except ShapeError Unit :=
  fun v => (r v).map fun _ => ()

def needed {α : Type} (name : String) (r : Reader α) : FieldRule := ⟨name, none, true, checkWith r⟩

def spare {α : Type} (name : String) (r : Reader α) : FieldRule := ⟨name, none, false, checkWith r⟩

def ruleFor? (rules : List FieldRule) (name : String) : Option FieldRule :=
  rules.find? fun r => r.name == name || r.otherName == some name

/-- Read the fields of an object one by one; unknown ones are passed over. -/
def readEntries (rules : List FieldRule) (seen : Fields Json) :
    List (String × Json) → Except ShapeError (Fields Json)
  | [] => .ok seen
  | (name, v) :: rest =>
    match ruleFor? rules name with
    | none => readEntries rules seen rest
    | some rule =>
      if seen.contains rule.name then .error (.duplicateField rule.name)
      else do
        rule.check v
        readEntries rules (seen ++ [(rule.name, v)]) rest

def readPositions (expected : String) (position : Nat) :
    List FieldRule → List Json → Except ShapeError (Fields Json)
  | [], rest => if rest.isEmpty then .ok [] else .error (.surplus (position + rest.length))
  | rule :: rules, [] =>
    if rule.required then .error (.invalidLength position expected)
    else readPositions expected (position + 1) rules []
  | rule :: rules, v :: rest => do
    rule.check v
    let fields ← readPositions expected (position + 1) rules rest
    return (rule.name, v) :: fields

/-- How a message names the items of an array that stands for a structure. -/
def structureItems (name : String) (count : Nat) : String :=
  "struct " ++ name ++ " with " ++ toString count ++ if count = 1 then " element" else " elements"

def readStruct (name : String) (rules : List FieldRule) : Reader (Fields Json)
  | .object fields => readEntries rules [] fields
  | .array items => readPositions (structureItems name rules.length) 0 rules items
  | v => v.wrongType ("struct " ++ name)

def require {α : Type} (fields : Fields Json) (name : String) (r : Reader α) :
    Except ShapeError α :=
  match fields.get? name with
  | some v => r v
  | none => .error (.missingField name)

def getOr {α : Type} (fields : Fields Json) (name : String) (r : Reader α) (default : α) :
    Except ShapeError α :=
  match fields.get? name with
  | some v => r v
  | none => .ok default

end Json

end RowContract
