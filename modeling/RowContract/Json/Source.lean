import RowContract.Json.Number

/-!
Sources: texts taken apart as JSON, as far as they go.  What is wrong with a text
stays in its place, so that a reader meets it in the order of the text, and does
not meet it at all where it does not look.
-/

namespace RowContract.Json

inductive Source where
  | null
  | bool (b : Bool)
  /-- A numeral; there is no number if it is out of range. -/
  | number (n : Option JsonNumber)
  /-- A string; there is no text if one of its escapes stands for no character. -/
  | string (s : Option String)
  /-- The items up to the closing bracket, or up to where the array breaks off. -/
  | array (items : List Source) (closed : Bool)
  /-- The fields up to the closing brace, or up to where the object breaks off. -/
  | object (fields : List (Option String × Source)) (closed : Bool)
  /-- A container within too many others. -/
  | deep (container : Source)
  /-- Nothing that begins a value, or a value that breaks off. -/
  | broken

namespace Source

mutual

/-- The value, if nothing is wrong with it; repeated names are merged. -/
def toJson? : Source → Option Json
  | .null => some .null
  | .bool b => some (.bool b)
  | .number n => n.map .number
  | .string s => s.map .string
  | .array items closed => if closed then (items? items).map .array else none
  | .object fields closed =>
    if closed then (fields? fields).map fun fs => .object (Fields.ofList fs) else none
  | .deep _ => none
  | .broken => none

def items? : List Source → Option (List Json)
  | [] => some []
  | s :: r => do
    let v ← toJson? s
    let vs ← items? r
    return v :: vs

def fields? : List (Option String × Source) → Option (List (String × Json))
  | [] => some []
  | (name, s) :: r => do
    let name ← name
    let v ← toJson? s
    let fs ← fields? r
    return (name, v) :: fs

end

mutual

/-- The text is well formed here, so that a value can be passed over: what the numbers and strings
stand for, and how deep containers nest, does not matter. -/
def isWellFormed : Source → Bool
  | .array items closed => closed && allWellFormed items
  | .object fields closed => closed && fieldsWellFormed fields
  | .deep s => isWellFormed s
  | .broken => false
  | _ => true

def allWellFormed : List Source → Bool
  | [] => true
  | s :: r => isWellFormed s && allWellFormed r

def fieldsWellFormed : List (Option String × Source) → Bool
  | [] => true
  | (_, s) :: r => isWellFormed s && fieldsWellFormed r

end

/-- The value as it looks from outside: containers are taken as empty. -/
def outside? : Source → Option Json
  | .null => some .null
  | .bool b => some (.bool b)
  | .number n => n.map .number
  | .string s => s.map .string
  | .array _ _ => some (.array [])
  | .object _ _ => some (.object [])
  | .deep s => outside? s
  | .broken => none

end Source

mutual

def source : Json → Source
  | .null => .null
  | .bool b => .bool b
  | .number n => .number (some n)
  | .string s => .string (some s)
  | .array items => .array (sourceItems items) true
  | .object fields => .object (sourceFields fields) true

def sourceItems : List Json → List Source
  | [] => []
  | v :: r => source v :: sourceItems r

def sourceFields : List (String × Json) → List (Option String × Source)
  | [] => []
  | (name, v) :: r => (some name, source v) :: sourceFields r

end

end RowContract.Json
