import RowContract.Document.Basic
import RowContract.Json.Shape

/-!
Reading documents from JSON.  A document is an array of elements with explicit
parents, or an object that gives the attributes of the elements by path.  In both
forms every parent stands before its children.
-/

namespace RowContract

open RowContract.Json

inductive DocumentError where
  | shape (e : ShapeError)
  /-- The parent of the element at an index does not stand before it. -/
  | laterParent (index : Nat)
  /-- What stands under a path has no attributes. -/
  | noAttributes (path : String)
  | noDocument
  deriving DecidableEq, Repr

def DocumentError.reason : DocumentError → String
  | .shape e => e.message
  | .laterParent index =>
    "element " ++ toString index ++ " references a parent that does not precede it"
  | .noAttributes path => "entry for '" ++ path ++ "' is not an attribute object"
  | .noDocument => "document must be an array of elements or a path map"

def DocumentError.message (e : DocumentError) : String := "Invalid document: " ++ e.reason

def Element.ofJson : Reader Element := fun v => do
  let fs ← readStruct "Element"
    [needed "path" readText, spare "attributes" (readMap readText),
     spare "parent" (readOption readCount)] v
  return {
    path := ← require fs "path" readText
    attributes := ← getOr fs "attributes" (readMap readText) []
    parent := ← getOr fs "parent" (readOption readCount) none }

def Element.toJson (e : Element) : Json :=
  .object <|
    [("path", .string e.path),
     ("attributes", .object (e.attributes.map fun (name, s) => (name, .string s)))] ++
    match e.parent with
    | some p => [("parent", .ofNat p)]
    | none => []

/-- The text of an attribute: a string as it is, anything else as JSON; null for none. -/
def attributeText? : Json → Option String
  | .string s => some s
  | .null => none
  | v => some v.compact

def attributeFields (fields : List (String × Json)) : Fields String :=
  fields.filterMap fun (name, v) => (attributeText? v).map fun s => (name, s)

/-- The attributes of an entry for a path: null for none, an object that holds them under
`attributes`, or the object of them. -/
def entryAttributes (path : String) : Json → Except DocumentError (Fields String)
  | .null => .ok []
  | .object fields =>
    match Fields.get? fields "attributes" with
    | some (.object inner) => .ok (attributeFields inner)
    | _ => .ok (attributeFields fields)
  | _ => .error (.noAttributes path)

namespace Document

/-- The index of the first element whose parent does not stand before it. -/
def laterParent? (es : List Element) : Option Nat :=
  (es.zipIdx.find? fun (e, i) => e.parent.any fun p => i ≤ p).map Prod.snd

def ofElements (items : List Json) : Except DocumentError Document := do
  let es ← (items.mapM Element.ofJson).mapError .shape
  match laterParent? es with
  | some i => .error (.laterParent i)
  | none => .ok ⟨es⟩

def pushEntries (path : String) : Document → List Json → Except DocumentError Document
  | d, [] => .ok d
  | d, v :: rest => do
    let attributes ← entryAttributes path v
    pushEntries path (d.pushNested path attributes) rest

def pushPaths : Document → List (String × Json) → Except DocumentError Document
  | d, [] => .ok d
  | d, (path, .array entries) :: rest => do
    let d ← pushEntries path d entries
    pushPaths d rest
  | d, (path, entry) :: rest => do
    let d ← pushEntries path d [entry]
    pushPaths d rest

def ofJson : Json → Except DocumentError Document
  | .array items => ofElements items
  | .object paths => pushPaths empty paths
  | _ => .error .noDocument

end Document

end RowContract
