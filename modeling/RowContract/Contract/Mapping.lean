import RowContract.Contract.DataType
import RowContract.Contract.Operation

/-!
The rule for one field: where its value stands in a document, the chain of
operations it goes through, and the column it ends in.
-/

namespace RowContract

/-- One rule that maps an attribute of a document to a target column. -/
structure FieldMapping where
  /-- The path of an element, or of an attribute after `/@`. -/
  sourcePath : String
  /-- The attribute, when the path does not name it. -/
  xmlAttribute : Option String := none
  targetTable : String
  /-- Empty for mappings that append rows. -/
  targetColumn : String := ""
  dataType : DataType := .text none
  /-- A bound on the length of texts. -/
  dataLength : Option Nat := none
  /-- The operations, in the order in which they are applied. -/
  chain : List Operation := []
  expression : Option String := none
  /-- The table of codes; without one, the one named like the column. -/
  enumName : Option String := none
  defaultValue : Option Json := none
  nullable : Bool := true
  required : Bool := false

namespace FieldMapping

/-- What stands before the last `/@` of a path and what follows it. -/
def splitAttribute : List Char → Option (List Char × List Char)
  | [] => none
  | c :: r =>
    match splitAttribute r with
    | some (path, name) => some (c :: path, name)
    | none =>
      match c, r with
      | '/', '@' :: name => some ([], name)
      | _, _ => none

def locator (m : FieldMapping) : String × Option String :=
  match m.xmlAttribute with
  | some name =>
    let path := (m.sourcePath.toList.reverse.dropWhile fun c => c == '/').reverse
    (String.ofList path, some name)
  | none =>
    match splitAttribute m.sourcePath.toList with
    | some (path, name) => (String.ofList path, some (String.ofList name))
    | none => (m.sourcePath, none)

def elementPath (m : FieldMapping) : String := m.locator.1

def attributeName? (m : FieldMapping) : Option String := m.locator.2

def codeTable (m : FieldMapping) : String := m.enumName.getD m.targetColumn

def rowOperation? (m : FieldMapping) : Option Operation := m.chain.find? Operation.createsRow

def createsRow (m : FieldMapping) : Bool := m.rowOperation?.isSome

def label (m : FieldMapping) : String :=
  if m.targetColumn.isEmpty then
    match m.rowOperation? with
    | some op => m.targetTable ++ "." ++ op.display
    | none => m.targetTable
  else m.targetTable ++ "." ++ m.targetColumn

def convert (m : FieldMapping) (v : Value) : Option Value := m.dataType.coerce v m.dataLength

/-- The default as a value of the column's type, if there is one that can be converted and is not
missing. -/
def defaultColumnValue? (m : FieldMapping) : Option Value := do
  let raw ← m.defaultValue
  let v ← m.convert (Value.ofJson raw)
  if v.isNull then none else some v

def withOperation (m : FieldMapping) (op : Operation) : FieldMapping :=
  { m with chain := m.chain ++ [op] }

def makeRequired (m : FieldMapping) : FieldMapping := { m with required := true, nullable := false }

end FieldMapping

end RowContract
