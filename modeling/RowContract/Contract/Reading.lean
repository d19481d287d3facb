import RowContract.Contract.Basic
import RowContract.Json.Shape

/-!
Reading contracts and their parts from JSON.
-/

namespace RowContract

open RowContract.Json

def readWith {α ε : Type} (parse : String → Except ε α) (message : ε → String) : Reader α :=
  fun v => do
    let s ← readText v
    (parse s).mapError fun e => .refused (message e)

def DataType.ofJson : Reader DataType := readWith DataType.parse DataTypeError.message

/-- Cut a text at the commas outside parentheses; a closing parenthesis without an opening one
does not count. -/
def splitTopLevel (depth : Nat) : List Char → List (List Char)
  | [] => [[]]
  | c :: r =>
    if c = ',' ∧ depth = 0 then [] :: splitTopLevel depth r
    else
      let depth := if c = '(' then depth + 1 else if c = ')' then depth - 1 else depth
      match splitTopLevel depth r with
      | [] => [[c]]
      | part :: parts => (c :: part) :: parts

def Operation.ofTokens (tokens : List String) : Except ShapeError (List Operation) :=
  (tokens.filter fun t => !Text.isBlankText t).mapM fun t =>
    (Operation.parse t).mapError fun e => .refused e.message

def textItems? : List Json → Option (List String)
  | [] => some []
  | .string s :: r => (textItems? r).map (s :: ·)
  | _ => none

/-- A chain: one text with commas, an array of texts, or null for an empty one. -/
def Operation.chainOfJson : Reader (List Operation)
  | .null => .ok []
  | .string s => Operation.ofTokens ((splitTopLevel 0 s.toList).map String.ofList)
  | .array items =>
    match textItems? items with
    | some tokens => Operation.ofTokens tokens
    | none => .error (.noVariant "OneOrMany")
  | _ => .error (.noVariant "OneOrMany")

def readPresent : Reader (Option Json)
  | .null => .ok none
  | v => .ok (some v)

def FieldMapping.rules : List FieldRule :=
  [{ name := "source_path", otherName := some "xml_path", required := true,
     check := checkWith readText },
   spare "xml_attribute" (readOption readText),
   needed "target_table" readText,
   spare "target_column" readText,
   spare "data_type" DataType.ofJson,
   spare "data_length" (readOption readCount),
   spare "mapping_type" Operation.chainOfJson,
   spare "expression" (readOption readText),
   spare "enum_name" (readOption readText),
   spare "default_value" readPresent,
   spare "nullable" readBool,
   spare "required" readBool]

def FieldMapping.ofJson : Reader FieldMapping := fun v => do
  let fs ← readStruct "FieldMappingSpec" FieldMapping.rules v
  return {
    sourcePath := ← require fs "source_path" readText
    xmlAttribute := ← getOr fs "xml_attribute" (readOption readText) none
    targetTable := ← require fs "target_table" readText
    targetColumn := ← getOr fs "target_column" readText ""
    dataType := ← getOr fs "data_type" DataType.ofJson (.text none)
    dataLength := ← getOr fs "data_length" (readOption readCount) none
    chain := ← getOr fs "mapping_type" Operation.chainOfJson []
    expression := ← getOr fs "expression" (readOption readText) none
    enumName := ← getOr fs "enum_name" (readOption readText) none
    defaultValue := ← getOr fs "default_value" readPresent none
    nullable := ← getOr fs "nullable" readBool true
    required := ← getOr fs "required" readBool false }

/-- A code: an integer of 64 bits with a sign, a truth value or a text. -/
def Code.ofJson : Reader Code
  | .number (.integer n) =>
    if Text.fitsSigned n then .ok (.int n) else .error (.noVariant "MappedCode")
  | .bool b => .ok (.bool b)
  | .string s => .ok (.text s)
  | _ => .error (.noVariant "MappedCode")

def BitConversions.ofJson : Reader BitConversions := fun v => do
  let fs ← readStruct "BitConversions"
    [spare "char_to_bit" (readMap Code.ofJson), spare "boolean_to_bit" (readMap Code.ofJson)] v
  return {
    charToBit := ← getOr fs "char_to_bit" (readMap Code.ofJson) []
    booleanToBit := ← getOr fs "boolean_to_bit" (readMap Code.ofJson) [] }

def Requirement.ofJson : Reader Requirement
  | .bool b => .ok (.present b)
  | .array items =>
    match textItems? items with
    | some allowed => .ok (.oneOf allowed)
    | none => .error (.noVariant "AttributeRequirement")
  | _ => .error (.noVariant "AttributeRequirement")

def FilterRule.ofJson : Reader FilterRule := fun v => do
  let fs ← readStruct "FilterRule"
    [needed "element_type" readText, needed "xml_path" readText,
     spare "required_attributes" (readMap Requirement.ofJson),
     spare "identity_attribute" (readOption readText)] v
  return {
    elementType := ← require fs "element_type" readText
    xmlPath := ← require fs "xml_path" readText
    requiredAttributes := ← getOr fs "required_attributes" (readMap Requirement.ofJson) []
    identityAttribute := ← getOr fs "identity_attribute" (readOption readText) none }

def ContactRoles.ofJson : Reader ContactRoles := fun v => do
  let usual : ContactRoles := {}
  let fs ← readStruct "ContactRoles"
    [spare "contact_path" readText, spare "role_attribute" readText,
     spare "primary" readText, spare "secondary" readText] v
  return {
    contactPath := ← getOr fs "contact_path" readText usual.contactPath
    roleAttribute := ← getOr fs "role_attribute" readText usual.roleAttribute
    primary := ← getOr fs "primary" readText usual.primary
    secondary := ← getOr fs "secondary" readText usual.secondary }

def ElementFiltering.ofJson : Reader ElementFiltering := fun v => do
  let fs ← readStruct "ElementFiltering"
    [spare "filter_rules" (readList FilterRule.ofJson),
     spare "contact_roles" ContactRoles.ofJson] v
  return {
    filterRules := ← getOr fs "filter_rules" (readList FilterRule.ofJson) []
    contactRoles := ← getOr fs "contact_roles" ContactRoles.ofJson {} }

def Relationship.ofJson : Reader Relationship := fun v => do
  let fs ← readStruct "Relationship"
    [needed "parent_table" readText, needed "child_table" readText,
     needed "foreign_key_column" readText,
     spare "parent_key_column" (readOption readText)] v
  return {
    parentTable := ← require fs "parent_table" readText
    childTable := ← require fs "child_table" readText
    foreignKeyColumn := ← require fs "foreign_key_column" readText
    parentKeyColumn := ← getOr fs "parent_key_column" (readOption readText) none }

def Contract.rules : List FieldRule :=
  [spare "source_table" readText,
   spare "source_column" readText,
   spare "xml_root_element" readText,
   spare "target_schema" readText,
   spare "table_insertion_order" (readList readText),
   spare "element_filtering" ElementFiltering.ofJson,
   spare "relationships" (readList Relationship.ofJson),
   spare "enum_mappings" (readMap (readMap Code.ofJson)),
   spare "bit_conversions" BitConversions.ofJson,
   needed "mappings" (readList FieldMapping.ofJson)]

def Contract.ofJson : Reader Contract := fun v => do
  let fs ← readStruct "MappingContract" Contract.rules v
  return {
    sourceTable := ← getOr fs "source_table" readText ""
    sourceColumn := ← getOr fs "source_column" readText ""
    xmlRootElement := ← getOr fs "xml_root_element" readText ""
    targetSchema := ← getOr fs "target_schema" readText "dbo"
    tableInsertionOrder := ← getOr fs "table_insertion_order" (readList readText) []
    elementFiltering := ← getOr fs "element_filtering" ElementFiltering.ofJson {}
    relationships := ← getOr fs "relationships" (readList Relationship.ofJson) []
    enumMappings := ← getOr fs "enum_mappings" (readMap (readMap Code.ofJson)) []
    bitConversions := ← getOr fs "bit_conversions" BitConversions.ofJson {}
    mappings := ← require fs "mappings" (readList FieldMapping.ofJson) }

end RowContract
