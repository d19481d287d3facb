import RowContract.Contract.Basic

/-!
Writing contracts as JSON.  Settings that are not given are left out; everything
else is written, in the order of the contract's fields.
-/

namespace RowContract

def optionalField {α : Type} (name : String) (f : α → Json) : Option α → List (String × Json)
  | some a => [(name, f a)]
  | none => []

def FieldMapping.toJson (m : FieldMapping) : Json :=
  .object <|
    [("source_path", .string m.sourcePath)] ++
    optionalField "xml_attribute" .string m.xmlAttribute ++
    [("target_table", .string m.targetTable),
     ("target_column", .string m.targetColumn),
     ("data_type", .string m.dataType.display)] ++
    optionalField "data_length" Json.ofNat m.dataLength ++
    [("mapping_type", .array (m.chain.map fun op => .string op.display))] ++
    optionalField "expression" .string m.expression ++
    optionalField "enum_name" .string m.enumName ++
    optionalField "default_value" id m.defaultValue ++
    [("nullable", .bool m.nullable), ("required", .bool m.required)]

def Code.toJson : Code → Json
  | .int n => Json.ofInt n
  | .bool b => .bool b
  | .text s => .string s

def CodeTable.toJson (codes : CodeTable) : Json :=
  .object (codes.map fun (word, code) => (word, code.toJson))

def Requirement.toJson : Requirement → Json
  | .present b => .bool b
  | .oneOf allowed => .array (allowed.map .string)

def FilterRule.toJson (r : FilterRule) : Json :=
  .object <|
    [("element_type", .string r.elementType),
     ("xml_path", .string r.xmlPath),
     ("required_attributes",
       .object (r.requiredAttributes.map fun (name, q) => (name, q.toJson)))] ++
    optionalField "identity_attribute" .string r.identityAttribute

def ContactRoles.toJson (r : ContactRoles) : Json :=
  .object
    [("contact_path", .string r.contactPath),
     ("role_attribute", .string r.roleAttribute),
     ("primary", .string r.primary),
     ("secondary", .string r.secondary)]

def Relationship.toJson (r : Relationship) : Json :=
  .object <|
    [("parent_table", .string r.parentTable),
     ("child_table", .string r.childTable),
     ("foreign_key_column", .string r.foreignKeyColumn)] ++
    optionalField "parent_key_column" .string r.parentKeyColumn

/-- The JSON form of a contract; compiled expressions are not part of it. -/
def Contract.toJson (c : Contract) : Json :=
  .object
    [("source_table", .string c.sourceTable),
     ("source_column", .string c.sourceColumn),
     ("xml_root_element", .string c.xmlRootElement),
     ("target_schema", .string c.targetSchema),
     ("table_insertion_order", .array (c.tableInsertionOrder.map .string)),
     ("element_filtering", .object
       [("filter_rules", .array (c.elementFiltering.filterRules.map FilterRule.toJson)),
        ("contact_roles", c.elementFiltering.contactRoles.toJson)]),
     ("relationships", .array (c.relationships.map Relationship.toJson)),
     ("enum_mappings",
       .object (c.enumMappings.map fun (name, codes) => (name, CodeTable.toJson codes))),
     ("bit_conversions", .object
       [("char_to_bit", CodeTable.toJson c.bitConversions.charToBit),
        ("boolean_to_bit", CodeTable.toJson c.bitConversions.booleanToBit)]),
     ("mappings", .array (c.mappings.map FieldMapping.toJson))]

end RowContract
