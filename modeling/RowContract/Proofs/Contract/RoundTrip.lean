import RowContract.Contract.Writing
import RowContract.Proofs.Contract.Acceptance
import RowContract.Proofs.Contract.Order

/-!
Contracts are read back as they are written.  Every part of a well-formed contract passes the schema
in its JSON form, and its reader gives back the part; so an accepted contract is accepted again,
with the same expressions.
-/

namespace RowContract

open RowContract.Json

theorem written_map {α : Type} (name : String) (f : α → Json) (setting : Option α) (slots : Slots) :
    written ((name, setting.map f) :: slots) = optionalField name f setting ++ written slots := by
  cases setting <;> rfl

/-! ### Rules for fields -/

theorem readWith_of_ok {α ε : Type} {parse : String → Except ε α} {message : ε → String} {a : α}
    {s : String} (h : parse s = .ok a) : readWith parse message (.string s) = .ok a := by
  have hread : readWith parse message (.string s) =
      (parse s).mapError fun e => .refused (message e) := rfl
  rw [hread, h]
  rfl

theorem textItems?_map (ss : List String) : textItems? (ss.map .string) = some ss := by
  induction ss with
  | nil => rfl
  | cons s rest ih => rw [List.map_cons, textItems?, ih]; rfl

namespace Operation

theorem ofTokens_display {ops : List Operation} (h : ∀ op ∈ ops, op.WellFormed) :
    ofTokens (ops.map display) = .ok ops := by
  have hall : (ops.map display).filter (fun t => !Text.isBlankText t) = ops.map display := by
    rw [List.filter_eq_self]
    exact List.forall_mem_map.mpr fun op _ => by rw [isBlankText_display]; rfl
  rw [ofTokens, hall]
  refine mapM_map_eq_ok fun op hop => ?_
  rw [parse_display (h op hop)]
  rfl

theorem chainOfJson_display {ops : List Operation} (h : ∀ op ∈ ops, op.WellFormed) :
    chainOfJson (.array (ops.map fun op => .string op.display)) = .ok ops := by
  have hitems : ops.map (fun op => Json.string op.display) = (ops.map display).map .string := by
    rw [List.map_map]
    rfl
  rw [hitems, chainOfJson, textItems?_map]
  exact ofTokens_display h

end Operation

namespace FieldMapping

/-- The fields of the JSON form of a rule, in the order of the rules for reading them. -/
def slots (m : FieldMapping) : Slots :=
  [("source_path", some (.string m.sourcePath)),
   ("xml_attribute", m.xmlAttribute.map .string),
   ("target_table", some (.string m.targetTable)),
   ("target_column", some (.string m.targetColumn)),
   ("data_type", some (.string m.dataType.display)),
   ("data_length", m.dataLength.map Json.ofNat),
   ("mapping_type", some (.array (m.chain.map fun op => .string op.display))),
   ("expression", m.expression.map .string),
   ("enum_name", m.enumName.map .string),
   ("default_value", m.defaultValue.map id),
   ("nullable", some (.bool m.nullable)),
   ("required", some (.bool m.required))]

theorem toJson_eq (m : FieldMapping) : m.toJson = .object (written m.slots) := by
  simp only [toJson, slots, written_some, written_map, written_nil, List.append_assoc,
    List.cons_append, List.nil_append]

theorem nodup_slots (m : FieldMapping) : (m.slots.map Prod.fst).Nodup :=
  unambiguous_rules.nodup

theorem schema_toJson {m : FieldMapping} (h : m.WellFormed) : Schema.mapping m.toJson = [] := by
  have hnodup := m.nodup_slots
  rw [toJson_eq]
  simp only [Schema.mapping, Schema.all_eq_nil_iff, List.forall_mem_cons]
  refine ⟨rfl, ?target, ?source, ?path, ?otherPath, ?attributeName, ?table, ?column, ?type, ?length,
    ?chain, ?expression, ?enum, ?nullable, ?required, List.forall_mem_nil _⟩
  case target => exact Schema.required_written hnodup (List.forall_mem_singleton.mpr ⟨_, rfl⟩)
  case source =>
    exact Schema.alternatives_eq_nil List.mem_cons_self
      (Schema.required_written hnodup (List.forall_mem_singleton.mpr ⟨_, rfl⟩))
  case path => exact Schema.property_some hnodup rfl (Schema.path_eq_nil_iff.mpr h.sourcePath)
  case otherPath => exact Schema.property_missing hnodup rfl
  case attributeName =>
    exact Schema.property_map hnodup rfl fun s hs =>
      Schema.name_eq_nil_iff.mpr (h.xmlAttribute s hs)
  case table => exact Schema.property_some hnodup rfl (Schema.name_eq_nil_iff.mpr h.targetTable)
  case column => exact Schema.property_some hnodup rfl rfl
  case type =>
    exact Schema.property_some hnodup rfl (Schema.name_eq_nil_iff.mpr m.dataType.display_ne_empty)
  case length =>
    refine Schema.property_map hnodup rfl fun n hn => ?_
    have hone : 1 ≤ (n : Int) := Int.ofNat_le.mpr (h.dataLength n hn)
    simp only [Schema.all_eq_nil_iff, List.forall_mem_cons]
    exact ⟨rfl, Schema.atLeastOne_eq_nil_iff.mpr hone, List.forall_mem_nil _⟩
  case chain =>
    refine Schema.property_some hnodup rfl (Schema.alternatives_eq_nil
      (List.mem_cons_of_mem _ List.mem_cons_self) ?_)
    simp only [Schema.all_eq_nil_iff, List.forall_mem_cons]
    exact ⟨rfl, Schema.everyItem_map fun _ _ => rfl, List.forall_mem_nil _⟩
  case expression => exact Schema.property_map hnodup rfl fun _ _ => rfl
  case enum => exact Schema.property_map hnodup rfl fun _ _ => rfl
  case nullable => exact Schema.property_some hnodup rfl rfl
  case required => exact Schema.property_some hnodup rfl rfl

theorem ofJson_toJson {m : FieldMapping} (h : m.WellFormed) : ofJson m.toJson = .ok m := by
  have hpath : ReadsAs readText none (some (.string m.sourcePath)) m.sourcePath := rfl
  have hattribute : ReadsAs (readOption readText) (some none) (m.xmlAttribute.map .string)
    m.xmlAttribute := readsAs_map fun _ _ => rfl
  have htable : ReadsAs readText none (some (.string m.targetTable)) m.targetTable := rfl
  have hcolumn : ReadsAs readText (some "") (some (.string m.targetColumn)) m.targetColumn := rfl
  have htype : ReadsAs DataType.ofJson (some (.text none)) (some (.string m.dataType.display))
    m.dataType := readWith_of_ok (DataType.parse_display h.dataType)
  have hlength : ReadsAs (readOption readCount) (some none) (m.dataLength.map Json.ofNat)
    m.dataLength := readsAs_map fun _ _ => rfl
  have hchain : ReadsAs Operation.chainOfJson (some [])
    (some (.array (m.chain.map fun op => .string op.display))) m.chain :=
    Operation.chainOfJson_display h.chain
  have hexpression : ReadsAs (readOption readText) (some none) (m.expression.map .string)
    m.expression := readsAs_map fun _ _ => rfl
  have henum : ReadsAs (readOption readText) (some none) (m.enumName.map .string)
    m.enumName := readsAs_map fun _ _ => rfl
  have hdefault : ReadsAs readPresent (some none) (m.defaultValue.map id) m.defaultValue :=
    readsAs_map fun v hv => readPresent_of_ne_null (h.defaultValue v hv)
  have hnullable : ReadsAs readBool (some true) (some (.bool m.nullable)) m.nullable := rfl
  have hrequired : ReadsAs readBool (some false) (some (.bool m.required)) m.required := rfl
  -- The rule of the path stands for two names, so it is none of the plain needed ones.
  have hsuits : List.Forall₂ Suits rules m.slots :=
    .cons ⟨rfl, hpath.check⟩ <| .cons hattribute.suits_spare <| .cons htable.suits_needed <|
    .cons hcolumn.suits_spare <| .cons htype.suits_spare <| .cons hlength.suits_spare <|
    .cons hchain.suits_spare <| .cons hexpression.suits_spare <| .cons henum.suits_spare <|
    .cons hdefault.suits_spare <| .cons hnullable.suits_spare <| .cons hrequired.suits_spare .nil
  have hnodup := m.nodup_slots
  rw [toJson_eq, ofJson, readStruct_written unambiguous_rules hsuits, ok_bind,
    hpath.require hnodup rfl, ok_bind, hattribute.getOr hnodup rfl, ok_bind,
    htable.require hnodup rfl, ok_bind, hcolumn.getOr hnodup rfl, ok_bind,
    htype.getOr hnodup rfl, ok_bind, hlength.getOr hnodup rfl, ok_bind,
    hchain.getOr hnodup rfl, ok_bind, hexpression.getOr hnodup rfl, ok_bind,
    henum.getOr hnodup rfl, ok_bind, hdefault.getOr hnodup rfl, ok_bind,
    hnullable.getOr hnodup rfl, ok_bind, hrequired.getOr hnodup rfl, ok_bind]
  rfl

end FieldMapping

/-! ### Tables of codes -/

theorem Code.ofJson_toJson {code : Code} (h : code.Fits) : ofJson code.toJson = .ok code := by
  cases code with
  | int n => exact if_pos h
  | bool b => rfl
  | text s => rfl

theorem Code.schema_toJson (code : Code) :
    Schema.kind [.boolean, .integer, .string] code.toJson = [] := by
  cases code <;> rfl

theorem Code.schema_toJson_of_isBit {code : Code} (h : code.IsBit) :
    Schema.kind [.boolean, .integer] code.toJson = [] := by
  cases code with
  | text s => cases h
  | _ => rfl

namespace CodeTable

variable {codes : CodeTable}

theorem readMap_toJson (h : codes.WellFormed) : readMap Code.ofJson codes.toJson = .ok codes :=
  readMap_map h.nodup fun e he => Code.ofJson_toJson (h.fits e he)

theorem schema_toJson (codes : CodeTable) :
    Schema.all [Schema.kind [.object],
      Schema.everyField (Schema.kind [.boolean, .integer, .string])] codes.toJson = [] := by
  simp only [Schema.all_eq_nil_iff, List.forall_mem_cons]
  exact ⟨rfl, Schema.everyField_map fun e _ => e.2.schema_toJson, List.forall_mem_nil _⟩

theorem bitTable_toJson (h : codes.IsBitTable) : Schema.bitTable codes.toJson = [] := by
  simp only [Schema.bitTable, Schema.all_eq_nil_iff, List.forall_mem_cons]
  exact ⟨rfl, Schema.everyField_map fun e he => Code.schema_toJson_of_isBit (h.bits e he),
    List.forall_mem_nil _⟩

end CodeTable

namespace BitConversions

variable {b : BitConversions}

def slots (b : BitConversions) : Slots :=
  [("char_to_bit", some b.charToBit.toJson), ("boolean_to_bit", some b.booleanToBit.toJson)]

theorem nodup_slots (b : BitConversions) : (b.slots.map Prod.fst).Nodup :=
  (by decide : ["char_to_bit", "boolean_to_bit"].Nodup)

theorem ofJson_slots (h : b.WellFormed) : ofJson (.object (written b.slots)) = .ok b := by
  have hchar : ReadsAs (readMap Code.ofJson) (some []) (some b.charToBit.toJson) b.charToBit :=
    CodeTable.readMap_toJson h.charToBit.toWellFormed
  have hboolean : ReadsAs (readMap Code.ofJson) (some []) (some b.booleanToBit.toJson)
    b.booleanToBit := CodeTable.readMap_toJson h.booleanToBit.toWellFormed
  have hnodup := b.nodup_slots
  have hread : readStruct "BitConversions" _ (.object (written b.slots)) = .ok _ :=
    readStruct_written (by decide) <| .cons hchar.suits_spare <| .cons hboolean.suits_spare .nil
  rw [ofJson, hread, ok_bind, hchar.getOr hnodup rfl, ok_bind, hboolean.getOr hnodup rfl, ok_bind]
  rfl

theorem schema_slots (h : b.WellFormed) :
    Schema.all [Schema.kind [.object], Schema.property "char_to_bit" Schema.bitTable,
      Schema.property "boolean_to_bit" Schema.bitTable] (.object (written b.slots)) = [] := by
  have hnodup := b.nodup_slots
  simp only [Schema.all_eq_nil_iff, List.forall_mem_cons]
  exact ⟨rfl, Schema.property_some hnodup rfl (CodeTable.bitTable_toJson h.charToBit),
    Schema.property_some hnodup rfl (CodeTable.bitTable_toJson h.booleanToBit),
    List.forall_mem_nil _⟩

end BitConversions

/-! ### Filters and links -/

theorem Requirement.ofJson_toJson (q : Requirement) : ofJson q.toJson = .ok q := by
  cases q with
  | present b => rfl
  | oneOf allowed => rw [toJson, ofJson, textItems?_map]

theorem Requirement.schema_toJson (q : Requirement) : Schema.requirement q.toJson = [] := by
  cases q with
  | present b => exact Schema.alternatives_eq_nil List.mem_cons_self rfl
  | oneOf allowed =>
      refine Schema.alternatives_eq_nil (List.mem_cons_of_mem _ List.mem_cons_self) ?_
      simp only [Schema.all_eq_nil_iff, List.forall_mem_cons]
      exact ⟨rfl, Schema.everyItem_map fun _ _ => rfl, List.forall_mem_nil _⟩

namespace FilterRule

variable {r : FilterRule}

def slots (r : FilterRule) : Slots :=
  [("element_type", some (.string r.elementType)),
   ("xml_path", some (.string r.xmlPath)),
   ("required_attributes",
     some (.object (r.requiredAttributes.map fun e => (e.1, e.2.toJson)))),
   ("identity_attribute", r.identityAttribute.map .string)]

theorem nodup_slots (r : FilterRule) : (r.slots.map Prod.fst).Nodup :=
  (by decide : ["element_type", "xml_path", "required_attributes", "identity_attribute"].Nodup)

theorem toJson_eq (r : FilterRule) : r.toJson = .object (written r.slots) := by
  simp only [toJson, slots, written_some, written_map, written_nil, List.append_nil,
    List.cons_append, List.nil_append]

theorem ofJson_toJson (h : r.WellFormed) : ofJson r.toJson = .ok r := by
  have htype : ReadsAs readText none (some (.string r.elementType)) r.elementType := rfl
  have hpath : ReadsAs readText none (some (.string r.xmlPath)) r.xmlPath := rfl
  have hattributes : ReadsAs (readMap Requirement.ofJson) (some [])
    (some (.object (r.requiredAttributes.map fun e => (e.1, e.2.toJson)))) r.requiredAttributes :=
    readMap_map h.requiredAttributes fun e _ => e.2.ofJson_toJson
  have hidentity : ReadsAs (readOption readText) (some none) (r.identityAttribute.map .string)
    r.identityAttribute := readsAs_map fun _ _ => rfl
  have hnodup := r.nodup_slots
  have hread : readStruct "FilterRule" _ (.object (written r.slots)) = .ok _ :=
    readStruct_written (by decide) <| .cons htype.suits_needed <| .cons hpath.suits_needed <|
      .cons hattributes.suits_spare <| .cons hidentity.suits_spare .nil
  rw [toJson_eq, ofJson, hread, ok_bind, htype.require hnodup rfl, ok_bind,
    hpath.require hnodup rfl, ok_bind, hattributes.getOr hnodup rfl, ok_bind,
    hidentity.getOr hnodup rfl, ok_bind]
  rfl

theorem schema_toJson (h : r.WellFormed) : Schema.filterRule r.toJson = [] := by
  have hnodup := r.nodup_slots
  rw [toJson_eq]
  simp only [Schema.filterRule, Schema.all_eq_nil_iff, List.forall_mem_cons]
  refine ⟨rfl, ?names, ?type, ?path, ?attributes, ?identity, List.forall_mem_nil _⟩
  case names =>
    refine Schema.required_written hnodup ?_
    simp only [List.forall_mem_cons]
    exact ⟨⟨_, rfl⟩, ⟨_, rfl⟩, List.forall_mem_nil _⟩
  case type => exact Schema.property_some hnodup rfl (Schema.name_eq_nil_iff.mpr h.elementType)
  case path => exact Schema.property_some hnodup rfl (Schema.path_eq_nil_iff.mpr h.xmlPath)
  case attributes =>
    refine Schema.property_some hnodup rfl ?_
    simp only [Schema.all_eq_nil_iff, List.forall_mem_cons]
    exact ⟨rfl, Schema.everyField_map fun e _ => e.2.schema_toJson, List.forall_mem_nil _⟩
  case identity => exact Schema.property_map hnodup rfl fun _ _ => rfl

end FilterRule

namespace ContactRoles

variable {roles : ContactRoles}

def slots (roles : ContactRoles) : Slots :=
  [("contact_path", some (.string roles.contactPath)),
   ("role_attribute", some (.string roles.roleAttribute)),
   ("primary", some (.string roles.primary)),
   ("secondary", some (.string roles.secondary))]

theorem nodup_slots (roles : ContactRoles) : (roles.slots.map Prod.fst).Nodup :=
  (by decide : ["contact_path", "role_attribute", "primary", "secondary"].Nodup)

theorem toJson_eq (roles : ContactRoles) : roles.toJson = .object (written roles.slots) := rfl

theorem ofJson_toJson (roles : ContactRoles) : ofJson roles.toJson = .ok roles := by
  have hpath : ReadsAs readText (some ({} : ContactRoles).contactPath)
    (some (.string roles.contactPath)) roles.contactPath := rfl
  have hattribute : ReadsAs readText (some ({} : ContactRoles).roleAttribute)
    (some (.string roles.roleAttribute)) roles.roleAttribute := rfl
  have hprimary : ReadsAs readText (some ({} : ContactRoles).primary)
    (some (.string roles.primary)) roles.primary := rfl
  have hsecondary : ReadsAs readText (some ({} : ContactRoles).secondary)
    (some (.string roles.secondary)) roles.secondary := rfl
  have hnodup := roles.nodup_slots
  have hread : readStruct "ContactRoles" _ (.object (written roles.slots)) = .ok _ :=
    readStruct_written (by decide) <| .cons hpath.suits_spare <| .cons hattribute.suits_spare <|
      .cons hprimary.suits_spare <| .cons hsecondary.suits_spare .nil
  rw [toJson_eq, ofJson, hread, ok_bind, hpath.getOr hnodup rfl, ok_bind,
    hattribute.getOr hnodup rfl, ok_bind, hprimary.getOr hnodup rfl, ok_bind,
    hsecondary.getOr hnodup rfl, ok_bind]
  rfl

theorem schema_toJson (h : IsPath roles.contactPath) : Schema.contactRoles roles.toJson = [] := by
  have hnodup := roles.nodup_slots
  rw [toJson_eq]
  simp only [Schema.contactRoles, Schema.all_eq_nil_iff, List.forall_mem_cons]
  exact ⟨rfl, Schema.property_some hnodup rfl (Schema.path_eq_nil_iff.mpr h),
    Schema.property_some hnodup rfl rfl, Schema.property_some hnodup rfl rfl,
    Schema.property_some hnodup rfl rfl, List.forall_mem_nil _⟩

end ContactRoles

namespace ElementFiltering

variable {f : ElementFiltering}

def slots (f : ElementFiltering) : Slots :=
  [("filter_rules", some (.array (f.filterRules.map FilterRule.toJson))),
   ("contact_roles", some f.contactRoles.toJson)]

theorem nodup_slots (f : ElementFiltering) : (f.slots.map Prod.fst).Nodup :=
  (by decide : ["filter_rules", "contact_roles"].Nodup)

theorem ofJson_slots (h : f.WellFormed) : ofJson (.object (written f.slots)) = .ok f := by
  have hrules : ReadsAs (readList FilterRule.ofJson) (some [])
    (some (.array (f.filterRules.map FilterRule.toJson))) f.filterRules :=
    readList_map fun r hr => FilterRule.ofJson_toJson (h.filterRules r hr)
  have hroles : ReadsAs ContactRoles.ofJson (some {}) (some f.contactRoles.toJson)
    f.contactRoles := f.contactRoles.ofJson_toJson
  have hnodup := f.nodup_slots
  have hread : readStruct "ElementFiltering" _ (.object (written f.slots)) = .ok _ :=
    readStruct_written (by decide) <| .cons hrules.suits_spare <| .cons hroles.suits_spare .nil
  rw [ofJson, hread, ok_bind, hrules.getOr hnodup rfl, ok_bind, hroles.getOr hnodup rfl, ok_bind]
  rfl

theorem schema_slots (h : f.WellFormed) :
    Schema.elementFiltering (.object (written f.slots)) = [] := by
  have hnodup := f.nodup_slots
  simp only [Schema.elementFiltering, Schema.all_eq_nil_iff, List.forall_mem_cons]
  refine ⟨rfl, Schema.property_some hnodup rfl ?_,
    Schema.property_some hnodup rfl (ContactRoles.schema_toJson h.contactPath),
    List.forall_mem_nil _⟩
  exact Schema.list_map fun r hr => FilterRule.schema_toJson (h.filterRules r hr)

end ElementFiltering

namespace Relationship

variable {r : Relationship}

def slots (r : Relationship) : Slots :=
  [("parent_table", some (.string r.parentTable)),
   ("child_table", some (.string r.childTable)),
   ("foreign_key_column", some (.string r.foreignKeyColumn)),
   ("parent_key_column", r.parentKeyColumn.map .string)]

theorem nodup_slots (r : Relationship) : (r.slots.map Prod.fst).Nodup :=
  (by decide : ["parent_table", "child_table", "foreign_key_column", "parent_key_column"].Nodup)

theorem toJson_eq (r : Relationship) : r.toJson = .object (written r.slots) := by
  simp only [toJson, slots, written_some, written_map, written_nil, List.append_nil,
    List.cons_append, List.nil_append]

theorem ofJson_toJson (r : Relationship) : ofJson r.toJson = .ok r := by
  have hparent : ReadsAs readText none (some (.string r.parentTable)) r.parentTable := rfl
  have hchild : ReadsAs readText none (some (.string r.childTable)) r.childTable := rfl
  have hcolumn : ReadsAs readText none (some (.string r.foreignKeyColumn)) r.foreignKeyColumn := rfl
  have hkey : ReadsAs (readOption readText) (some none) (r.parentKeyColumn.map .string)
    r.parentKeyColumn := readsAs_map fun _ _ => rfl
  have hnodup := r.nodup_slots
  have hread : readStruct "Relationship" _ (.object (written r.slots)) = .ok _ :=
    readStruct_written (by decide) <| .cons hparent.suits_needed <| .cons hchild.suits_needed <|
      .cons hcolumn.suits_needed <| .cons hkey.suits_spare .nil
  rw [toJson_eq, ofJson, hread, ok_bind, hparent.require hnodup rfl, ok_bind,
    hchild.require hnodup rfl, ok_bind, hcolumn.require hnodup rfl, ok_bind,
    hkey.getOr hnodup rfl, ok_bind]
  rfl

theorem schema_toJson (h : r.WellFormed) : Schema.relationship r.toJson = [] := by
  have hnodup := r.nodup_slots
  rw [toJson_eq]
  simp only [Schema.relationship, Schema.all_eq_nil_iff, List.forall_mem_cons]
  refine ⟨rfl, ?names, ?parent, ?child, ?column, ?key, List.forall_mem_nil _⟩
  case names =>
    refine Schema.required_written hnodup ?_
    simp only [List.forall_mem_cons]
    exact ⟨⟨_, rfl⟩, ⟨_, rfl⟩, ⟨_, rfl⟩, List.forall_mem_nil _⟩
  case parent => exact Schema.property_some hnodup rfl (Schema.name_eq_nil_iff.mpr h.parentTable)
  case child => exact Schema.property_some hnodup rfl (Schema.name_eq_nil_iff.mpr h.childTable)
  case column =>
    exact Schema.property_some hnodup rfl (Schema.name_eq_nil_iff.mpr h.foreignKeyColumn)
  case key => exact Schema.property_map hnodup rfl fun _ _ => rfl

end Relationship

/-! ### Contracts -/

namespace Contract

variable {c : Contract}

def slots (c : Contract) : Slots :=
  [("source_table", some (.string c.sourceTable)),
   ("source_column", some (.string c.sourceColumn)),
   ("xml_root_element", some (.string c.xmlRootElement)),
   ("target_schema", some (.string c.targetSchema)),
   ("table_insertion_order", some (.array (c.tableInsertionOrder.map .string))),
   ("element_filtering", some (.object (written c.elementFiltering.slots))),
   ("relationships", some (.array (c.relationships.map Relationship.toJson))),
   ("enum_mappings", some (.object (c.enumMappings.map fun e => (e.1, CodeTable.toJson e.2)))),
   ("bit_conversions", some (.object (written c.bitConversions.slots))),
   ("mappings", some (.array (c.mappings.map FieldMapping.toJson)))]

theorem nodup_slots (c : Contract) : (c.slots.map Prod.fst).Nodup := unambiguous_rules.nodup

theorem toJson_eq (c : Contract) : c.toJson = .object (written c.slots) := rfl

/-- All that is written is read; expressions are not written. -/
theorem ofJson_toJson (h : c.WellFormed) : ofJson c.toJson = .ok { c with expressions := [] } := by
  have htable : ReadsAs readText (some "") (some (.string c.sourceTable)) c.sourceTable := rfl
  have hcolumn : ReadsAs readText (some "") (some (.string c.sourceColumn)) c.sourceColumn := rfl
  have hroot : ReadsAs readText (some "") (some (.string c.xmlRootElement)) c.xmlRootElement := rfl
  have htarget : ReadsAs readText (some "dbo") (some (.string c.targetSchema)) c.targetSchema := rfl
  have horder : ReadsAs (readList readText) (some [])
    (some (.array (c.tableInsertionOrder.map .string))) c.tableInsertionOrder :=
    readList_map fun _ _ => rfl
  have hfiltering : ReadsAs ElementFiltering.ofJson (some {})
    (some (.object (written c.elementFiltering.slots))) c.elementFiltering :=
    ElementFiltering.ofJson_slots h.elementFiltering
  have hlinks : ReadsAs (readList Relationship.ofJson) (some [])
    (some (.array (c.relationships.map Relationship.toJson))) c.relationships :=
    readList_map fun r _ => r.ofJson_toJson
  have henums : ReadsAs (readMap (readMap Code.ofJson)) (some [])
    (some (.object (c.enumMappings.map fun e => (e.1, CodeTable.toJson e.2)))) c.enumMappings :=
    readMap_map h.enumNodup fun e he => CodeTable.readMap_toJson (h.enumTables e he)
  have hbits : ReadsAs BitConversions.ofJson (some {})
    (some (.object (written c.bitConversions.slots))) c.bitConversions :=
    BitConversions.ofJson_slots h.bitConversions
  have hmappings : ReadsAs (readList FieldMapping.ofJson) none
    (some (.array (c.mappings.map FieldMapping.toJson))) c.mappings :=
    readList_map fun m hm => FieldMapping.ofJson_toJson (h.mappings m hm)
  have hread : readStruct "MappingContract" rules (.object (written c.slots)) = .ok _ :=
    readStruct_written unambiguous_rules <| .cons htable.suits_spare <| .cons hcolumn.suits_spare <|
      .cons hroot.suits_spare <| .cons htarget.suits_spare <| .cons horder.suits_spare <|
      .cons hfiltering.suits_spare <| .cons hlinks.suits_spare <| .cons henums.suits_spare <|
      .cons hbits.suits_spare <| .cons hmappings.suits_needed .nil
  have hnodup := c.nodup_slots
  rw [toJson_eq, ofJson, hread, ok_bind, htable.getOr hnodup rfl, ok_bind,
    hcolumn.getOr hnodup rfl, ok_bind, hroot.getOr hnodup rfl, ok_bind,
    htarget.getOr hnodup rfl, ok_bind, horder.getOr hnodup rfl, ok_bind,
    hfiltering.getOr hnodup rfl, ok_bind, hlinks.getOr hnodup rfl, ok_bind,
    henums.getOr hnodup rfl, ok_bind, hbits.getOr hnodup rfl, ok_bind,
    hmappings.require hnodup rfl, ok_bind]
  rfl

theorem schema_toJson (h : c.WellFormed) : Schema.contract c.toJson = [] := by
  have hnodup := c.nodup_slots
  rw [toJson_eq]
  simp only [Schema.contract, Schema.all_eq_nil_iff, List.forall_mem_cons]
  refine ⟨rfl, ?names, Schema.property_some hnodup rfl rfl, Schema.property_some hnodup rfl rfl,
    Schema.property_some hnodup rfl rfl, ?target, ?order, ?filtering, ?links, ?enums, ?bits,
    ?mappings, List.forall_mem_nil _⟩
  case names => exact Schema.required_written hnodup (List.forall_mem_singleton.mpr ⟨_, rfl⟩)
  case target =>
    exact Schema.property_some hnodup rfl (Schema.schemaName_eq_nil_iff.mpr h.targetSchema)
  case order =>
    refine Schema.property_some hnodup rfl ?_
    simp only [Schema.all_eq_nil_iff, List.forall_mem_cons]
    exact ⟨rfl, Schema.everyItem_map fun table htable =>
      Schema.name_eq_nil_iff.mpr (h.orderNames table htable),
      Schema.unique_eq_nil_iff.mpr h.orderNodup, List.forall_mem_nil _⟩
  case filtering =>
    exact Schema.property_some hnodup rfl (ElementFiltering.schema_slots h.elementFiltering)
  case links =>
    exact Schema.property_some hnodup rfl <| Schema.list_map fun r hr =>
      Relationship.schema_toJson (h.relationships r hr)
  case enums =>
    refine Schema.property_some hnodup rfl ?_
    simp only [Schema.all_eq_nil_iff, List.forall_mem_cons]
    exact ⟨rfl, Schema.everyField_map fun e _ => CodeTable.schema_toJson e.2,
      List.forall_mem_nil _⟩
  case bits => exact Schema.property_some hnodup rfl (BitConversions.schema_slots h.bitConversions)
  case mappings =>
    exact Schema.property_some hnodup rfl <| Schema.list_map fun m hm =>
      FieldMapping.schema_toJson (h.mappings m hm)

/-- A contract that passes its checks and whose expressions are compiled is what becomes of it
without them. -/
theorem prepare_of_compileAll (hcheck : c.check = .ok ())
    (hcompile : compileAll [] c.mappings = .ok c.expressions) :
    ({ c with expressions := [] } : Contract).prepare = .ok c := by
  have hprepare : ({ c with expressions := [] } : Contract).prepare =
      c.check >>= fun _ => compileAll [] c.mappings >>= fun expressions =>
        .ok { c with expressions := expressions } := rfl
  rw [hprepare, hcheck, ok_bind, hcompile, ok_bind]

/-- A contract that might be accepted is accepted as it is written. -/
theorem ofDocument_of_wellFormed (h : c.WellFormed) (hcheck : c.check = .ok ())
    (hcompile : compileAll [] c.mappings = .ok c.expressions) :
    ofDocument c.toJson = .ok c := by
  rw [ofDocument, schema_toJson h, ofJson_toJson h]
  exact prepare_of_compileAll hcheck hcompile

/-- An accepted contract is accepted again as it is written, and nothing of it changes.  Where the
entries of its tables are written in another order, that is the order in which they are read; and
every text of what is written will do. -/
theorem ofDocument_toJson {document : Json} (h : ofDocument document = .ok c) :
    ofDocument c.toJson = .ok c ∧
      ∀ c', c.Reordered c' → ofDocument c'.toJson = .ok c' ∧
        ∀ text, Json.parse? text = some c'.toJson → ofText text = .ok c' := by
  obtain ⟨read, -, -, hprepare⟩ := prepare_of_ofDocument h
  obtain ⟨hcheck, hcompile, hc⟩ := prepare_eq_ok hprepare
  have hcheck : c.check = .ok () := by rw [hc]; exact hcheck
  have hmappings : c.mappings = read.mappings := by rw [hc]
  have hwritten : ∀ c', c.Reordered c' → ofDocument c'.toJson = .ok c' := by
    intro c' hc'
    -- Neither the checks nor the compilation look at what the order can change.
    have hwell := (wellFormed_of_ofDocument h).reordered hc'
    have hcompile : compileAll [] c'.mappings = .ok c'.expressions := by
      rw [hc'.mappings_eq, hmappings, hc'.expressions_eq, hcompile]
    have hcheck : c'.check = .ok () := by rw [hc'.check_eq, hcheck]
    exact ofDocument_of_wellFormed hwell hcheck hcompile
  refine ⟨hwritten c (.refl c), fun c' hc' => ⟨hwritten c' hc', fun text htext => ?_⟩⟩
  rw [ofText, htext]
  exact hwritten c' hc'

def parseChars? (cs : List Char) : Option Json :=
  match take (2 * cs.length + 2) maxDepth cs with
  | (v, some rest) => if (skipSpace rest).isEmpty then v.toJson? else none
  | (_, none) => none

theorem parse?_ofList (cs : List Char) : Json.parse? (String.ofList cs) = parseChars? cs := by
  unfold Json.parse? sourceOf parseChars?
  rw [String.toList_ofList]
  dsimp only
  cases take (2 * cs.length + 2) maxDepth cs with
  | mk v rest =>
      cases rest with
      | none => rfl
      | some r =>
          dsimp only [Option.any_some]
          cases (skipSpace r).isEmpty <;> rfl

/-- The contract of a flag: its path stands under the other name of the field, its chain is one
text, and its type has blanks and capitals. -/
def flagged : Json :=
  .object
    [("bit_conversions", .object
      [("char_to_bit", .object [("Y", .number (.integer 1)), ("N", .number (.integer 0))])]),
     ("mappings", .array
       [.object [("xml_path", .string "/app/@flag"), ("target_table", .string "app_base"),
          ("target_column", .string "flag"), ("data_type", .string " Numeric ( 3 )"),
          ("mapping_type", .string "char_to_bit, numbers_only"),
          ("expression", .string " value ")]])]

/-- The text of the contract of a flag, with its table of characters the other way round. -/
def flaggedText : List Char :=
  ["\x7b\"source_table\":\"\",\"source_column\":\"\",",
   "\"xml_root_element\":\"\",\"target_schema\":\"dbo\",",
   "\"table_insertion_order\":[],\"element_filtering\":\x7b",
   "\"filter_rules\":[],\"contact_roles\":\x7b\"contact_path\":",
   "\"/Provenir/Request/CustData/application/contact\",",
   "\"role_attribute\":\"ac_role_tp_c\",\"primary\":\"PR\",",
   "\"secondary\":\"AUTHU\"\x7d\x7d,\"relationships\":[],",
   "\"enum_mappings\":\x7b\x7d,\"bit_conversions\":\x7b",
   "\"char_to_bit\":\x7b\"N\":0,\"Y\":1\x7d,\"boolean_to_bit\":\x7b\x7d\x7d,",
   "\"mappings\":[\x7b\"source_path\":\"/app/@flag\",",
   "\"target_table\":\"app_base\",\"target_column\":\"flag\",",
   "\"data_type\":\"decimal(3,0)\",\"mapping_type\":",
   "[\"char_to_bit\",\"extract_numeric\"],\"expression\":",
   "\" value \",\"nullable\":true,\"required\":false\x7d]\x7d"].flatMap String.toList

def reverseFlags (c : Contract) : Contract :=
  { c with bitConversions :=
    { c.bitConversions with charToBit := c.bitConversions.charToBit.reverse } }

theorem reordered_reverseFlags (c : Contract) : c.Reordered c.reverseFlags :=
  { Reordered.refl c with charToBit := (List.reverse_perm _).symm, rest := rfl }

theorem flagged_ofDocument_toJson :
    ∃ c, ofDocument flagged = .ok c ∧ ofDocument c.toJson = .ok c ∧
      ∃ c', c.Reordered c' ∧ c'.bitConversions.charToBit.names = ["N", "Y"] ∧
        Json.parse? (String.ofList flaggedText) = some c'.toJson ∧
        ofDocument c'.toJson = .ok c' ∧ ofText (String.ofList flaggedText) = .ok c' := by
  have hrun : ((ofDocument flagged).toOption.any fun c =>
      decide (c.reverseFlags.bitConversions.charToBit.names = ["N", "Y"]) &&
        (parseChars? flaggedText).any fun v =>
          Json.sameBy JsonNumber.sameInteger v c.reverseFlags.toJson) = true := by
    decide +kernel
  obtain ⟨c, hc, hrun⟩ := any_toOption_iff.mp hrun
  rw [Bool.and_eq_true] at hrun
  obtain ⟨hnames, hsame⟩ := hrun
  obtain ⟨v, hv, hsame⟩ := (Option.any_eq_true _ _).mp hsame
  have heq := Json.eq_of_sameBy JsonNumber.eq_of_sameInteger _ _ hsame
  have hparse : Json.parse? (String.ofList flaggedText) = some c.reverseFlags.toJson := by
    rw [parse?_ofList, hv, heq]
  obtain ⟨hagain, hwritten⟩ := ofDocument_toJson hc
  obtain ⟨hdocument, htext⟩ := hwritten _ c.reordered_reverseFlags
  exact ⟨c, hc, hagain, _, c.reordered_reverseFlags, of_decide_eq_true hnames, hparse, hdocument,
    htext _ hparse⟩

end Contract

end RowContract
