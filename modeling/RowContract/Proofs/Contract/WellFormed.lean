import RowContract.Contract.Reading
import RowContract.Proofs.Contract.Operation
import RowContract.Proofs.Contract.Schema
import RowContract.Proofs.Contract.TypeText

/-!
Well-formed contracts.  A document that passes the schema and can be read gives a contract whose
paths begin with a slash, whose tables and columns have names where they need them, whose tables of
codes have different words, and whose operations and types are those that some text names.
-/

namespace RowContract

open RowContract.Json

def IsPath (s : String) : Prop := s.toList.head? = some '/'

instance (s : String) : Decidable (IsPath s) :=
  inferInstanceAs (Decidable (s.toList.head? = some '/'))

/-- What a reader can give back for a rule. -/
structure FieldMapping.WellFormed (m : FieldMapping) : Prop where
  sourcePath : IsPath m.sourcePath
  xmlAttribute : ∀ name ∈ m.xmlAttribute, name ≠ ""
  targetTable : m.targetTable ≠ ""
  dataType : m.dataType.WellFormed
  dataLength : ∀ n ∈ m.dataLength, 1 ≤ n
  chain : ∀ op ∈ m.chain, op.WellFormed
  defaultValue : ∀ v ∈ m.defaultValue, v ≠ .null

def Code.Fits : Code → Prop
  | .int n => Text.fitsSigned n = true
  | _ => True

def Code.IsBit : Code → Prop
  | .text _ => False
  | _ => True

structure CodeTable.WellFormed (codes : CodeTable) : Prop where
  nodup : codes.names.Nodup
  fits : ∀ e ∈ codes, e.2.Fits

structure CodeTable.IsBitTable (codes : CodeTable) : Prop extends codes.WellFormed where
  bits : ∀ e ∈ codes, e.2.IsBit

structure BitConversions.WellFormed (b : BitConversions) : Prop where
  charToBit : b.charToBit.IsBitTable
  booleanToBit : b.booleanToBit.IsBitTable

structure FilterRule.WellFormed (r : FilterRule) : Prop where
  elementType : r.elementType ≠ ""
  xmlPath : IsPath r.xmlPath
  requiredAttributes : r.requiredAttributes.names.Nodup

structure ElementFiltering.WellFormed (f : ElementFiltering) : Prop where
  filterRules : ∀ r ∈ f.filterRules, r.WellFormed
  contactPath : IsPath f.contactRoles.contactPath

structure Relationship.WellFormed (r : Relationship) : Prop where
  parentTable : r.parentTable ≠ ""
  childTable : r.childTable ≠ ""
  foreignKeyColumn : r.foreignKeyColumn ≠ ""

structure Contract.WellFormed (c : Contract) : Prop where
  targetSchema : Schema.isIdentifier c.targetSchema.toList = true
  orderNames : ∀ table ∈ c.tableInsertionOrder, table ≠ ""
  orderNodup : c.tableInsertionOrder.Nodup
  elementFiltering : c.elementFiltering.WellFormed
  relationships : ∀ r ∈ c.relationships, r.WellFormed
  enumNodup : c.enumMappings.names.Nodup
  enumTables : ∀ e ∈ c.enumMappings, CodeTable.WellFormed e.2
  bitConversions : c.bitConversions.WellFormed
  mappings : ∀ m ∈ c.mappings, m.WellFormed

/-! ### Rules for fields -/

variable {v : Json}

theorem readWith_eq_ok {α ε : Type} {parse : String → Except ε α} {message : ε → String} {a : α}
    (h : readWith parse message v = .ok a) : ∃ s, v = .string s ∧ parse s = .ok a := by
  obtain ⟨s, hs, h⟩ := bind_eq_ok h
  exact ⟨s, readText_eq_ok hs, mapError_eq_ok h⟩

theorem Operation.wellFormed_of_ofTokens {tokens : List String} {ops : List Operation}
    (h : ofTokens tokens = .ok ops) : ∀ op ∈ ops, op.WellFormed := by
  intro op hop
  obtain ⟨token, -, hparse⟩ := mapM_eq_ok h op hop
  exact wellFormed_of_parse (mapError_eq_ok hparse)

theorem Operation.wellFormed_of_chainOfJson {ops : List Operation}
    (h : chainOfJson v = .ok ops) : ∀ op ∈ ops, op.WellFormed := by
  unfold chainOfJson at h
  split at h
  · obtain rfl := Except.ok.inj h
    exact List.forall_mem_nil _
  · exact wellFormed_of_ofTokens h
  · split at h
    · exact wellFormed_of_ofTokens h
    · cases h
  · cases h

theorem ne_null_of_readPresent {setting : Option Json} (h : readPresent v = .ok setting) :
    ∀ w ∈ setting, w ≠ .null := by
  unfold readPresent at h
  split at h
  · obtain rfl := Except.ok.inj h
    exact nofun
  next hv =>
    obtain rfl := Except.ok.inj h
    intro w hw
    obtain rfl := Option.some.inj hw
    exact hv

theorem readPresent_of_ne_null (h : v ≠ .null) : readPresent v = .ok (some v) := by
  cases v with
  | null => exact absurd rfl h
  | _ => rfl

theorem FieldMapping.unambiguous_rules : Unambiguous rules := by decide

/-- A path may be written under either of two names, and is checked under both. -/
theorem FieldMapping.isPath_of_require {structName : String} {fields fs : Fields Json}
    {source : String} (hfs : readStruct structName rules (.object fields) = .ok fs)
    (hpath : Schema.property "source_path" Schema.path (.object fields) = [])
    (hother : Schema.property "xml_path" Schema.path (.object fields) = [])
    (hread : require fs "source_path" readText = .ok source) : IsPath source := by
  obtain ⟨w, hw, htext⟩ := require_eq_ok hread
  obtain rfl := readText_eq_ok htext
  obtain ⟨written, hwritten, hget⟩ :=
    unambiguous_rules.exists_get?_of_readStruct List.mem_cons_self hfs hw
  rcases hwritten with rfl | hwritten
  · exact Schema.path_eq_nil_iff.mp (Schema.check_of_property hpath hget)
  · obtain rfl := Option.some.inj hwritten
    exact Schema.path_eq_nil_iff.mp (Schema.check_of_property hother hget)

theorem FieldMapping.wellFormed_of_ofJson {m : FieldMapping} (hschema : Schema.mapping v = [])
    (h : ofJson v = .ok m) : m.WellFormed := by
  simp only [Schema.mapping, Schema.all_eq_nil_iff, List.forall_mem_cons] at hschema
  obtain ⟨hkind, -, -, hpath, hother, hattribute, htable, -, -, hlength, -⟩ := hschema
  obtain ⟨fields, rfl⟩ := Schema.exists_fields_of_kind hkind
  obtain ⟨fs, hfs, h⟩ := bind_eq_ok h
  obtain ⟨source, hsourceRead, h⟩ := bind_eq_ok h
  obtain ⟨attributeName, hattributeRead, h⟩ := bind_eq_ok h
  obtain ⟨table, htableRead, h⟩ := bind_eq_ok h
  obtain ⟨column, -, h⟩ := bind_eq_ok h
  obtain ⟨type, htypeRead, h⟩ := bind_eq_ok h
  obtain ⟨length, hlengthRead, h⟩ := bind_eq_ok h
  obtain ⟨chain, hchainRead, h⟩ := bind_eq_ok h
  obtain ⟨expression, -, h⟩ := bind_eq_ok h
  obtain ⟨enumName, -, h⟩ := bind_eq_ok h
  obtain ⟨default, hdefaultRead, h⟩ := bind_eq_ok h
  obtain ⟨nullable, -, h⟩ := bind_eq_ok h
  obtain ⟨required, -, h⟩ := bind_eq_ok h
  obtain rfl := Except.ok.inj h
  exact {
    sourcePath := isPath_of_require hfs hpath hother hsourceRead
    xmlAttribute := by
      intro name hname
      rcases Schema.check_of_getOr unambiguous_rules (by decide) hfs hattribute hattributeRead with
        rfl | ⟨w, hw, hread⟩
      · cases hname
      · obtain rfl := readText_eq_ok (readOption_eq_ok hread name hname)
        exact Schema.name_eq_nil_iff.mp hw
    targetTable :=
      Schema.ne_empty_of_require unambiguous_rules (by decide) hfs htable htableRead
    dataType := by
      rcases getOr_eq_ok htypeRead with rfl | ⟨w, -, hread⟩
      · trivial
      · obtain ⟨s, -, hparse⟩ := readWith_eq_ok hread
        exact DataType.wellFormed_of_parse hparse
    dataLength := by
      intro n hn
      rcases Schema.check_of_getOr unambiguous_rules (by decide) hfs hlength hlengthRead with
        rfl | ⟨w, hw, hread⟩
      · cases hn
      · obtain rfl := readCount_eq_ok (readOption_eq_ok hread n hn)
        have hcheck := Schema.all_eq_nil_iff.mp hw Schema.atLeastOne (by simp)
        exact Int.ofNat_le.mp (Schema.atLeastOne_eq_nil_iff.mp hcheck)
    chain := by
      rcases getOr_eq_ok hchainRead with rfl | ⟨w, -, hread⟩
      · exact List.forall_mem_nil _
      · exact Operation.wellFormed_of_chainOfJson hread
    defaultValue := by
      rcases getOr_eq_ok hdefaultRead with rfl | ⟨w, -, hread⟩
      · exact nofun
      · exact ne_null_of_readPresent hread }

/-! ### Tables of codes -/

theorem Code.fits_of_ofJson {code : Code} (h : ofJson v = .ok code) : code.Fits := by
  unfold ofJson at h
  split at h
  · split at h
    next hfits =>
      obtain rfl := Except.ok.inj h
      exact hfits
    next => cases h
  · obtain rfl := Except.ok.inj h
    trivial
  · obtain rfl := Except.ok.inj h
    trivial
  · cases h

theorem Code.isBit_of_ofJson {code : Code} (hkind : Schema.kind [.boolean, .integer] v = [])
    (h : ofJson v = .ok code) : code.IsBit := by
  unfold ofJson at h
  split at h
  · split at h
    next =>
      obtain rfl := Except.ok.inj h
      trivial
    next => cases h
  · obtain rfl := Except.ok.inj h
    trivial
  · cases hkind
  · cases h

theorem CodeTable.wellFormed_of_readMap {codes : CodeTable}
    (h : readMap Code.ofJson v = .ok codes) : codes.WellFormed := by
  obtain ⟨hnodup, fields, rfl, hread⟩ := readMap_eq_ok h
  refine ⟨hnodup, fun e he => ?_⟩
  obtain ⟨w, -, hw⟩ := hread e he
  exact Code.fits_of_ofJson hw

theorem CodeTable.isBitTable_of_readMap {codes : CodeTable} (hschema : Schema.bitTable v = [])
    (h : readMap Code.ofJson v = .ok codes) : codes.IsBitTable := by
  refine ⟨wellFormed_of_readMap h, fun e he => ?_⟩
  obtain ⟨-, fields, rfl, hread⟩ := readMap_eq_ok h
  obtain ⟨w, hw, hcode⟩ := hread e he
  have hfields := Schema.all_eq_nil_iff.mp hschema
    (Schema.everyField (Schema.kind [.boolean, .integer])) (by simp)
  exact Code.isBit_of_ofJson (Schema.everyField_eq_nil_iff.mp hfields _ hw) hcode

theorem CodeTable.isBitTable_nil : CodeTable.IsBitTable [] :=
  ⟨⟨List.nodup_nil, List.forall_mem_nil _⟩, List.forall_mem_nil _⟩

theorem BitConversions.wellFormed_of_ofJson {b : BitConversions}
    (hschema : Schema.all [Schema.kind [.object], Schema.property "char_to_bit" Schema.bitTable,
      Schema.property "boolean_to_bit" Schema.bitTable] v = [])
    (h : ofJson v = .ok b) : b.WellFormed := by
  simp only [Schema.all_eq_nil_iff, List.forall_mem_cons] at hschema
  obtain ⟨hkind, hchar, hboolean, -⟩ := hschema
  obtain ⟨fields, rfl⟩ := Schema.exists_fields_of_kind hkind
  obtain ⟨fs, hfs, h⟩ := bind_eq_ok h
  obtain ⟨charToBit, hcharRead, h⟩ := bind_eq_ok h
  obtain ⟨booleanToBit, hbooleanRead, h⟩ := bind_eq_ok h
  obtain rfl := Except.ok.inj h
  constructor
  · rcases Schema.check_of_getOr (by decide) (by decide) hfs hchar hcharRead with
      rfl | ⟨w, hw, hread⟩
    · exact CodeTable.isBitTable_nil
    · exact CodeTable.isBitTable_of_readMap hw hread
  · rcases Schema.check_of_getOr (by decide) (by decide) hfs hboolean hbooleanRead with
      rfl | ⟨w, hw, hread⟩
    · exact CodeTable.isBitTable_nil
    · exact CodeTable.isBitTable_of_readMap hw hread

/-! ### Filters and links -/

theorem FilterRule.wellFormed_of_ofJson {r : FilterRule} (hschema : Schema.filterRule v = [])
    (h : ofJson v = .ok r) : r.WellFormed := by
  simp only [Schema.filterRule, Schema.all_eq_nil_iff, List.forall_mem_cons] at hschema
  obtain ⟨hkind, -, htype, hpath, -⟩ := hschema
  obtain ⟨fields, rfl⟩ := Schema.exists_fields_of_kind hkind
  obtain ⟨fs, hfs, h⟩ := bind_eq_ok h
  obtain ⟨type, htypeRead, h⟩ := bind_eq_ok h
  obtain ⟨path, hpathRead, h⟩ := bind_eq_ok h
  obtain ⟨attributes, hattributesRead, h⟩ := bind_eq_ok h
  obtain ⟨identity, -, h⟩ := bind_eq_ok h
  obtain rfl := Except.ok.inj h
  constructor
  · exact Schema.ne_empty_of_require (by decide) (by decide) hfs htype htypeRead
  · obtain ⟨w, hw, hread⟩ := Schema.check_of_require (by decide) (by decide) hfs hpath hpathRead
    obtain rfl := readText_eq_ok hread
    exact Schema.path_eq_nil_iff.mp hw
  · rcases getOr_eq_ok hattributesRead with rfl | ⟨w, -, hread⟩
    · exact List.nodup_nil
    · exact (readMap_eq_ok hread).1

theorem ContactRoles.isPath_default : IsPath ({} : ContactRoles).contactPath := by decide

theorem ContactRoles.isPath_of_ofJson {roles : ContactRoles}
    (hschema : Schema.contactRoles v = []) (h : ofJson v = .ok roles) :
    IsPath roles.contactPath := by
  simp only [Schema.contactRoles, Schema.all_eq_nil_iff, List.forall_mem_cons] at hschema
  obtain ⟨hkind, hpath, -⟩ := hschema
  obtain ⟨fields, rfl⟩ := Schema.exists_fields_of_kind hkind
  obtain ⟨fs, hfs, h⟩ := bind_eq_ok h
  obtain ⟨path, hpathRead, h⟩ := bind_eq_ok h
  obtain ⟨attributeName, -, h⟩ := bind_eq_ok h
  obtain ⟨primary, -, h⟩ := bind_eq_ok h
  obtain ⟨secondary, -, h⟩ := bind_eq_ok h
  obtain rfl := Except.ok.inj h
  rcases Schema.check_of_getOr (by decide) (by decide) hfs hpath hpathRead with
    rfl | ⟨w, hw, hread⟩
  · exact ContactRoles.isPath_default
  · obtain rfl := readText_eq_ok hread
    exact Schema.path_eq_nil_iff.mp hw

theorem ElementFiltering.wellFormed_of_ofJson {f : ElementFiltering}
    (hschema : Schema.elementFiltering v = []) (h : ofJson v = .ok f) : f.WellFormed := by
  simp only [Schema.elementFiltering, Schema.all_eq_nil_iff, List.forall_mem_cons] at hschema
  obtain ⟨hkind, hrules, hroles, -⟩ := hschema
  obtain ⟨fields, rfl⟩ := Schema.exists_fields_of_kind hkind
  obtain ⟨fs, hfs, h⟩ := bind_eq_ok h
  obtain ⟨rules, hrulesRead, h⟩ := bind_eq_ok h
  obtain ⟨roles, hrolesRead, h⟩ := bind_eq_ok h
  obtain rfl := Except.ok.inj h
  constructor
  · rcases Schema.check_of_getOr (by decide) (by decide) hfs hrules hrulesRead with
      rfl | ⟨w, hw, hread⟩
    · exact List.forall_mem_nil _
    · intro r hr
      obtain ⟨item, hitem, hitemRead⟩ := Schema.check_of_readList hw hread r hr
      exact FilterRule.wellFormed_of_ofJson hitem hitemRead
  · rcases Schema.check_of_getOr (by decide) (by decide) hfs hroles hrolesRead with
      rfl | ⟨w, hw, hread⟩
    · exact ContactRoles.isPath_default
    · exact ContactRoles.isPath_of_ofJson hw hread

theorem Relationship.wellFormed_of_ofJson {r : Relationship}
    (hschema : Schema.relationship v = []) (h : ofJson v = .ok r) : r.WellFormed := by
  simp only [Schema.relationship, Schema.all_eq_nil_iff, List.forall_mem_cons] at hschema
  obtain ⟨hkind, -, hparent, hchild, hcolumn, -⟩ := hschema
  obtain ⟨fields, rfl⟩ := Schema.exists_fields_of_kind hkind
  obtain ⟨fs, hfs, h⟩ := bind_eq_ok h
  obtain ⟨parent, hparentRead, h⟩ := bind_eq_ok h
  obtain ⟨child, hchildRead, h⟩ := bind_eq_ok h
  obtain ⟨column, hcolumnRead, h⟩ := bind_eq_ok h
  obtain ⟨key, -, h⟩ := bind_eq_ok h
  obtain rfl := Except.ok.inj h
  exact {
    parentTable := Schema.ne_empty_of_require (by decide) (by decide) hfs hparent hparentRead
    childTable := Schema.ne_empty_of_require (by decide) (by decide) hfs hchild hchildRead
    foreignKeyColumn := Schema.ne_empty_of_require (by decide) (by decide) hfs hcolumn hcolumnRead }

/-! ### Contracts -/

theorem Contract.unambiguous_rules : Unambiguous rules := by decide

/-- The names of an order of tables are checked as the texts they are read from. -/
theorem Contract.orderNames_of_readList {order : List String}
    (hcheck : Schema.all [Schema.kind [.array], Schema.everyItem Schema.name, Schema.unique] v = [])
    (hread : readList readText v = .ok order) :
    (∀ table ∈ order, table ≠ "") ∧ order.Nodup := by
  simp only [Schema.all_eq_nil_iff, List.forall_mem_cons] at hcheck
  obtain ⟨-, hnames, hunique, -⟩ := hcheck
  obtain rfl := readList_readText_eq_ok hread
  refine ⟨fun table htable => ?_, Schema.unique_eq_nil_iff.mp hunique⟩
  have hname := Schema.everyItem_eq_nil_iff.mp hnames (.string table) (List.mem_map_of_mem htable)
  exact Schema.name_eq_nil_iff.mp hname

theorem CodeTable.wellFormed_of_readTables {enums : Fields CodeTable}
    (h : readMap (readMap Code.ofJson) v = .ok enums) :
    (Fields.names enums).Nodup ∧ ∀ e ∈ enums, CodeTable.WellFormed e.2 := by
  obtain ⟨hnodup, tables, rfl, htables⟩ := readMap_eq_ok h
  refine ⟨hnodup, fun e he => ?_⟩
  obtain ⟨table, -, htable⟩ := htables e he
  exact wellFormed_of_readMap htable

theorem Contract.wellFormed_of_ofJson {c : Contract} (hschema : Schema.contract v = [])
    (h : ofJson v = .ok c) : c.WellFormed := by
  simp only [Schema.contract, Schema.all_eq_nil_iff, List.forall_mem_cons] at hschema
  obtain ⟨hkind, -, -, -, -, htarget, horder, hfiltering, hlinks, -, hbits, hmappings, -⟩ := hschema
  obtain ⟨fields, rfl⟩ := Schema.exists_fields_of_kind hkind
  obtain ⟨fs, hfs, h⟩ := bind_eq_ok h
  obtain ⟨sourceTable, -, h⟩ := bind_eq_ok h
  obtain ⟨sourceColumn, -, h⟩ := bind_eq_ok h
  obtain ⟨root, -, h⟩ := bind_eq_ok h
  obtain ⟨target, htargetRead, h⟩ := bind_eq_ok h
  obtain ⟨order, horderRead, h⟩ := bind_eq_ok h
  obtain ⟨filtering, hfilteringRead, h⟩ := bind_eq_ok h
  obtain ⟨links, hlinksRead, h⟩ := bind_eq_ok h
  obtain ⟨enums, henumsRead, h⟩ := bind_eq_ok h
  obtain ⟨bits, hbitsRead, h⟩ := bind_eq_ok h
  obtain ⟨mappings, hmappingsRead, h⟩ := bind_eq_ok h
  obtain rfl := Except.ok.inj h
  have horderNames : (∀ table ∈ order, table ≠ "") ∧ order.Nodup := by
    rcases Schema.check_of_getOr unambiguous_rules (by decide) hfs horder horderRead with
      rfl | ⟨w, hw, hread⟩
    · exact ⟨List.forall_mem_nil _, List.nodup_nil⟩
    · exact orderNames_of_readList hw hread
  have henumTables : (Fields.names enums).Nodup ∧ ∀ e ∈ enums, CodeTable.WellFormed e.2 := by
    rcases getOr_eq_ok henumsRead with rfl | ⟨w, -, hread⟩
    · exact ⟨List.nodup_nil, List.forall_mem_nil _⟩
    · exact CodeTable.wellFormed_of_readTables hread
  exact {
    targetSchema := by
      rcases Schema.check_of_getOr unambiguous_rules (by decide) hfs htarget htargetRead with
        rfl | ⟨w, hw, hread⟩
      · exact (by decide : Schema.isIdentifier "dbo".toList = true)
      · obtain rfl := readText_eq_ok hread
        exact Schema.schemaName_eq_nil_iff.mp hw
    orderNames := horderNames.1
    orderNodup := horderNames.2
    elementFiltering := by
      rcases Schema.check_of_getOr unambiguous_rules (by decide) hfs hfiltering hfilteringRead with
        rfl | ⟨w, hw, hread⟩
      · exact ⟨List.forall_mem_nil _, ContactRoles.isPath_default⟩
      · exact ElementFiltering.wellFormed_of_ofJson hw hread
    relationships := by
      rcases Schema.check_of_getOr unambiguous_rules (by decide) hfs hlinks hlinksRead with
        rfl | ⟨w, hw, hread⟩
      · exact List.forall_mem_nil _
      · intro r hr
        obtain ⟨item, hitem, hitemRead⟩ := Schema.check_of_readList hw hread r hr
        exact Relationship.wellFormed_of_ofJson hitem hitemRead
    enumNodup := henumTables.1
    enumTables := henumTables.2
    bitConversions := by
      rcases Schema.check_of_getOr unambiguous_rules (by decide) hfs hbits hbitsRead with
        rfl | ⟨w, hw, hread⟩
      · exact ⟨CodeTable.isBitTable_nil, CodeTable.isBitTable_nil⟩
      · exact BitConversions.wellFormed_of_ofJson hw hread
    mappings := by
      intro m hm
      obtain ⟨w, hw, hread⟩ :=
        Schema.check_of_require unambiguous_rules (by decide) hfs hmappings hmappingsRead
      obtain ⟨item, hitem, hitemRead⟩ := Schema.check_of_readList hw hread m hm
      exact FieldMapping.wellFormed_of_ofJson hitem hitemRead }

end RowContract
