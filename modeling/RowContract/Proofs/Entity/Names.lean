import RowContract.Proofs.Entity.WellFormed

/-!
Where the names in a record come from.  Its table is the target of a mapping.  A column is the
foreign key of a link or the target of a mapping, or it is one of the two columns that a row of a
name and a value has.
-/

namespace RowContract

/-- The contract, or the layout of rows of a name and a value, names the column. -/
inductive Contract.Names (c : Contract) : String → Prop
  | link {r : Relationship} (h : r ∈ c.relationships) : Names c r.foreignKeyColumn
  | mapping {m : FieldMapping} (h : m ∈ c.mappings) (hcolumn : m.createsRow = false) :
      Names c m.targetColumn
  | key (verb : RowVerb) : Names c verb.keyColumn
  | value (verb : RowVerb) : Names c verb.valueColumn

namespace Site

variable {s : Site} {built : List Built} {table : String} {element : Option Nat} {anchor : Nat}
  {start : Record} {outs : List (FieldMapping × Resolved)} {column : String}

theorem names_foreignKeys
    (h : column ∈ (s.foreignKeys built table element).map Prod.fst) : s.contract.Names column := by
  obtain ⟨⟨_, v⟩, hkey, rfl⟩ := List.mem_map.mp h
  obtain ⟨r, hr, -, hcolumn, -⟩ := mem_foreignKeys_iff.mp hkey
  rw [← hcolumn]
  exact .link hr

theorem names_filled (houts : s.outcomes anchor (s.contract.mappingsFor table) start = .ok outs)
    (h : column ∈ (filled outs).map Prod.fst) : s.contract.Names column := by
  obtain ⟨⟨_, v⟩, hfilled, rfl⟩ := List.mem_map.mp h
  obtain ⟨m, hm, hcolumn, -⟩ := mem_filled_iff.mp hfilled
  obtain ⟨hrule, record, hresolved⟩ := resolution_of_mem_outcomes houts hm
  obtain ⟨w, hdeliver, -⟩ := deliver_of_resolution hresolved
  rw [← hcolumn]
  exact .mapping (Contract.mem_mappingsFor_iff.mp hrule).1
    (ChainContext.createsRow_of_deliver hdeliver)

theorem names_toRecord {r : KeyValueRow}
    (h : column ∈ (r.toRecord (s.foreignKeys built table element)).columnNames) :
    s.contract.Names column := by
  rcases (Fields.mem_names_set _ _ _ _).mp h with h | rfl
  · rcases (Fields.mem_names_set _ _ _ _).mp h with h | rfl
    · rcases (Fields.mem_names_setAll _ _ _).mp h with h | h
      · cases h
      · exact names_foreignKeys h
    · exact .key r.verb
  · exact .value r.verb

theorem names_of_mem_entityRows
    (houts : s.outcomes anchor (s.contract.mappingsFor table) start = .ok outs) {b : Built}
    (hb : b ∈ s.entityRows table built anchor outs) (h : column ∈ b.record.columnNames) :
    s.contract.Names column := by
  unfold entityRows at hb
  rcases List.mem_append.mp hb with hb | hb
  · split at hb
    next =>
      obtain rfl := List.mem_singleton.mp hb
      rcases (Fields.mem_names_setAll _ _ _).mp h with h | h
      · cases h
      · rw [List.map_append] at h
        rcases List.mem_append.mp h with h | h
        · exact names_foreignKeys h
        · exact names_filled houts h
    next => cases hb
  · obtain ⟨⟨m, o⟩, hm, ho⟩ := List.mem_filterMap.mp hb
    cases o with
    | column w => cases ho
    | noRow => cases ho
    | row r =>
        obtain rfl := Option.some.inj ho
        exact names_toRecord h

end Site

/-- A record is for the target table of a mapping, and the contract names its columns. -/
theorem Contract.names_records {c : Contract} {d : Document} {records : List Record}
    (h : (c.records d).run.value = .ok records) :
    ∀ r ∈ records, (∃ m ∈ c.mappings, m.targetTable = r.table) ∧
      ∀ column ∈ r.columnNames, c.Names column := by
  obtain ⟨done, hdone, rfl⟩ := Site.history_of_records h
  intro r hr
  obtain ⟨b, hb, rfl⟩ := List.mem_map.mp hr
  obtain ⟨stage, hstage, hb⟩ := List.mem_flatMap.mp hb
  obtain ⟨outs, houts, hrows⟩ := Site.history_outcomes hdone hstage
  rw [hrows] at hb
  refine ⟨?_, fun column hcolumn => Site.names_of_mem_entityRows houts hb hcolumn⟩
  rw [Site.table_of_mem_entityRows houts hb]
  have hentity := List.mem_map_of_mem (f := fun stage : Site.Stage => (stage.table, stage.anchor))
    hstage
  rw [Site.history_entities hdone] at hentity
  obtain ⟨m, hm⟩ := Site.exists_rule_of_mem_entities hentity
  obtain ⟨hmapping, htable⟩ := Contract.mem_mappingsFor_iff.mp hm
  exact ⟨m, hmapping, htable⟩

end RowContract
