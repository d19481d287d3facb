import RowContract.Proofs.Contract.Acceptance
import RowContract.Proofs.Entity.Build
import RowContract.Proofs.Resolution.Failure

/-!
The records of an accepted contract are well formed.  Keys, mapped columns and the columns of
appended rows all have names and values, a column is set in its place and not twice, and no record
is without columns.  In a table whose mappings append no rows a required column is always there.
-/

namespace RowContract

/-! ### Records with named values -/

def IsNamedValue (e : String × Value) : Prop := e.1 ≠ "" ∧ e.2 ≠ .null

/-- The columns have different names and values that are there. -/
structure Record.Tidy (r : Record) : Prop where
  nodup : r.columnNames.Nodup
  named : ∀ e ∈ r.columns, IsNamedValue e

/-- A record of a row that can be written. -/
structure Record.WellFormed (r : Record) : Prop extends r.Tidy where
  nonempty : r.columns ≠ []

namespace Record

theorem tidy_empty (table : String) : (empty table).Tidy :=
  ⟨List.nodup_nil, List.forall_mem_nil _⟩

variable {r : Record}

theorem Tidy.set (h : r.Tidy) {column : String} {v : Value} (hnew : IsNamedValue (column, v)) :
    (r.set column v).Tidy := by
  refine ⟨Fields.nodup_names_set h.nodup column v, fun e he => ?_⟩
  rcases Fields.mem_set he with he | rfl
  · exact h.named e he
  · exact hnew

theorem Tidy.setAll (h : r.Tidy) {entries : List (String × Value)}
    (hnew : ∀ e ∈ entries, IsNamedValue e) : (r.setAll entries).Tidy := by
  induction entries generalizing r with
  | nil => exact h
  | cons e rest ih =>
      obtain ⟨he, hrest⟩ := List.forall_mem_cons.mp hnew
      exact ih (h.set he) hrest

theorem Tidy.wellFormed_set (h : r.Tidy) {column : String} {v : Value}
    (hnew : IsNamedValue (column, v)) : (r.set column v).WellFormed := by
  refine ⟨h.set hnew, fun hnil => ?_⟩
  have hmem := (Fields.mem_names_set r.columns column column v).mpr (.inr rfl)
  have hcolumns : r.columns.set column v = [] := hnil
  rw [hcolumns] at hmem
  cases hmem

end Record

theorem RowVerb.keyColumn_ne_empty (verb : RowVerb) : verb.keyColumn ≠ "" := by
  cases verb <;> decide

theorem RowVerb.valueColumn_ne_empty (verb : RowVerb) : verb.valueColumn ≠ "" := by
  cases verb <;> decide

/-! ### What a rule gives -/

theorem FieldMapping.row?_eq_none_iff {m : FieldMapping} :
    m.rowOperation?.bind Operation.row? = none ↔ m.createsRow = false := by
  unfold createsRow
  cases hop : m.rowOperation? with
  | none => exact iff_of_true rfl rfl
  | some op =>
      have hcreates : op.createsRow = true := List.find?_some hop
      refine iff_of_false (fun hnone => ?_) Bool.noConfusion
      rw [Operation.createsRow, ← Option.bind_some (f := Operation.row?), hnone] at hcreates
      cases hcreates

namespace ChainContext

variable {m : FieldMapping} {v : Value}

theorem deliver_of_createsRow (h : m.createsRow = false) (v : Value) :
    deliver m v = .column v := by
  rw [deliver, FieldMapping.row?_eq_none_iff.mpr h]

/-- A mapping that appends rows fills no column. -/
theorem createsRow_of_deliver {w : Value} (h : deliver m v = .column w) :
    m.createsRow = false := by
  unfold deliver at h
  split at h
  next hnone => exact FieldMapping.row?_eq_none_iff.mp hnone
  next => split at h <;> cases h

/-- An appended row has a value. -/
theorem isNull_of_deliver {r : KeyValueRow} (h : deliver m v = .row r) :
    r.value.isNull = false := by
  unfold deliver at h
  split at h
  · cases h
  · split at h
    · cases h
    next hnull =>
      obtain rfl := Resolved.row.inj h
      exact Bool.eq_false_iff.mpr hnull

end ChainContext

namespace Site

variable {s : Site} {anchor : Nat} {m : FieldMapping} {record : Record} {o : Resolved}

theorem deliver_of_resolution (h : s.resolution anchor m record = .ok o) :
    ∃ w, ChainContext.deliver m w = o ∧ (m.required = true → w.isNull = false) := by
  obtain ⟨v, w, -, hfinish, hdeliver⟩ := ChainContext.finish_of_resolve h
  exact ⟨w, hdeliver, fun hrequired => ChainContext.isNull_of_finish hrequired hfinish⟩

/-- A required column that is no row of its own gets a value. -/
theorem column_of_resolution (h : s.resolution anchor m record = .ok o)
    (hrows : m.createsRow = false) (hrequired : m.required = true) :
    ∃ w, o = .column w ∧ w.isNull = false := by
  obtain ⟨w, rfl, hnull⟩ := deliver_of_resolution h
  exact ⟨w, ChainContext.deliver_of_createsRow hrows w, hnull hrequired⟩

/-- Every rule has an outcome. -/
theorem exists_mem_outcomes {rules : List FieldMapping} {outs : List (FieldMapping × Resolved)}
    (h : s.outcomes anchor rules record = .ok outs) (hm : m ∈ rules) : ∃ o, (m, o) ∈ outs := by
  induction rules generalizing record outs with
  | nil => cases hm
  | cons first rest ih =>
      obtain ⟨o, others, -, hothers, rfl⟩ := outcomes_cons_eq_ok h
      rcases List.mem_cons.mp hm with rfl | hm
      · exact ⟨o, List.mem_cons_self⟩
      · obtain ⟨o', ho'⟩ := ih hothers hm
        exact ⟨o', List.mem_cons_of_mem _ ho'⟩

end Site

/-! ### The records of an accepted contract -/

structure Contract.NamesColumns (c : Contract) : Prop where
  links : ∀ r ∈ c.relationships, r.foreignKeyColumn ≠ ""
  mappings : ∀ m ∈ c.mappings, m.createsRow = false → m.targetColumn ≠ ""

theorem Contract.namesColumns_of_ofDocument {document : Json} {c : Contract}
    (h : ofDocument document = .ok c) : c.NamesColumns :=
  ⟨fun _ => foreignKeyColumn_ne_empty h, fun _ => targetColumn_ne_empty h⟩

namespace Site

variable {s : Site} {built : List Built} {table : String} {element : Option Nat} {anchor : Nat}
  {start : Record} {outs : List (FieldMapping × Resolved)}

theorem isNamedValue_foreignKeys (hnames : s.contract.NamesColumns) :
    ∀ e ∈ s.foreignKeys built table element, IsNamedValue e := by
  rintro ⟨column, v⟩ he
  obtain ⟨r, hr, -, rfl, -, hnull⟩ := mem_foreignKeys_iff.mp he
  exact ⟨hnames.links r hr, Value.isNull_eq_false_iff.mp hnull⟩

theorem isNamedValue_filled (hnames : s.contract.NamesColumns)
    (houts : s.outcomes anchor (s.contract.mappingsFor table) start = .ok outs) :
    ∀ e ∈ filled outs, IsNamedValue e := by
  rintro ⟨column, v⟩ he
  obtain ⟨m, hm, rfl, hnull⟩ := mem_filled_iff.mp he
  obtain ⟨hrule, record, hresolved⟩ := resolution_of_mem_outcomes houts hm
  obtain ⟨w, hdeliver, -⟩ := deliver_of_resolution hresolved
  have hmapping : m ∈ s.contract.mappings := (Contract.mem_mappingsFor_iff.mp hrule).1
  exact ⟨hnames.mappings m hmapping (ChainContext.createsRow_of_deliver hdeliver),
    Value.isNull_eq_false_iff.mp hnull⟩

/-- A row of a name and a value is well formed with the keys of its owner. -/
theorem wellFormed_toRecord (hnames : s.contract.NamesColumns) {r : KeyValueRow}
    (hvalue : r.value.isNull = false) :
    (r.toRecord (s.foreignKeys built table element)).WellFormed := by
  have hkeys : ((Record.empty r.table).setAll (s.foreignKeys built table element)).Tidy :=
    (Record.tidy_empty r.table).setAll (isNamedValue_foreignKeys hnames)
  have hname : IsNamedValue (r.verb.keyColumn, .text r.key) :=
    ⟨r.verb.keyColumn_ne_empty, nofun⟩
  exact (hkeys.set hname).wellFormed_set
    ⟨r.verb.valueColumn_ne_empty, Value.isNull_eq_false_iff.mp hvalue⟩

theorem wellFormed_of_mem_entityRows (hnames : s.contract.NamesColumns)
    (houts : s.outcomes anchor (s.contract.mappingsFor table) start = .ok outs) {b : Built}
    (hb : b ∈ s.entityRows table built anchor outs) : b.record.WellFormed := by
  unfold entityRows at hb
  rcases List.mem_append.mp hb with hb | hb
  · split at hb
    next hmore =>
      obtain rfl := List.mem_singleton.mp hb
      refine ⟨(Record.tidy_empty table).setAll ?_, fun hnil => ?_⟩
      · exact List.forall_mem_append.mpr
          ⟨isNamedValue_foreignKeys hnames, isNamedValue_filled hnames houts⟩
      · rw [Record.size, hnil] at hmore
        exact absurd hmore (Nat.not_lt_zero _)
    next => cases hb
  · obtain ⟨⟨m, o⟩, hm, ho⟩ := List.mem_filterMap.mp hb
    cases o with
    | column w => cases ho
    | noRow => cases ho
    | row r =>
        obtain rfl := Option.some.inj ho
        obtain ⟨-, record, hresolved⟩ := resolution_of_mem_outcomes houts hm
        obtain ⟨w, hdeliver, -⟩ := deliver_of_resolution hresolved
        exact wellFormed_toRecord hnames (ChainContext.isNull_of_deliver hdeliver)

theorem table_of_mem_entityRows
    (houts : s.outcomes anchor (s.contract.mappingsFor table) start = .ok outs) {b : Built}
    (hb : b ∈ s.entityRows table built anchor outs) : b.record.table = table := by
  unfold entityRows at hb
  rcases List.mem_append.mp hb with hb | hb
  · split at hb
    next =>
      obtain rfl := List.mem_singleton.mp hb
      rfl
    next => cases hb
  · obtain ⟨⟨m, o⟩, hm, ho⟩ := List.mem_filterMap.mp hb
    cases o with
    | column w => cases ho
    | noRow => cases ho
    | row r =>
        obtain rfl := Option.some.inj ho
        exact table_of_mem_outcomes houts hm

/-- In a table without appended rows a row has its required columns. -/
theorem get?_isSome_of_mem_entityRows
    (houts : s.outcomes anchor (s.contract.mappingsFor table) start = .ok outs)
    (hrows : ∀ m ∈ s.contract.mappingsFor table, m.createsRow = false) {b : Built}
    (hb : b ∈ s.entityRows table built anchor outs) {m : FieldMapping}
    (hm : m ∈ s.contract.mappingsFor table) (hrequired : m.required = true) :
    (b.record.get? m.targetColumn).isSome = true := by
  unfold entityRows at hb
  rcases List.mem_append.mp hb with hb | hb
  · split at hb
    next =>
      obtain rfl := List.mem_singleton.mp hb
      obtain ⟨o, ho⟩ := exists_mem_outcomes houts hm
      obtain ⟨-, record, hresolved⟩ := resolution_of_mem_outcomes houts ho
      obtain ⟨v, rfl, hnull⟩ := column_of_resolution hresolved (hrows m hm) hrequired
      have hfilled : (m.targetColumn, v) ∈ filled outs := mem_filled_iff.mpr ⟨m, ho, rfl, hnull⟩
      refine (Fields.mem_names_iff _ _).mp ((Fields.mem_names_setAll _ _ _).mpr (.inr ?_))
      exact List.mem_map_of_mem (List.mem_append_right _ hfilled)
    next => cases hb
  · obtain ⟨⟨m', o⟩, hm', ho⟩ := List.mem_filterMap.mp hb
    obtain ⟨hrule, record, hresolved⟩ := resolution_of_mem_outcomes houts hm'
    obtain ⟨w, rfl, -⟩ := deliver_of_resolution hresolved
    rw [ChainContext.deliver_of_createsRow (hrows m' hrule)] at ho
    cases ho

end Site

/-- The records of an accepted contract are well formed, and those of a table whose mappings append
no rows have a value in every required column. -/
theorem Contract.records_wellFormed {document : Json} {c : Contract}
    (hc : Contract.ofDocument document = .ok c) {d : Document} {records : List Record}
    (h : (c.records d).run.value = .ok records) :
    ∀ r ∈ records, r.WellFormed ∧
      ((∀ m ∈ c.mappingsFor r.table, m.createsRow = false) →
        ∀ m ∈ c.mappingsFor r.table, m.required = true →
          ∃ v, r.get? m.targetColumn = some v ∧ v ≠ .null) := by
  have hnames := namesColumns_of_ofDocument hc
  obtain ⟨done, hdone, rfl⟩ := Site.history_of_records h
  intro r hr
  obtain ⟨b, hb, rfl⟩ := List.mem_map.mp hr
  obtain ⟨stage, hstage, hb⟩ := List.mem_flatMap.mp hb
  obtain ⟨outs, houts, hrows⟩ := Site.history_outcomes hdone hstage
  rw [hrows] at hb
  have hwell := Site.wellFormed_of_mem_entityRows hnames houts hb
  refine ⟨hwell, fun hcolumns m hm hrequired => ?_⟩
  rw [Site.table_of_mem_entityRows houts hb] at hcolumns hm
  have hsome := Site.get?_isSome_of_mem_entityRows houts hcolumns hb hm hrequired
  obtain ⟨v, hv⟩ := Option.isSome_iff_exists.mp hsome
  exact ⟨v, hv, (hwell.named _ (Fields.mem_of_get? hv)).2⟩

/-- The contract of applications, which have to have an identifier, and of their scores. -/
def scoring : Json :=
  .object
    [("relationships", .array
      [.object [("parent_table", .string "app_base"), ("child_table", .string "scores"),
        ("foreign_key_column", .string "app_id")]]),
     ("mappings", .array
       [.object [("source_path", .string "/app/@id"), ("target_table", .string "app_base"),
          ("target_column", .string "app_id"), ("required", .bool true)],
        .object [("source_path", .string "/app/@score"), ("target_table", .string "scores"),
          ("mapping_type", .string "add_score(AJ)")]])]

def scoredApplication : Document where
  elements := [{ path := "/app", attributes := [("id", "7"), ("score", "640")] }]

theorem scoring_wellFormed :
    ∃ c, Contract.ofDocument scoring = .ok c ∧
      ∃ records, (c.records scoredApplication).run.value = .ok records ∧
        (records.map fun r => (r.table, r.columns)) =
          [("app_base", [("app_id", .text "7")]),
           ("scores", [("app_id", .text "7"), ("score_identifier", .text "AJ"),
             ("score", .text "640")])] ∧
        ∀ r ∈ records, r.WellFormed ∧
          ((∀ m ∈ c.mappingsFor r.table, m.createsRow = false) →
            ∀ m ∈ c.mappingsFor r.table, m.required = true →
              ∃ v, r.get? m.targetColumn = some v ∧ v ≠ .null) := by
  have hrun : ((Contract.ofDocument scoring).toOption.any fun c =>
      (c.records scoredApplication).run.value.toOption.any fun records =>
        decide ((records.map fun r => (r.table, r.columns)) =
          [("app_base", [("app_id", .text "7")]),
           ("scores", [("app_id", .text "7"), ("score_identifier", .text "AJ"),
             ("score", .text "640")])])) = true := by
    decide +kernel
  obtain ⟨c, hc, hrun⟩ := any_toOption_iff.mp hrun
  obtain ⟨records, hrecords, hcolumns⟩ := any_toOption_iff.mp hrun
  exact ⟨c, hc, records, hrecords, of_decide_eq_true hcolumns,
    Contract.records_wellFormed hc hrecords⟩

end RowContract
