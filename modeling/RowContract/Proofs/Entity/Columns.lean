import Mathlib.Data.List.Perm.Subperm
import RowContract.Proofs.Entity.Build

/-!
Which entities become a row of columns.  An entity is kept if its row has more columns
than the entity has foreign keys.  The row has a column for each name, the keys are
counted one by one: where several links lead to one column, or a rule fills the column
of a key, an entity may be dropped although its rules gave it a value.  Where links and
rules keep to columns of their own, an entity is kept exactly if a rule gave it a value.
-/

namespace RowContract

theorem Record.size_setAll_empty (table : String) (entries : List (String × Value)) :
    ((Record.empty table).setAll entries).size = (entries.map Prod.fst).dedup.length :=
  Fields.length_setAll_nil entries

/-- The links to a table end in columns of their own, which no mapping of the table writes. -/
structure Contract.KeysApart (c : Contract) (table : String) : Prop where
  nodup : ((c.relationships.filter fun r => r.childTable == table).map
    Relationship.foreignKeyColumn).Nodup
  unwritten : ∀ r ∈ c.relationships, r.childTable = table → ∀ m ∈ c.mappingsFor table,
    m.targetColumn ≠ r.foreignKeyColumn

namespace Site

variable {s : Site} {table : String} {built : List Built} {element : Option Nat} {anchor : Nat}
  {outs : List (FieldMapping × Resolved)}

/-- Each link gives at most one key, so links to different columns give keys of different names. -/
theorem nodup_foreignKeys (h : s.contract.KeysApart table) :
    ((s.foreignKeys built table element).map Prod.fst).Nodup := by
  refine List.Sublist.nodup ?_ h.nodup
  unfold foreignKeys Contract.parentKeys
  rw [keyColumns_value]
  induction s.contract.relationships.filter fun r => r.childTable == table with
  | nil => exact List.Sublist.refl []
  | cons r rest ih =>
      rw [List.flatMap_cons, List.map_append, List.map_cons, Relationship.keyColumn_value]
      split
      · exact ih.cons _
      · exact ih.cons_cons _

theorem foreignKeys_ne_filled (h : s.contract.KeysApart table) {record : Record}
    (houts : s.outcomes anchor (s.contract.mappingsFor table) record = .ok outs)
    {key entry : String × Value} (hkey : key ∈ s.foreignKeys built table element)
    (hentry : entry ∈ filled outs) : key.1 ≠ entry.1 := by
  obtain ⟨r, hr, htable, hfk, -⟩ := mem_foreignKeys_iff.mp hkey
  obtain ⟨m, hm, htarget, -⟩ := mem_filled_iff.mp hentry
  have hrule := (resolution_of_mem_outcomes houts hm).1
  rw [← hfk, ← htarget]
  exact (h.unwritten r hr htable m hrule).symm

/-- What a stage has for its entity besides the rows that rules append: at most one row, and that
only if rules gave the entity values, which the row carries. -/
structure Emits (s : Site) (stage : Stage) (outs : List (FieldMapping × Resolved))
    (own : List Built) : Prop where
  rows : stage.rows = own ++ s.appended stage.earlier stage.anchor outs
  atMostOne : own.length ≤ 1
  /-- The row is there if there are more columns than keys, of which each link gives its own. -/
  ne_nil_iff : own ≠ [] ↔
    (s.foreignKeys stage.earlier stage.table (some stage.anchor)).length <
      ((s.foreignKeys stage.earlier stage.table (some stage.anchor) ++
        filled outs).map Prod.fst).dedup.length
  filled_of_own : own ≠ [] → filled outs ≠ []
  own_of_filled : s.contract.KeysApart stage.table → filled outs ≠ [] → own ≠ []
  entity : ∀ b ∈ own, b.record.table = stage.table ∧ b.element = some stage.anchor
  /-- Of several values for a column the row carries the last. -/
  carries : ∀ b ∈ own, ∀ before column v after, filled outs = before ++ (column, v) :: after →
    column ∉ after.map Prod.fst → b.record.get? column = some v

/-- Apart keys and at least one value make more columns than keys. -/
theorem length_foreignKeys_lt (built : List Built) (element : Option Nat)
    (h : s.contract.KeysApart table) {record : Record}
    (houts : s.outcomes anchor (s.contract.mappingsFor table) record = .ok outs)
    (hfilled : filled outs ≠ []) :
    (s.foreignKeys built table element).length <
      ((s.foreignKeys built table element ++ filled outs).map Prod.fst).dedup.length := by
  obtain ⟨entry, hentry⟩ := List.exists_mem_of_ne_nil _ hfilled
  have hnodup : (entry.1 :: (s.foreignKeys built table element).map Prod.fst).Nodup := by
    refine List.nodup_cons.mpr ⟨fun hmem => ?_, nodup_foreignKeys h⟩
    obtain ⟨key, hkey, hname⟩ := List.mem_map.mp hmem
    exact foreignKeys_ne_filled h houts hkey hentry hname
  have hsubset : entry.1 :: (s.foreignKeys built table element).map Prod.fst ⊆
      ((s.foreignKeys built table element ++ filled outs).map Prod.fst).dedup := by
    intro name hname
    rw [List.mem_dedup, List.map_append, List.mem_append]
    rcases List.mem_cons.mp hname with rfl | hname
    · exact .inr (List.mem_map_of_mem hentry)
    · exact .inl hname
  have hle := (hnodup.subperm hsubset).length_le
  rw [List.length_cons, List.length_map] at hle
  exact hle

theorem emits_of_rows {stage : Stage} {record : Record}
    (houts : s.outcomes stage.anchor (s.contract.mappingsFor stage.table) record = .ok outs)
    (hrows : stage.rows = s.entityRows stage.table stage.earlier stage.anchor outs) :
    ∃ own, s.Emits stage outs own := by
  simp only [entityRows] at hrows
  generalize hkeys : s.foreignKeys stage.earlier stage.table (some stage.anchor) = keys at hrows
  generalize hrecord : (Record.empty stage.table).setAll (keys ++ filled outs) = record' at hrows
  have hsize : record'.size = ((keys ++ filled outs).map Prod.fst).dedup.length := by
    rw [← hrecord, Record.size_setAll_empty]
  by_cases hmore : keys.length < record'.size
  · rw [if_pos hmore] at hrows
    have hfilled : filled outs ≠ [] := by
      -- The keys alone make at most one column each.
      intro hnil
      have hle := Record.size_setAll_le (Record.empty stage.table) keys
      have hempty : (Record.empty stage.table).size = 0 := rfl
      rw [hnil, List.append_nil] at hrecord
      rw [hrecord] at hle
      omega
    have hone : [(⟨record', some stage.anchor⟩ : Built)] ≠ [] := List.cons_ne_nil _ _
    refine ⟨_, hrows, Nat.le_refl 1, ?_, fun _ => hfilled, fun _ _ => hone, ?_, ?_⟩
    · rw [hkeys, ← hsize]
      exact ⟨fun _ => hmore, fun _ => hone⟩
    · intro b hb
      obtain rfl := List.mem_singleton.mp hb
      subst hrecord
      exact ⟨rfl, rfl⟩
    · intro b hb before column v after hsplit hlast
      obtain rfl := List.mem_singleton.mp hb
      subst hrecord
      rw [hsplit, ← List.append_assoc]
      exact Fields.get?_setAll_append_cons _ _ _ v hlast
  · rw [if_neg hmore] at hrows
    refine ⟨[], hrows, Nat.zero_le 1, ?_, fun h => absurd rfl h, ?_, List.forall_mem_nil _,
      List.forall_mem_nil _⟩
    · rw [hkeys, ← hsize]
      exact ⟨fun h => absurd rfl h, fun h => absurd h hmore⟩
    · intro hapart hfilled
      have hlt := length_foreignKeys_lt stage.earlier (some stage.anchor) hapart houts hfilled
      rw [hkeys, ← hsize] at hlt
      exact absurd hlt hmore

end Site

/-- The records of a document are the rows of its entities, and every entity of a table has a row
of columns under the conditions of `Emits`. -/
theorem Contract.records_emit (c : Contract) {d : Document} {records : List Record}
    (h : (c.records d).run.value = .ok records) :
    ∃ done, Site.history ⟨c, d⟩ = .ok done ∧
      records = (done.flatMap Site.Stage.rows).map Built.record ∧
      (done.map fun stage => (stage.table, stage.anchor)) = Site.entities ⟨c, d⟩ ∧
      ∀ stage ∈ done, ∃ outs own,
        Site.outcomes ⟨c, d⟩ stage.anchor (c.mappingsFor stage.table)
          ((Record.empty stage.table).setAll
            (Site.foreignKeys ⟨c, d⟩ stage.earlier stage.table (some stage.anchor))) = .ok outs ∧
        Site.Emits ⟨c, d⟩ stage outs own := by
  obtain ⟨done, hdone, hrecords⟩ := Site.history_of_records h
  refine ⟨done, hdone, hrecords, Site.history_entities hdone, fun stage hstage => ?_⟩
  obtain ⟨outs, houts, hrows⟩ := Site.history_outcomes hdone hstage
  obtain ⟨own, hown⟩ := Site.emits_of_rows houts hrows
  exact ⟨outs, own, houts, hown⟩

/-! ### A contact with two links -/

/-- The contract of contacts that take the key of an application from the rows of some tables. -/
def registry (parents : List String) : Json :=
  let link := fun parent : String =>
    Json.object [("parent_table", .string parent), ("child_table", .string "contact_base"),
      ("foreign_key_column", .string "app_id")]
  let mapping := fun path table column : String =>
    Json.object [("source_path", .string path), ("target_table", .string table),
      ("target_column", .string column)]
  .object
    [("table_insertion_order",
      .array [.string "app_base", .string "app_detail", .string "contact_base"]),
     ("element_filtering", .object
       [("filter_rules", .array
         [.object
           [("element_type", .string "contact"), ("xml_path", .string "/app/contact"),
            ("required_attributes", .object [("con_id", .bool true)]),
            ("identity_attribute", .string "con_id")]])]),
     ("relationships", .array (parents.map link)),
     ("mappings", .array
       [mapping "/app/@id" "app_base" "app_id", mapping "/app/@id" "app_detail" "app_id",
        mapping "/app/contact/@con_id" "contact_base" "con_id"])]

def household : Document where
  elements :=
    [{ path := "/app", attributes := [("id", "7")] },
     { path := "/app/contact", attributes := [("con_id", "1")], parent := some 0 }]

/-- With one link the contact is kept. -/
theorem registry_emit :
    ∃ c, Contract.ofDocument (registry ["app_base"]) = .ok c ∧
      ∃ records, (c.records household).run.value = .ok records ∧
        (records.map fun r => (r.table, r.columns)) =
          [("app_base", [("app_id", .text "7")]), ("app_detail", [("app_id", .text "7")]),
           ("contact_base", [("app_id", .text "7"), ("con_id", .text "1")])] ∧
        ∃ done, Site.history ⟨c, household⟩ = .ok done ∧
          records = (done.flatMap Site.Stage.rows).map Built.record ∧
          (done.map fun stage => (stage.table, stage.anchor)) = Site.entities ⟨c, household⟩ ∧
          ∀ stage ∈ done, ∃ outs own,
            Site.outcomes ⟨c, household⟩ stage.anchor (c.mappingsFor stage.table)
              ((Record.empty stage.table).setAll (Site.foreignKeys ⟨c, household⟩ stage.earlier
                stage.table (some stage.anchor))) = .ok outs ∧
            Site.Emits ⟨c, household⟩ stage outs own := by
  have hrun : ((Contract.ofDocument (registry ["app_base"])).toOption.any fun c =>
      (c.records household).run.value.toOption.any fun records =>
        decide ((records.map fun r => (r.table, r.columns)) =
          [("app_base", [("app_id", .text "7")]), ("app_detail", [("app_id", .text "7")]),
           ("contact_base", [("app_id", .text "7"), ("con_id", .text "1")])])) = true := by
    decide +kernel
  obtain ⟨c, hc, hrun⟩ := any_toOption_iff.mp hrun
  obtain ⟨records, hrecords, hcolumns⟩ := any_toOption_iff.mp hrun
  exact ⟨c, hc, records, hrecords, of_decide_eq_true hcolumns, c.records_emit hrecords⟩

/-- With two links into one column the contact is dropped: its identifier has a value, but there are
two columns for two keys. -/
theorem registry_dropsContact :
    ∃ c, Contract.ofDocument (registry ["app_base", "app_detail"]) = .ok c ∧
      ∃ done, Site.history ⟨c, household⟩ = .ok done ∧
        ∃ stage ∈ done, stage.table = "contact_base" ∧ stage.rows = [] ∧
          ∃ outs, Site.outcomes ⟨c, household⟩ stage.anchor (c.mappingsFor stage.table)
              ((Record.empty stage.table).setAll (Site.foreignKeys ⟨c, household⟩ stage.earlier
                stage.table (some stage.anchor))) = .ok outs ∧
            Site.filled outs = [("con_id", .text "1")] := by
  have hrun : ((Contract.ofDocument (registry ["app_base", "app_detail"])).toOption.any fun c =>
      (Site.history ⟨c, household⟩).toOption.any fun done => done.any fun stage =>
        decide (stage.table = "contact_base") && stage.rows.isEmpty &&
          (Site.outcomes ⟨c, household⟩ stage.anchor (c.mappingsFor stage.table)
            ((Record.empty stage.table).setAll (Site.foreignKeys ⟨c, household⟩ stage.earlier
              stage.table (some stage.anchor)))).toOption.any fun outs =>
            decide (Site.filled outs = [("con_id", .text "1")])) = true := by
    decide +kernel
  obtain ⟨c, hc, hrun⟩ := any_toOption_iff.mp hrun
  obtain ⟨done, hdone, hrun⟩ := any_toOption_iff.mp hrun
  obtain ⟨stage, hstage, hrun⟩ := List.any_eq_true.mp hrun
  rw [Bool.and_eq_true, Bool.and_eq_true, decide_eq_true_eq, List.isEmpty_iff] at hrun
  obtain ⟨⟨htable, hrows⟩, hrun⟩ := hrun
  obtain ⟨outs, houts, hfilled⟩ := any_toOption_iff.mp hrun
  exact ⟨c, hc, done, hdone, stage, hstage, htable, hrows, outs, houts,
    of_decide_eq_true hfilled⟩

end RowContract
