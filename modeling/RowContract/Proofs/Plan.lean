import RowContract.Migration
import RowContract.Proofs.Entity.WellFormed
import RowContract.Proofs.Grouping

/-!
Plans.  The records of a document come table by table in the order of the contract's tables, so the
batches that are planned follow this order, and one after the other they hold the records as they
came.
-/

namespace RowContract

/-! ### Records in the order of the tables -/

namespace Site

/-- The rows of entities that come table by table do so, too. -/
theorem grouped_of_entities {tables : List String} {anchors : String → List Nat}
    {done : List Stage}
    (hentities : (done.map fun stage => (stage.table, stage.anchor)) =
      tables.flatMap fun table => (anchors table).map fun a => (table, a))
    (hrows : ∀ stage ∈ done, ∀ b ∈ stage.rows, b.record.table = stage.table) :
    Batch.Grouped tables ((done.flatMap Stage.rows).map Built.record) := by
  induction tables generalizing done with
  | nil =>
      rw [List.flatMap_nil, List.map_eq_nil_iff] at hentities
      subst hentities
      exact .nil
  | cons table rest ih =>
      rw [List.flatMap_cons, List.map_eq_append_iff] at hentities
      -- The stages fall into those of the first table and the others.
      obtain ⟨first, others, rfl, hfirst, hothers⟩ := hentities
      rw [List.flatMap_append, List.map_append]
      refine .cons (List.forall_mem_map.mpr fun b hb => ?_)
        (ih hothers fun stage hstage => hrows stage (List.mem_append_right _ hstage))
      obtain ⟨stage, hstage, hb⟩ := List.mem_flatMap.mp hb
      have hentity :=
        List.mem_map_of_mem (f := fun stage : Stage => (stage.table, stage.anchor)) hstage
      rw [hfirst] at hentity
      obtain ⟨a, -, hentity⟩ := List.mem_map.mp hentity
      rw [hrows stage (List.mem_append_left _ hstage) b hb]
      exact (Prod.mk.inj hentity).1.symm

end Site

namespace Contract

variable {c : Contract} {d : Document} {s : LoaderSettings} {records : List Record}
  {batches : List Batch}

theorem grouped_records (h : (c.records d).run.value = .ok records) :
    Batch.Grouped c.tables records := by
  obtain ⟨done, hdone, rfl⟩ := Site.history_of_records h
  refine Site.grouped_of_entities (Site.history_entities hdone) fun stage hstage b hb => ?_
  obtain ⟨outs, houts, hrows⟩ := Site.history_outcomes hdone hstage
  rw [hrows] at hb
  exact Site.table_of_mem_entityRows houts hb

/-! ### Plans -/

theorem tables_eq_addNames (c : Contract) :
    c.tables = Batch.addNames c.tableInsertionOrder (c.mappings.map FieldMapping.targetTable) := by
  rw [tables, Batch.addNames, List.foldl_map]

theorem nodup_tables (h : c.tableInsertionOrder.Nodup) : c.tables.Nodup := by
  rw [tables_eq_addNames]
  exact Batch.nodup_addNames h _

theorem plan_eq_ok (h : (c.plan d s).run.value = .ok batches) :
    ∃ records, (c.records d).run.value = .ok records ∧
      Batch.ofRecords c s.identityInsertTables records = batches := by
  rw [plan, Transform.value_bind] at h
  obtain ⟨records, hrecords, hbatches⟩ := bind_eq_ok h
  exact ⟨records, hrecords, Except.ok.inj hbatches⟩

/-- The planned batches are those of the tables that have records, in the order of the tables. -/
theorem ofRecords_eq (horder : c.tableInsertionOrder.Nodup) (h : Batch.Grouped c.tables records)
    (identityTables : List String) :
    Batch.ofRecords c identityTables records =
      (c.tables.filter (Batch.hasTable records)).map fun table =>
        ⟨table, c.qualifiedTable table, Batch.recordsOf records table,
          identityTables.contains table⟩ := by
  have hgrouped := h
  rw [tables_eq_addNames] at hgrouped
  have htables : (Batch.tableOrder c.tableInsertionOrder records).Nodup :=
    Batch.nodup_addNames horder _
  rw [Batch.ofRecords_eq_map, Batch.eraseDups_of_nodup htables, hgrouped.filter_tableOrder horder,
    ← tables_eq_addNames]

/-- A plan of an accepted contract loses and reorders nothing: its batches are of different tables
that follow the order of the contract, none is empty, and together they hold the records of the
document as they came. -/
theorem plan_records {document : Json} (hc : ofDocument document = .ok c)
    (h : (c.plan d s).run.value = .ok batches) :
    (batches.map Batch.table).Nodup ∧ (batches.map Batch.table).Sublist c.tables ∧
      (∀ b ∈ batches, b.records ≠ [] ∧ ∀ r ∈ b.records, r.table = b.table) ∧
      (c.records d).run.value = .ok (batches.flatMap Batch.records) := by
  obtain ⟨records, hrecords, rfl⟩ := plan_eq_ok h
  have horder := (wellFormed_of_ofDocument hc).orderNodup
  have hgrouped := grouped_records hrecords
  have hnodup := nodup_tables horder
  rw [ofRecords_eq horder hgrouped]
  have htables : ((c.tables.filter (Batch.hasTable records)).map fun table =>
      (⟨table, c.qualifiedTable table, Batch.recordsOf records table,
        s.identityInsertTables.contains table⟩ : Batch)).map Batch.table =
      c.tables.filter (Batch.hasTable records) := by
    rw [List.map_map]
    exact List.map_id _
  rw [htables]
  refine ⟨hnodup.filter _, List.filter_sublist, List.forall_mem_map.mpr fun table htable => ?_, ?_⟩
  · obtain ⟨r, hr, htable⟩ := Batch.hasTable_eq_true_iff.mp (List.mem_filter.mp htable).2
    refine ⟨?_, fun r hr => beq_iff_eq.mp (List.mem_filter.mp hr).2⟩
    exact List.ne_nil_of_mem (List.mem_filter.mpr ⟨hr, beq_iff_eq.mpr htable⟩)
  · rw [List.flatMap_map, hgrouped.flatMap_recordsOf hnodup, hrecords]

def scoresFirst : Json :=
  .object
    [("table_insertion_order", .array [.string "scores"]),
     ("mappings", .array
       [.object [("source_path", .string "/app/@id"), ("target_table", .string "app_base"),
          ("target_column", .string "app_id"), ("required", .bool true)],
        .object [("source_path", .string "/app/@score"), ("target_table", .string "scores"),
          ("mapping_type", .string "add_score(AJ)")]])]

theorem scoresFirst_plan :
    ∃ c, ofDocument scoresFirst = .ok c ∧ c.tables = ["scores", "app_base"] ∧
      ∃ batches, (c.plan scoredApplication {}).run.value = .ok batches ∧
        batches.map Batch.table = ["scores", "app_base"] ∧
        (batches.map Batch.table).Nodup ∧ (batches.map Batch.table).Sublist c.tables ∧
        (∀ b ∈ batches, b.records ≠ [] ∧ ∀ r ∈ b.records, r.table = b.table) ∧
        (c.records scoredApplication).run.value = .ok (batches.flatMap Batch.records) := by
  have hrun : ((ofDocument scoresFirst).toOption.any fun c =>
      decide (c.tables = ["scores", "app_base"]) &&
        (c.plan scoredApplication {}).run.value.toOption.any fun batches =>
          decide (batches.map Batch.table = ["scores", "app_base"])) = true := by
    decide +kernel
  obtain ⟨c, hc, hrun⟩ := any_toOption_iff.mp hrun
  obtain ⟨htables, hrun⟩ := (Bool.and_eq_true _ _).mp hrun
  obtain ⟨batches, hbatches, horder⟩ := any_toOption_iff.mp hrun
  exact ⟨c, hc, of_decide_eq_true htables, batches, hbatches, of_decide_eq_true horder,
    plan_records hc hbatches⟩

end Contract

end RowContract
