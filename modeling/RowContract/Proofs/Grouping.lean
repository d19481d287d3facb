import RowContract.Proofs.Batch

/-!
Grouping.  Batches are made for the tables in the order in which they are first mentioned, by the
order of insertion or else by a record.  Each takes the records of its table out of those that the
batches before it have left, so every record goes to one batch, and the records of a batch stand as
they stood before.
-/

namespace RowContract.Batch

/-! ### Names in the order of first mention -/

theorem removeAll_concat (more names : List String) (name : String) :
    more.removeAll (names ++ [name]) =
      (more.removeAll names).filter fun other => !other == name := by
  unfold List.removeAll
  rw [List.filter_filter]
  refine List.filter_congr fun other _ => ?_
  rw [Bool.eq_iff_iff]
  simp [and_comm]

/-- Names are added in the order in which they are first mentioned. -/
theorem addNames_eq_append (names more : List String) :
    addNames names more = names ++ (more.removeAll names).eraseDups := by
  induction more generalizing names with
  | nil => exact (List.append_nil names).symm
  | cons name rest ih =>
      rw [addNames_cons, ih, List.cons_removeAll]
      by_cases h : name ∈ names
      · rw [if_pos h, if_neg (by simpa using h)]
      · rw [if_neg h, if_pos (by simpa using h), List.eraseDups_cons, List.append_assoc,
          removeAll_concat]
        rfl

theorem eraseDups_eq_addNames (names : List String) : names.eraseDups = addNames [] names := by
  have hall : names.removeAll [] = names := List.filter_eq_self.mpr fun _ _ => rfl
  rw [addNames_eq_append, List.nil_append, hall]

theorem nodup_eraseDups (names : List String) : names.eraseDups.Nodup := by
  rw [eraseDups_eq_addNames]
  exact nodup_addNames List.nodup_nil names

theorem filter_addNames (p : String → Bool) (names more : List String) :
    (addNames names more).filter p = addNames (names.filter p) (more.filter p) := by
  induction more generalizing names with
  | nil => rfl
  | cons name rest ih =>
      rw [addNames_cons, ih, List.filter_cons]
      cases hp : p name with
      | true =>
          have hmem : name ∈ names.filter p ↔ name ∈ names := by simp [hp]
          rw [if_pos rfl, addNames_cons]
          simp only [hmem]
          split
          · rfl
          · rw [List.filter_append, List.filter_cons_of_pos hp, List.filter_nil]
      | false =>
          rw [if_neg Bool.false_ne_true]
          split
          · rfl
          · rw [List.filter_append, List.filter_cons_of_neg (by simp [hp]), List.filter_nil,
              List.append_nil]

/-- The order of first mention does not depend on what is left out. -/
theorem filter_eraseDups (p : String → Bool) (names : List String) :
    names.eraseDups.filter p = (names.filter p).eraseDups := by
  rw [eraseDups_eq_addNames, filter_addNames, eraseDups_eq_addNames, List.filter_nil]

theorem eraseDups_of_nodup {names : List String} (h : names.Nodup) : names.eraseDups = names := by
  induction names with
  | nil => rfl
  | cons name rest ih =>
      obtain ⟨hnew, hrest⟩ := List.nodup_cons.mp h
      have hkept : rest.filter (fun other => !other == name) = rest :=
        List.filter_eq_self.mpr fun other hother => by
          have hne : other ≠ name := fun heq => hnew (heq ▸ hother)
          simp [hne]
      rw [List.eraseDups_cons, hkept, ih hrest]

/-- The tables of records, in the order in which they come to be loaded. -/
theorem eraseDups_tableOrder (order : List String) (records : List Record) :
    (tableOrder order records).eraseDups =
      order.eraseDups ++ ((records.map Record.table).removeAll order).eraseDups := by
  have hnew : (((records.map Record.table).removeAll order).eraseDups).removeAll order =
      ((records.map Record.table).removeAll order).eraseDups :=
    List.filter_eq_self.mpr fun table htable => by
      rw [List.mem_eraseDups, List.removeAll, List.mem_filter] at htable
      exact htable.2
  rw [tableOrder, addNames_eq_append, List.eraseDups_append, hnew,
    eraseDups_of_nodup (nodup_eraseDups _)]

/-! ### The batches of tables -/

variable {new : String → List Record → Batch} {records : List Record} {tables : List String}

theorem fill_cons (new : String → List Record → Batch) (records : List Record) (table : String)
    (rest : List String) :
    fill new records (table :: rest) =
      if (recordsOf records table).isEmpty then
        fill new (records.filter fun r => !(r.table == table)) rest
      else new table (recordsOf records table) ::
        fill new (records.filter fun r => !(r.table == table)) rest := by
  rw [fill, List.partition_eq_filter_filter]
  rfl

/-- The records of a table are gone when they are taken, and those of another are still there. -/
theorem recordsOf_filter_ne (records : List Record) (table t : String) :
    recordsOf (records.filter fun r => !(r.table == table)) t =
      if t = table then [] else recordsOf records t := by
  unfold recordsOf
  rw [List.filter_filter]
  split
  next h =>
    subst h
    exact List.filter_eq_nil_iff.mpr fun r _ => by simp
  next h =>
    refine List.filter_congr fun r _ => ?_
    by_cases ht : r.table = t
    · simp [ht, h]
    · simp [ht]

theorem hasTable_filter_ne (records : List Record) (table t : String) :
    hasTable (records.filter fun r => !(r.table == table)) t =
      (!t == table && hasTable records t) := by
  unfold hasTable
  rw [recordsOf_filter_ne]
  by_cases h : t = table <;> simp [h]

/-- Each table that has records gives a batch of them, where the table is first mentioned. -/
theorem fill_eq_map (new : String → List Record → Batch) (records : List Record)
    (tables : List String) :
    fill new records tables =
      (tables.eraseDups.filter (hasTable records)).map fun t => new t (recordsOf records t) := by
  induction tables generalizing records with
  | nil => rfl
  | cons table rest ih =>
      -- What is left has no record of the table, so a further mention of it gives no batch.
      have hothers : rest.eraseDups.filter
          (hasTable (records.filter fun r => !(r.table == table))) =
            (rest.filter fun t => !t == table).eraseDups.filter (hasTable records) := by
        rw [← filter_eraseDups, List.filter_filter]
        exact List.filter_congr fun t _ => by rw [hasTable_filter_ne, Bool.and_comm]
      have hrest : fill new (records.filter fun r => !(r.table == table)) rest =
          ((rest.filter fun t => !t == table).eraseDups.filter (hasTable records)).map
            fun t => new t (recordsOf records t) := by
        rw [ih, hothers]
        refine List.map_congr_left fun t ht => ?_
        have hne : t ≠ table := by
          have hmem := List.mem_eraseDups.mp (List.mem_of_mem_filter ht)
          simpa using (List.mem_filter.mp hmem).2
        rw [recordsOf_filter_ne, if_neg hne]
      rw [fill_cons, hrest, List.eraseDups_cons, List.filter_cons, hasTable]
      cases (recordsOf records table).isEmpty <;> rfl

/-- Batches for all tables of the records hold them all, each once. -/
theorem fill_perm (hnew : ∀ table own, (new table own).records = own)
    (htables : ∀ r ∈ records, r.table ∈ tables) :
    ((fill new records tables).flatMap Batch.records).Perm records := by
  induction tables generalizing records with
  | nil =>
      have hnone : records = [] := List.eq_nil_iff_forall_not_mem.mpr fun r hr => by
        cases htables r hr
      subst hnone
      exact .refl []
  | cons table rest ih =>
      have hothers : ∀ r ∈ records.filter (fun r => !(r.table == table)), r.table ∈ rest := by
        intro r hr
        obtain ⟨hr, hne⟩ := List.mem_filter.mp hr
        rcases List.mem_cons.mp (htables r hr) with heq | hrest
        · simp [heq] at hne
        · exact hrest
      have hfirst : (fill new records (table :: rest)).flatMap Batch.records =
          recordsOf records table ++
            (fill new (records.filter fun r => !(r.table == table)) rest).flatMap
              Batch.records := by
        rw [fill_cons]
        split
        next hempty => rw [List.isEmpty_iff.mp hempty, List.nil_append]
        next => rw [List.flatMap_cons, hnew]
      rw [hfirst]
      exact ((ih hothers).append_left _).trans (List.filter_append_perm _ records)

/-! ### The batches of records -/

section
variable (c : Contract) (identityTables : List String) (records : List Record)

theorem ofRecords_eq_map :
    ofRecords c identityTables records =
      ((tableOrder c.tableInsertionOrder records).eraseDups.filter (hasTable records)).map
        fun table => ⟨table, c.qualifiedTable table, recordsOf records table,
          identityTables.contains table⟩ :=
  fill_eq_map _ _ _

theorem ofRecords_perm :
    ((ofRecords c identityTables records).flatMap Batch.records).Perm records :=
  fill_perm (fun _ _ => rfl) fun _ hr => (mem_addNames _ _ _).mpr (.inr (List.mem_map_of_mem hr))

theorem hasTable_eq_decide_mem (table : String) :
    hasTable records table = decide (table ∈ records.map Record.table) := by
  rw [Bool.eq_iff_iff, hasTable_eq_true_iff, decide_eq_true_iff, List.mem_map]

theorem map_table_ofRecords :
    (ofRecords c identityTables records).map Batch.table =
      c.tableInsertionOrder.eraseDups.filter (· ∈ records.map Record.table) ++
        ((records.map Record.table).removeAll c.tableInsertionOrder).eraseDups := by
  have hothers : (((records.map Record.table).removeAll c.tableInsertionOrder).eraseDups).filter
      (hasTable records) = ((records.map Record.table).removeAll c.tableInsertionOrder).eraseDups :=
    List.filter_eq_self.mpr fun table htable => by
      rw [List.mem_eraseDups] at htable
      rw [hasTable_eq_decide_mem, decide_eq_true_iff]
      exact List.mem_of_mem_filter htable
  rw [ofRecords_eq_map, List.map_map, eraseDups_tableOrder, List.filter_append, hothers,
    funext (hasTable_eq_decide_mem records)]
  exact List.map_id _

/-- Records are parted into batches of different tables: first those of the order of insertion that
have records, in the order of first mention, then the others in the order in which the records come
to them.  A batch has the records of its table, all of them and as they stood, and has at least one;
together the batches have every record once. -/
theorem ofRecords_partition :
    (ofRecords c identityTables records).map Batch.table =
        c.tableInsertionOrder.eraseDups.filter (· ∈ records.map Record.table) ++
          ((records.map Record.table).removeAll c.tableInsertionOrder).eraseDups ∧
      ((ofRecords c identityTables records).map Batch.table).Nodup ∧
      (∀ b ∈ ofRecords c identityTables records,
        b.records ≠ [] ∧ b.records = records.filter (·.table = b.table) ∧
          b.qualifiedTable = c.qualifiedTable b.table ∧
          (b.identityInsert = true ↔ b.table ∈ identityTables)) ∧
      ((ofRecords c identityTables records).flatMap Batch.records).Perm records := by
  refine ⟨map_table_ofRecords c identityTables records, ?_, ?_,
    ofRecords_perm c identityTables records⟩
  · rw [ofRecords_eq_map, List.map_map]
    exact (List.map_id _).symm ▸ (nodup_eraseDups _).filter _
  · rw [ofRecords_eq_map]
    refine List.forall_mem_map.mpr fun table htable => ⟨?_, ?_, rfl, ?_⟩
    · obtain ⟨r, hr, htable⟩ := hasTable_eq_true_iff.mp (List.mem_filter.mp htable).2
      exact List.ne_nil_of_mem (List.mem_filter.mpr ⟨hr, beq_iff_eq.mpr htable⟩)
    · exact List.filter_congr fun r _ => rfl
    · exact List.contains_iff_mem

end

/-- A table that the order of insertion names twice is loaded once, where it is named first. -/
example :
    (ofRecords { tableInsertionOrder := ["scores", "app_base", "scores"], mappings := [] } []
        (["audit_log", "app_base", "scores", "app_base"].map Record.empty)).map
      (fun b => (b.table, b.size)) = [("scores", 1), ("app_base", 2), ("audit_log", 1)] := by
  decide

end RowContract.Batch
