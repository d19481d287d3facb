import RowContract.Batch
import RowContract.Proofs.Fields

/-!
The columns of a batch are those of its records.  Where records come table by table, the batches
are the blocks of the tables that have records.
-/

namespace RowContract

theorem Record.getOrNull_of_not_mem {r : Record} {column : String}
    (h : column ∉ r.columnNames) : r.getOrNull column = .null := by
  have hmissing : r.get? column = none := by
    rw [← Option.not_isSome_iff_eq_none]
    exact fun hsome => h ((Fields.mem_names_iff r.columns column).mpr hsome)
  rw [getOrNull, hmissing]
  rfl

namespace Batch

theorem mem_addNames (names more : List String) (name : String) :
    name ∈ addNames names more ↔ name ∈ names ∨ name ∈ more := by
  induction more generalizing names with
  | nil => simp [addNames]
  | cons n r ih =>
      have hrest := ih (if names.contains n then names else names ++ [n])
      rw [addNames, List.foldl_cons, ← addNames, hrest, List.mem_cons]
      by_cases h : n ∈ names
      · simp only [List.contains_iff_mem, h, if_true]
        constructor
        · rintro (hname | hname)
          · exact .inl hname
          · exact .inr (.inr hname)
        · rintro (hname | rfl | hname)
          · exact .inl hname
          · exact .inl h
          · exact .inr hname
      · simp only [List.contains_iff_mem, h, if_false, List.mem_append, List.mem_singleton,
          or_assoc]

theorem addNames_cons (names : List String) (name : String) (more : List String) :
    addNames names (name :: more) =
      addNames (if name ∈ names then names else names ++ [name]) more := by
  simp only [addNames, List.foldl_cons, List.contains_iff_mem]

theorem addNames_append (names more rest : List String) :
    addNames names (more ++ rest) = addNames (addNames names more) rest :=
  List.foldl_append

theorem addNames_of_forall_mem {names more : List String} (h : ∀ name ∈ more, name ∈ names) :
    addNames names more = names := by
  induction more with
  | nil => rfl
  | cons name rest ih =>
      obtain ⟨hname, hrest⟩ := List.forall_mem_cons.mp h
      rw [addNames_cons, if_pos hname, ih hrest]

/-- A name that comes again and again is added once. -/
theorem addNames_of_forall_eq {names more : List String} {name : String}
    (h : ∀ other ∈ more, other = name) (hne : more ≠ []) (hnew : name ∉ names) :
    addNames names more = names ++ [name] := by
  cases more with
  | nil => exact absurd rfl hne
  | cons first rest =>
      obtain ⟨rfl, hrest⟩ := List.forall_mem_cons.mp h
      rw [addNames_cons, if_neg hnew]
      refine addNames_of_forall_mem fun other hother => ?_
      rw [hrest other hother]
      exact List.mem_append_right _ List.mem_cons_self

theorem nodup_addNames {names : List String} (h : names.Nodup) (more : List String) :
    (addNames names more).Nodup := by
  induction more generalizing names with
  | nil => exact h
  | cons name rest ih =>
      rw [addNames_cons]
      split
      · exact ih h
      next hnew =>
        refine ih (List.nodup_append.mpr ⟨h, List.nodup_singleton name, ?_⟩)
        rintro other hother _ hname rfl
        exact hnew (List.mem_singleton.mp hname ▸ hother)

theorem prefix_addNames (names more : List String) : names <+: addNames names more := by
  induction more generalizing names with
  | nil => exact List.prefix_refl names
  | cons name rest ih =>
      rw [addNames_cons]
      split
      · exact ih names
      · exact (List.prefix_append names [name]).trans (ih _)

theorem mem_columns (b : Batch) (column : String) :
    column ∈ b.columns ↔ ∃ r ∈ b.records, column ∈ r.columnNames := by
  have hfold (names : List String) (records : List Record) :
      column ∈ records.foldl (fun names r => addNames names r.columnNames) names ↔
        column ∈ names ∨ ∃ r ∈ records, column ∈ r.columnNames := by
    induction records generalizing names with
    | nil => simp
    | cons r rest ih =>
        rw [List.foldl_cons, ih, mem_addNames]
        simp [or_assoc]
  rw [columns, hfold]
  simp

/-- Each column comes once. -/
theorem nodup_columns (b : Batch) : b.columns.Nodup := by
  have hfold (names : List String) (records : List Record) (h : names.Nodup) :
      (records.foldl (fun names r => addNames names r.columnNames) names).Nodup := by
    induction records generalizing names with
    | nil => exact h
    | cons r rest ih => exact ih _ (nodup_addNames h _)
  exact hfold [] b.records List.nodup_nil

/-- What all records carry is among the columns, if there is a record. -/
theorem mem_columns_of_carried {b : Batch} {r : Record} (hr : r ∈ b.records) {column : String}
    (h : (r.get? column).isSome = true) : column ∈ b.columns :=
  (mem_columns b column).mpr ⟨r, hr, (Fields.mem_names_iff r.columns column).mpr h⟩

/-- A record has no value for what is not a column of its batch. -/
theorem getOrNull_of_not_mem_columns {b : Batch} {r : Record} (hr : r ∈ b.records)
    {column : String} (h : column ∉ b.columns) : r.getOrNull column = .null :=
  r.getOrNull_of_not_mem fun hcolumn => h ((mem_columns b column).mpr ⟨r, hr, hcolumn⟩)

/-! ### Records that come table by table -/

/-- Records come table by table, in the order of some tables. -/
inductive Grouped : List String → List Record → Prop where
  | nil : Grouped [] []
  | cons {table : String} {tables : List String} {own others : List Record}
      (hown : ∀ r ∈ own, r.table = table) (hothers : Grouped tables others) :
      Grouped (table :: tables) (own ++ others)

def recordsOf (records : List Record) (table : String) : List Record :=
  records.filter fun r => r.table == table

def hasTable (records : List Record) (table : String) : Bool := !(recordsOf records table).isEmpty

variable {tables : List String} {own others records : List Record} {table : String}

theorem hasTable_eq_true_iff : hasTable records table = true ↔ ∃ r ∈ records, r.table = table := by
  rw [hasTable, Bool.not_eq_true', List.isEmpty_eq_false_iff, ne_eq, recordsOf,
    List.filter_eq_nil_iff]
  simp only [beq_iff_eq, not_forall, not_not, exists_prop]

theorem recordsOf_eq_self (h : ∀ r ∈ records, r.table = table) :
    recordsOf records table = records :=
  List.filter_eq_self.mpr fun r hr => beq_iff_eq.mpr (h r hr)

theorem recordsOf_eq_nil (h : ∀ r ∈ records, r.table ≠ table) : recordsOf records table = [] :=
  List.filter_eq_nil_iff.mpr fun r hr => by rw [beq_iff_eq]; exact h r hr

theorem recordsOf_append :
    recordsOf (own ++ others) table = recordsOf own table ++ recordsOf others table :=
  List.filter_append ..

theorem Grouped.mem_tables (h : Grouped tables records) : ∀ r ∈ records, r.table ∈ tables := by
  induction h with
  | nil => exact List.forall_mem_nil _
  | cons hown _ ih =>
      refine List.forall_mem_append.mpr ⟨fun r hr => ?_, fun r hr => ?_⟩
      · rw [hown r hr]
        exact List.mem_cons_self
      · exact List.mem_cons_of_mem _ (ih r hr)

/-- The first table has the records before the others, and these have none of it. -/
theorem Grouped.recordsOf_cons (hown : ∀ r ∈ own, r.table = table)
    (hothers : Grouped tables others) (hnodup : (table :: tables).Nodup) :
    recordsOf (own ++ others) table = own ∧
      ∀ t ∈ tables, recordsOf (own ++ others) t = recordsOf others t := by
  obtain ⟨hnew, -⟩ := List.nodup_cons.mp hnodup
  have hnone : recordsOf others table = [] := by
    refine recordsOf_eq_nil fun r hr heq => ?_
    exact hnew (heq ▸ hothers.mem_tables r hr)
  constructor
  · rw [recordsOf_append, recordsOf_eq_self hown, hnone, List.append_nil]
  · intro t ht
    have hother : recordsOf own t = [] := by
      refine recordsOf_eq_nil fun r hr heq => ?_
      exact hnew (hown r hr ▸ heq ▸ ht)
    rw [recordsOf_append, hother, List.nil_append]

/-- What the records of a table add to some names. -/
theorem addNames_own (hown : ∀ r ∈ own, r.table = table) (names : List String) :
    addNames names (own.map Record.table) =
      if own.isEmpty || names.contains table then names else names ++ [table] := by
  have hall : ∀ t ∈ own.map Record.table, t = table := List.forall_mem_map.mpr hown
  by_cases hin : table ∈ names
  · rw [addNames_of_forall_mem fun t ht => hall t ht ▸ hin, List.contains_iff_mem.mpr hin,
      Bool.or_true, if_pos rfl]
  · cases own with
    | nil => rfl
    | cons r rest =>
        have hcontains : names.contains table = false := by
          rwa [Bool.eq_false_iff, ne_eq, List.contains_iff_mem]
        rw [addNames_of_forall_eq hall (List.cons_ne_nil _ _) hin, hcontains]
        rfl

/-- The tables that records add to some names are those not yet there, in the order of the
tables. -/
theorem Grouped.addNames_eq (h : Grouped tables records) (hnodup : tables.Nodup)
    (names : List String) :
    addNames names (records.map Record.table) =
      names ++ tables.filter fun t => hasTable records t && !names.contains t := by
  induction h generalizing names with
  | nil => exact (List.append_nil names).symm
  | @cons first tables own others hown hothers ih =>
      obtain ⟨hfirst, hrest⟩ := hothers.recordsOf_cons hown hnodup
      obtain ⟨hnew, htables⟩ := List.nodup_cons.mp hnodup
      -- The names grow block by block, and what the first block adds is no later table.
      have hkept (more : List String) (hmore : ∀ t ∈ tables, more.contains t = names.contains t) :
          tables.filter (fun t => hasTable others t && !more.contains t) =
            tables.filter fun t => hasTable (own ++ others) t && !names.contains t :=
        List.filter_congr fun t ht => by rw [hasTable, hasTable, hrest t ht, hmore t ht]
      rw [List.map_append, addNames_append, addNames_own hown, List.filter_cons, hasTable, hfirst,
        ← Bool.not_or]
      cases own.isEmpty || names.contains first with
      | true =>
          rw [if_pos rfl, if_neg (by decide), ih htables, hkept names fun _ _ => rfl]
      | false =>
          have hcontains : ∀ t ∈ tables, (names ++ [first]).contains t = names.contains t := by
            intro t ht
            have hne : t ≠ first := fun heq => hnew (heq ▸ ht)
            simp [hne]
          rw [if_neg (by decide), if_pos (by decide), ih htables, hkept _ hcontains,
            List.append_assoc]
          rfl

/-- The tables with records are those of the order of insertion that have some, and the other tables
of the records. -/
theorem Grouped.filter_tableOrder {order more : List String}
    (h : Grouped (addNames order more) records) (horder : order.Nodup) :
    (tableOrder order records).filter (hasTable records) =
      (addNames order more).filter (hasTable records) := by
  have hnodup := nodup_addNames horder more
  obtain ⟨rest, hrest⟩ := prefix_addNames order more
  rw [tableOrder, h.addNames_eq hnodup, ← hrest]
  rw [← hrest, List.nodup_append] at hnodup
  have hordered : order.filter (fun t => hasTable records t && !order.contains t) = [] := by
    rw [List.filter_eq_nil_iff]
    intro t ht
    rw [List.contains_iff_mem.mpr ht, Bool.not_true, Bool.and_false]
    exact Bool.false_ne_true
  have hothers : rest.filter (fun t => hasTable records t && !order.contains t) =
      rest.filter (hasTable records) := by
    refine List.filter_congr fun t ht => ?_
    have hnot : order.contains t = false := by
      rw [Bool.eq_false_iff, ne_eq, List.contains_iff_mem]
      exact fun hin => hnodup.2.2 t hin t ht rfl
    rw [hnot, Bool.not_false, Bool.and_true]
  simp only [List.filter_append, hordered, hothers, List.nil_append, List.filter_filter,
    Bool.and_self]

/-- The records of the tables that have some are all records, in their order. -/
theorem Grouped.flatMap_recordsOf (h : Grouped tables records) (hnodup : tables.Nodup) :
    (tables.filter (hasTable records)).flatMap (recordsOf records) = records := by
  induction h with
  | nil => rfl
  | @cons first tables own others hown hothers ih =>
      obtain ⟨hfirst, hrest⟩ := hothers.recordsOf_cons hown hnodup
      have hkept : (tables.filter (hasTable (own ++ others))).flatMap (recordsOf (own ++ others)) =
          others := by
        have hfilter : tables.filter (hasTable (own ++ others)) = tables.filter (hasTable others) :=
          List.filter_congr fun t ht => by rw [hasTable, hasTable, hrest t ht]
        rw [hfilter, List.flatMap_congr fun t ht => hrest t (List.mem_of_mem_filter ht),
          ih (List.nodup_cons.mp hnodup).2]
      rw [List.filter_cons, hasTable, hfirst]
      cases hempty : own.isEmpty with
      | true =>
          rw [List.isEmpty_iff] at hempty
          subst hempty
          exact hkept
      | false =>
          rw [Bool.not_false, if_pos rfl, List.flatMap_cons, hfirst, hkept]

end Batch

end RowContract
