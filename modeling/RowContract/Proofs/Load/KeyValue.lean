import RowContract.Proofs.Load.Keys

/-!
Tables of keys with values keep the last write.  The invariant says what such a table
holds after any records were sent: a row for each key, in the order in which the keys
came first.  A record with a new key is appended; one with a key that is there already
is refused by the database, and the update that takes its place finds the row of the
key, also where parts of the key are missing.
-/

namespace RowContract

open Sql (IsPlain)

/-- The row of the first record with a key, when all of some records have been sent: the columns of
the values are those of the last record with the key, the others its own. -/
def Submission.Describes (kv : KeyValueTable) (all : List Submission) (first : Submission)
    (row : Fields Value) : Prop :=
  ∀ column, row.get? column =
    if column ∈ kv.valueColumns then
      some ((lastLike kv.keyColumns all first).record.getOrNull column)
    else if column ∈ first.columns then some (first.record.getOrNull column)
    else none

/-- A database that keeps the keys of a table apart, after some records of the table have been sent
to it: the last write of a key is there. -/
structure Memory.LastWrites (m : Memory) (table : String) (kv : KeyValueTable)
    (all : List Submission) : Prop where
  keepsApart : m.KeepsApart table kv.keyColumns
  carried : ∀ a ∈ all, ∀ column ∈ kv.keyColumns, column ∈ a.columns
  rows : List.Forall₂ (Submission.Describes kv all) (Submission.firsts kv.keyColumns all)
    (m.rows table)

/-- A task for a table of keys with values, all of which are among the columns of the statement. -/
structure LoadTask.WritesKeys (t : LoadTask) (kv : KeyValueTable) (order : List String) :
    Prop where
  configured : t.settings.keyValueTable? t.table = some kv
  statement : t.statement = .make t.qualifiedTable order
  table_plain : ' ' ∉ t.qualifiedTable.toList
  columns_plain : ∀ column ∈ order, IsPlain column
  keys_ne_nil : kv.keyColumns ≠ []
  values_ne_nil : kv.valueColumns ≠ []
  disjoint : ∀ column ∈ kv.keyColumns, column ∉ kv.valueColumns
  keys_mem : ∀ column ∈ kv.keyColumns, column ∈ order
  values_mem : ∀ column ∈ kv.valueColumns, column ∈ order

namespace LoadTask

variable {t : LoadTask} {kv : KeyValueTable} {order : List String}

namespace WritesKeys

variable (ht : t.WritesKeys kv order)
include ht

theorem columns_eq : t.statement.columns = order := by
  rw [ht.statement]
  rfl

theorem updateValues_row (r : Record) :
    t.updateValues kv (Batch.row order r) =
      kv.valueColumns.map fun column => (column, r.getOrNull column) := by
  have hvalues : kv.valueColumns.filter (· ∈ order) = kv.valueColumns :=
    List.filter_eq_self.mpr fun column hcolumn => decide_eq_true (ht.values_mem column hcolumn)
  rw [LoadTask.updateValues_row ht.columns_eq, hvalues]

theorem updateKeys_row (r : Record) :
    t.updateKeys kv (Batch.row order r) =
      kv.keyColumns.map fun column => (column, r.getOrNull column) :=
  LoadTask.updateKeys_row ht.columns_eq fun column hcolumn hmissing =>
    absurd (ht.keys_mem column hcolumn) hmissing

end WritesKeys

end LoadTask

/-! ### The rows of a table -/

namespace Submission

variable {kv : KeyValueTable} {all : List Submission} {first a : Submission} {row : Fields Value}

theorem Describes.cell_eq (h : first.Describes kv all row) {column : String}
    (hvalue : column ∉ kv.valueColumns) (hcolumn : column ∈ first.columns) :
    Memory.cell row column = first.record.getOrNull column := by
  rw [Memory.cell, h column, if_neg hvalue, if_pos hcolumn]
  rfl

/-- A row has the key of its first record. -/
theorem Describes.sameKey_eq (h : first.Describes kv all row)
    (hdisjoint : ∀ column ∈ kv.keyColumns, column ∉ kv.valueColumns)
    (hfirst : ∀ column ∈ kv.keyColumns, column ∈ first.columns) {other : Fields Value}
    (hother : ∀ column ∈ kv.keyColumns, Memory.cell other column = a.record.getOrNull column) :
    Memory.sameKey kv.keyColumns row other = first.sameKey kv.keyColumns a := by
  unfold sameKey Memory.sameKey
  rw [Bool.eq_iff_iff, List.all_eq_true, List.all_eq_true]
  refine forall₂_congr fun column hcolumn => ?_
  rw [h.cell_eq (hdisjoint column hcolumn) (hfirst column hcolumn), hother column hcolumn]
  rfl

theorem describes_new {order : List String} (horder : ∀ column, column ∈ order ↔ column ∈ a.columns)
    (hvalues : ∀ column ∈ kv.valueColumns, column ∈ order) :
    a.Describes kv (all ++ [a]) (order.zip (Batch.row order a.record)) := by
  intro column
  rw [lastLike_concat_of_same _ (sameKey_refl _ a), Batch.row, Fields.get?_zip_map]
  by_cases hvalue : column ∈ kv.valueColumns
  · rw [if_pos hvalue, if_pos (hvalues column hvalue)]
  · simp only [hvalue, if_false, horder]

/-- A record with another key leaves the row as it is. -/
theorem Describes.concat (h : first.Describes kv all row)
    (ha : first.sameKey kv.keyColumns a = false) : first.Describes kv (all ++ [a]) row := by
  intro column
  rw [lastLike_concat_of_not_same _ ha]
  exact h column

theorem Describes.update (h : first.Describes kv all row)
    (ha : first.sameKey kv.keyColumns a = true) :
    first.Describes kv (all ++ [a])
      (row.setAll (kv.valueColumns.map fun column => (column, a.record.getOrNull column))) := by
  intro column
  rw [lastLike_concat_of_same _ ha, Fields.get?_setAll_map]
  by_cases hvalue : column ∈ kv.valueColumns
  · rw [if_pos hvalue, if_pos hvalue]
  · rw [if_neg hvalue, if_neg hvalue, h column, if_neg hvalue]

end Submission

/-! ### One record more -/

namespace Memory.LastWrites

variable {m : Memory} {table : String} {kv : KeyValueTable} {all : List Submission}
  (hm : m.LastWrites table kv all)
include hm

theorem carried_concat {a : Submission}
    (hcarried : ∀ column ∈ kv.keyColumns, column ∈ a.columns) :
    ∀ b ∈ all ++ [a], ∀ column ∈ kv.keyColumns, column ∈ b.columns :=
  List.forall_mem_append.mpr ⟨hm.carried, List.forall_mem_singleton.mpr hcarried⟩

/-- Every row of the table has the key of its first record. -/
theorem rows_sameKey (hdisjoint : ∀ column ∈ kv.keyColumns, column ∉ kv.valueColumns)
    {a : Submission} {other : Fields Value}
    (hother : ∀ column ∈ kv.keyColumns, cell other column = a.record.getOrNull column) :
    List.Forall₂
      (fun first row => first.Describes kv all row ∧
        sameKey kv.keyColumns row other = first.sameKey kv.keyColumns a)
      (Submission.firsts kv.keyColumns all) (m.rows table) := by
  have hcarried : ∀ first ∈ Submission.firsts kv.keyColumns all,
      ∀ column ∈ kv.keyColumns, column ∈ first.columns :=
    fun first hfirst => hm.carried first (Submission.mem_of_mem_firsts _ hfirst)
  refine ((List.forall₂_and_left _ _).mpr ⟨hcarried, hm.rows⟩).imp fun first row h => ?_
  exact ⟨h.2, h.2.sameKey_eq hdisjoint h.1 hother⟩

/-- A row with a new key goes to the end. -/
theorem store {a : Submission} {row : Fields Value}
    (hcarried : ∀ column ∈ kv.keyColumns, column ∈ a.columns)
    (hrows : List.Forall₂
      (fun first row => first.Describes kv all row ∧ first.sameKey kv.keyColumns a = false)
      (Submission.firsts kv.keyColumns all) (m.rows table))
    (hnew : (Submission.firsts kv.keyColumns all).any (fun b => b.sameKey kv.keyColumns a) = false)
    (hrow : a.Describes kv (all ++ [a]) row) :
    (m.store table [row]).LastWrites table kv (all ++ [a]) where
  keepsApart := hm.keepsApart.store [row]
  carried := hm.carried_concat hcarried
  rows := by
    rw [rows_store, Submission.firsts_concat, hnew, if_neg Bool.false_ne_true]
    refine List.rel_append (hrows.imp fun first row h => h.1.concat h.2) ?_
    exact .cons hrow .nil

/-- The row of a key that is there already gets the new values. -/
theorem update {a : Submission} {change : Fields Value → Fields Value}
    (hcarried : ∀ column ∈ kv.keyColumns, column ∈ a.columns)
    (hrows : List.Forall₂ (fun first row => first.Describes kv (all ++ [a]) (change row))
      (Submission.firsts kv.keyColumns all) (m.rows table))
    (hold : (Submission.firsts kv.keyColumns all).any (fun b => b.sameKey kv.keyColumns a) = true) :
    LastWrites { m with tables := m.tables.set table ((m.rows table).map change) } table kv
      (all ++ [a]) where
  keepsApart := hm.keepsApart.withTables _
  carried := hm.carried_concat hcarried
  rows := by
    rw [Submission.firsts_concat, hold, if_pos rfl]
    simp only [Memory.rows, Fields.get?_set_same, Option.getD_some]
    exact List.forall₂_map_right_iff.mpr hrows

end Memory.LastWrites

namespace LoadTask.WritesKeys

variable {t : LoadTask} {kv : KeyValueTable} {order : List String} (ht : t.WritesKeys kv order)
include ht

/-- The insert of a record is refused only for its key. -/
theorem execute_insertion_eq {m : Memory} {all : List Submission}
    (hm : m.LastWrites t.qualifiedTable kv all) (r : Record) :
    Memory.execute (t.insertion (Batch.row order r)) m =
      if (m.rows t.qualifiedTable).any fun other =>
        Memory.sameKey kv.keyColumns other (order.zip (Batch.row order r)) then
        (.error (Memory.duplicateError t.qualifiedTable), m)
      else (.ok 1, m.store t.qualifiedTable [order.zip (Batch.row order r)]) :=
  execute_insertion_row ht.statement ht.table_plain ht.columns_plain hm.keepsApart r

/-- The update that takes the place of an insert is about the rows with the key of the record. -/
theorem execute_compensation_eq (r : Record) {m : Memory} {rows : List (Fields Value)}
    (hrows : m.tables.get? t.qualifiedTable = some rows) :
    ∃ u : Memory.Update,
      (∀ row, u.concerns row = Memory.sameKey kv.keyColumns row r.columns) ∧
      u.sets = (kv.valueColumns.map fun column => (column, r.getOrNull column)) ∧
      Memory.execute (t.compensation kv (Batch.row order r)) m =
        (.ok (rows.filter u.concerns).length,
          { m with tables := m.tables.set t.qualifiedTable (rows.map u.apply) }) := by
  refine ⟨⟨t.qualifiedTable, kv.valueColumns.map fun column => (column, r.getOrNull column),
    kv.keyColumns.map fun column => (column, r.getOrNull column)⟩, fun row => ?_, rfl, ?_⟩
  · rw [Memory.Update.concerns, List.all_map]
    rfl
  · rw [compensation, ht.updateValues_row, ht.updateKeys_row]
    refine Memory.execute_updateCommand ht.table_plain ?_ ?_ ?_ hrows
    · simpa using ht.values_ne_nil
    · simpa using ht.keys_ne_nil
    · intro v hv
      rw [← List.map_append] at hv
      obtain ⟨column, hcolumn, rfl⟩ := List.mem_map.mp hv
      refine ht.columns_plain column ?_
      rcases List.mem_append.mp hcolumn with hcolumn | hcolumn
      · exact ht.values_mem column hcolumn
      · exact ht.keys_mem column hcolumn

/-- A record with a new key is inserted. -/
theorem loadRow_new {m : Memory} {all : List Submission}
    (hm : m.LastWrites t.qualifiedTable kv all) {a : Submission}
    (hcolumns : ∀ column, column ∈ order ↔ column ∈ a.columns)
    (hnew : (Submission.firsts kv.keyColumns all).any (fun b => b.sameKey kv.keyColumns a) = false)
    (hany : ((m.rows t.qualifiedTable).any fun other =>
      Memory.sameKey kv.keyColumns other (order.zip (Batch.row order a.record))) = false) :
    ∃ m', t.loadRow (Batch.row order a.record) m = .ok (1, m') ∧
      m'.LastWrites t.qualifiedTable kv (all ++ [a]) := by
  refine ⟨m.store t.qualifiedTable [order.zip (Batch.row order a.record)], ?_, ?_⟩
  · rw [loadRow, ht.execute_insertion_eq hm, hany, if_neg Bool.false_ne_true]
  · have hother : ∀ first ∈ Submission.firsts kv.keyColumns all,
        first.sameKey kv.keyColumns a = false := by
      intro first hfirst
      exact Bool.eq_false_iff.mpr fun h => List.any_eq_false.mp hnew first hfirst h
    refine hm.store (fun column hcolumn => (hcolumns column).mp (ht.keys_mem column hcolumn)) ?_
      hnew (Submission.describes_new hcolumns ht.values_mem)
    exact ((List.forall₂_and_left _ _).mpr ⟨hother, hm.rows⟩).imp fun _ _ h => h.symm

/-- A record with a key that is there already becomes an update of its row. -/
theorem loadRow_old {m : Memory} {all : List Submission}
    (hm : m.LastWrites t.qualifiedTable kv all) {a : Submission}
    (hcolumns : ∀ column, column ∈ order ↔ column ∈ a.columns)
    (hold : (Submission.firsts kv.keyColumns all).any (fun b => b.sameKey kv.keyColumns a) = true)
    (hany : ((m.rows t.qualifiedTable).any fun other =>
      Memory.sameKey kv.keyColumns other (order.zip (Batch.row order a.record))) = true) :
    ∃ m', t.loadRow (Batch.row order a.record) m = .ok (1, m') ∧
      m'.LastWrites t.qualifiedTable kv (all ++ [a]) := by
  have hget : m.tables.get? t.qualifiedTable = some (m.rows t.qualifiedTable) := by
    unfold Memory.rows at hany ⊢
    cases hget : m.tables.get? t.qualifiedTable with
    | none =>
        rw [hget] at hany
        cases hany
    | some rows => rfl
  -- The row that refuses the insert is the one that the update finds.
  obtain ⟨u, hconcerns, hsets, hexecute⟩ := ht.execute_compensation_eq a.record hget
  have hpairs := hm.rows_sameKey ht.disjoint (a := a) (fun _ _ => (rfl :
    Memory.cell a.record.columns _ = _))
  have hpositive : 0 < ((m.rows t.qualifiedTable).filter u.concerns).length := by
    have hrow : ((m.rows t.qualifiedTable).any u.concerns) = true := by
      rw [← hold]
      exact any_eq_of_forall₂ (hpairs.imp fun first row h => (hconcerns row).trans h.2)
    obtain ⟨row, hrow, hc⟩ := List.any_eq_true.mp hrow
    exact List.length_pos_of_mem (List.mem_filter.mpr ⟨hrow, hc⟩)
  refine ⟨{ m with
    tables := m.tables.set t.qualifiedTable ((m.rows t.qualifiedTable).map u.apply) }, ?_, ?_⟩
  · have hkey : LoadFault.classify (Memory.duplicateError t.qualifiedTable) = .primaryKey := rfl
    have hvalues : t.updateValues kv (Batch.row order a.record) ≠ [] := by
      rw [ht.updateValues_row]
      simpa using ht.values_ne_nil
    rw [loadRow, ht.execute_insertion_eq hm, hany, if_pos rfl]
    dsimp only
    rw [loadRefused, if_pos hkey, ht.configured]
    dsimp only
    rw [loadUpdate, if_neg hvalues, hexecute]
    dsimp only
    rw [Nat.min_eq_right hpositive]
  · refine hm.update (fun column hcolumn => (hcolumns column).mp (ht.keys_mem column hcolumn)) ?_
      hold
    refine hpairs.imp fun first row h => ?_
    -- Only the row with the key of the record is written to; the others have other keys.
    rw [Memory.Update.apply, hconcerns, h.2, hsets]
    split
    · rename_i hsame
      exact h.1.update hsame
    · rename_i hother
      exact h.1.concat (Bool.eq_false_iff.mpr hother)

/-- One record more is applied, and the table keeps the last write. -/
theorem loadRow_lastWrites {m : Memory} {all : List Submission}
    (hm : m.LastWrites t.qualifiedTable kv all) {a : Submission}
    (hcolumns : ∀ column, column ∈ order ↔ column ∈ a.columns) :
    ∃ m', t.loadRow (Batch.row order a.record) m = .ok (1, m') ∧
      m'.LastWrites t.qualifiedTable kv (all ++ [a]) := by
  have hcell : ∀ column ∈ kv.keyColumns,
      Memory.cell (order.zip (Batch.row order a.record)) column = a.record.getOrNull column := by
    intro column hcolumn
    rw [Memory.cell, Batch.row, Fields.get?_zip_map, if_pos (ht.keys_mem column hcolumn)]
    rfl
  have hany := any_eq_of_forall₂
    ((hm.rows_sameKey ht.disjoint hcell).imp fun first row h => h.2)
  cases hfirst : (Submission.firsts kv.keyColumns all).any
      (fun b => b.sameKey kv.keyColumns a) with
  | false => exact ht.loadRow_new hm hcolumns hfirst (hany.trans hfirst)
  | true => exact ht.loadRow_old hm hcolumns hfirst (hany.trans hfirst)

/-- So are all records of a batch. -/
theorem loadRows_lastWrites {columns : List String}
    (hcolumns : ∀ column, column ∈ order ↔ column ∈ columns) (records : List Record) {m : Memory}
    {all : List Submission} (hm : m.LastWrites t.qualifiedTable kv all) :
    ∃ m', t.loadRows (records.map (Batch.row order)) m = .ok (records.length, m') ∧
      m'.LastWrites t.qualifiedTable kv (all ++ records.map fun r => ⟨columns, r⟩) := by
  induction records generalizing m all with
  | nil => exact ⟨m, rfl, by rwa [List.map_nil, List.append_nil]⟩
  | cons r rest ih =>
      obtain ⟨first, hfirst, hm⟩ := ht.loadRow_lastWrites hm (a := ⟨columns, r⟩) hcolumns
      obtain ⟨last, hlast, hm⟩ := ih hm
      refine ⟨last, ?_, ?_⟩
      · dsimp only at hfirst
        rw [List.map_cons, loadRows, hfirst, Verdict.andThen_ok, hlast]
        simp [Except.map, Nat.add_comm]
      · rwa [List.append_assoc] at hm

end LoadTask.WritesKeys

/-! ### Batches -/

namespace Memory.LastWrites

variable {m : Memory} {table : String} {kv : KeyValueTable} {all : List Submission}

theorem withIdentityOn (hm : m.LastWrites table kv all) (tables : List String) :
    LastWrites { m with identityOn := tables } table kv all :=
  ⟨hm.keepsApart.withIdentityOn tables, hm.carried, hm.rows⟩

theorem slow_iff : m.slow.LastWrites table kv all ↔ m.LastWrites table kv all :=
  ⟨fun hm => ⟨KeepsApart.slow_iff.mp hm.keepsApart, hm.carried, hm.rows⟩,
    fun hm => ⟨KeepsApart.slow_iff.mpr hm.keepsApart, hm.carried, hm.rows⟩⟩

end Memory.LastWrites

theorem LoadTask.WritesKeys.loadBatch_lastWrites {t : LoadTask} {kv : KeyValueTable}
    {order : List String} (ht : t.WritesKeys kv order) {b : Batch}
    (hcolumns : ∀ column, column ∈ order ↔ column ∈ b.columns) {m : Memory}
    {all : List Submission} (hm : m.LastWrites t.qualifiedTable kv all) :
    ∃ m', t.loadBatch b m = .ok (b.size, m') ∧
      m'.LastWrites t.qualifiedTable kv (all ++ b.submissions) := by
  have hrows : ∀ tables, ∃ n m',
      t.loadRows (b.records.map (Batch.row t.statement.columns)) { m with identityOn := tables } =
        .ok (n, m') ∧ m'.failIdentityOff = false ∧
        (n = b.size ∧ m'.LastWrites t.qualifiedTable kv (all ++ b.submissions)) := by
    intro tables
    obtain ⟨m', hrows, hm'⟩ := ht.loadRows_lastWrites hcolumns b.records (hm.withIdentityOn tables)
    rw [ht.columns_eq]
    exact ⟨b.size, m', hrows, hm'.keepsApart.failIdentityOff, rfl, hm'⟩
  obtain ⟨n, m', hload, rfl, hm'⟩ := loadBatch_of_loadRows hm.keepsApart.failIdentityOff hrows
    fun n m' tables h => ⟨h.1, h.2.withIdentityOn tables⟩
  exact ⟨m', hload, hm'⟩

/-- A batch of a table of keys with values, under settings that say so: the names are plain, and
every record has all columns of the key and of the values. -/
structure Batch.CarriesKeys (b : Batch) (settings : LoaderSettings) (kv : KeyValueTable)
    (qualifiedTable : String) : Prop where
  configured : settings.keyValueTable? b.table = some kv
  qualifiedTable_eq : b.qualifiedTable = qualifiedTable
  columns_plain : ∀ column ∈ b.columns, IsPlain column
  carried : ∀ r ∈ b.records, ∀ column ∈ kv.keyColumns ++ kv.valueColumns,
    (r.get? column).isSome = true

namespace Loader

section
variable {kv : KeyValueTable} {table : String}
  (hkeys : kv.keyColumns ≠ []) (hvalues : kv.valueColumns ≠ [])
  (hdisjoint : ∀ column ∈ kv.keyColumns, column ∉ kv.valueColumns)
  (htable : ' ' ∉ table.toList)
include hkeys hvalues hdisjoint htable

/-- The load of a batch applies all its records, and the table keeps the last write. -/
theorem load_lastWrites {l : Loader} (hcache : l.cache.Reachable) {b : Batch}
    (hb : b.CarriesKeys l.settings kv table) {s : Session Memory} {all : List Submission}
    (hm : s.cursor.LastWrites table kv all) :
    (l.load Memory.cursor b s).value.1 = .ok b.size ∧
      (l.load Memory.cursor b s).session.cursor.LastWrites table kv (all ++ b.submissions) := by
  cases hempty : b.records.isEmpty with
  | true =>
      have hrecords := List.isEmpty_iff.mp hempty
      rw [load_of_isEmpty Memory.cursor l hempty]
      simp only [Batch.size, Batch.submissions, hrecords, List.map_nil, List.append_nil]
      exact ⟨rfl, hm⟩
  | false =>
      obtain ⟨hconfigured, rfl, hplain, hcarried⟩ := hb
      obtain ⟨r, rest, hrecords⟩ :=
        List.exists_cons_of_ne_nil (List.isEmpty_eq_false_iff.mp hempty)
      have hr : r ∈ b.records := hrecords ▸ List.mem_cons_self
      obtain ⟨order, horder, htask⟩ := prepare_eq_task hcache b
      have hmem (column : String) (hcolumn : column ∈ kv.keyColumns ++ kv.valueColumns) :
          column ∈ order :=
        horder.mem_iff.mpr (Batch.mem_columns_of_carried hr (hcarried r hr column hcolumn))
      have ht : (l.task b order).WritesKeys kv order :=
        { configured := hconfigured
          statement := rfl
          table_plain := htable
          columns_plain := fun column hcolumn => hplain column (horder.mem_iff.mp hcolumn)
          keys_ne_nil := hkeys
          values_ne_nil := hvalues
          disjoint := hdisjoint
          keys_mem := fun column hcolumn => hmem column (List.mem_append_left _ hcolumn)
          values_mem := fun column hcolumn => hmem column (List.mem_append_right _ hcolumn) }
      obtain ⟨m', hbatch, hm'⟩ :=
        ht.loadBatch_lastWrites (fun column => horder.mem_iff) (Memory.LastWrites.slow_iff.mpr hm)
      have hverdict := verdict_of_not_isEmpty hcache hempty hm.keepsApart.retriable
      rw [htask, hbatch] at hverdict
      obtain ⟨hvalue, hcursor⟩ := of_verdict_eq_ok hverdict
      rw [Nat.min_self] at hvalue
      exact ⟨hvalue, Memory.LastWrites.slow_iff.mp (hcursor ▸ hm')⟩

/-- So does any sequence of loads. -/
theorem loadEach_invariant {l : Loader} (hcache : l.cache.Reachable)
    {loads : List (LoaderSettings × Batch)}
    (hloads : ∀ load ∈ loads, load.2.CarriesKeys load.1 kv table) {s : Session Memory}
    {all : List Submission} (hm : s.cursor.LastWrites table kv all) :
    (l.loadEach Memory.cursor loads s).value.1 = loads.map (fun load => .ok load.2.size) ∧
      (l.loadEach Memory.cursor loads s).session.cursor.LastWrites table kv
        (all ++ submissions loads) := by
  refine loadEach_induction (P := fun loads results (s : Session Memory) =>
    results = loads.map (fun load => .ok load.2.size) ∧
      s.cursor.LastWrites table kv (all ++ submissions loads)) hcache ?_ ?_
  · rw [submissions, List.flatMap_nil, List.append_nil]
    exact ⟨rfl, hm⟩
  · rintro l b earlier results s hcache hmem ⟨rfl, hearlier⟩
    obtain ⟨hvalue, hlast⟩ :=
      load_lastWrites hkeys hvalues hdisjoint htable hcache (hloads _ hmem) hearlier
    rw [hvalue, List.map_append, submissions, List.flatMap_append, ← submissions,
      ← List.append_assoc]
    exact ⟨rfl, by simpa using hlast⟩

/-- A table of keys with values is a map in which the last write counts.  However the records are
cut into batches and the batches into chunks, every load applies all its records.  At the end the
table has a row for each key, in the order in which the keys came first; it has the values of the
last record with the key, and its other columns are those of the first. -/
theorem loadEach_lastWrites {l : Loader} (hcache : l.cache.Reachable)
    {loads : List (LoaderSettings × Batch)}
    (hloads : ∀ load ∈ loads, load.2.CarriesKeys load.1 kv table) {m : Memory}
    (hmany : m.failMany = none) (hreject : m.reject = none) (hoff : m.failIdentityOff = false)
    (hidentity : m.identityColumns.get? table = none)
    (hkey : m.primaryKeys.get? table = some kv.keyColumns) (hrows : m.rows table = [])
    (archive : Option Archive) :
    (l.loadEach Memory.cursor loads ⟨m, archive⟩).value.1 =
        loads.map (fun load => .ok load.2.size) ∧
      List.Forall₂ (Submission.Describes kv (submissions loads))
        (Submission.firsts kv.keyColumns (submissions loads))
        ((l.loadEach Memory.cursor loads ⟨m, archive⟩).session.cursor.rows table) ∧
      (Submission.firsts kv.keyColumns (submissions loads)).Pairwise
        (fun a b => a.sameKey kv.keyColumns b = false) ∧
      ∀ a ∈ submissions loads, ∃ first ∈ Submission.firsts kv.keyColumns (submissions loads),
        first.sameKey kv.keyColumns a = true := by
  have hm : m.LastWrites table kv [] :=
    { keepsApart := ⟨hmany, hreject, hoff, hidentity, hkey⟩
      carried := by simp
      rows := by
        rw [hrows]
        exact .nil }
  obtain ⟨hresults, hlast⟩ := loadEach_invariant hkeys hvalues hdisjoint htable hcache hloads
    (s := ⟨m, archive⟩) hm
  exact ⟨hresults, hlast.rows, Submission.firsts_pairwise _ _,
    fun _ ha => Submission.exists_mem_firsts _ ha⟩

end

/-- Two loads of scores, with one key in both, a part of which is missing. -/
def repeatedScores : List (LoaderSettings × Batch) :=
  [({}, ⟨"scores", "[dbo].[scores]",
      [⟨"scores", [("app_id", .int 1), ("score_identifier", .null), ("score", .int 7)]⟩,
        ⟨"scores", [("score_identifier", .text "b"), ("app_id", .int 1), ("score", .int 8)]⟩],
      false⟩),
    ({ batchSize := 1 }, ⟨"scores", "[dbo].[scores]",
      [⟨"scores", [("app_id", .int 1), ("score_identifier", .null), ("score", .int 9)]⟩], false⟩)]

/-- The table of scores has two rows in the end, the first with the last score of its key. -/
theorem loadEach_lastWrites_repeatedScores :
    (loadEach Memory.cursor {} repeatedScores
        ⟨{ primaryKeys := [("[dbo].[scores]", ["app_id", "score_identifier"])] },
          none⟩).value.1 = [.ok 2, .ok 1] ∧
      ∃ first second : Fields Value,
        (loadEach Memory.cursor {} repeatedScores
            ⟨{ primaryKeys := [("[dbo].[scores]", ["app_id", "score_identifier"])] },
              none⟩).session.cursor.rows "[dbo].[scores]" = [first, second] ∧
          first.get? "score" = some (.int 9) ∧ first.get? "score_identifier" = some .null ∧
          second.get? "score" = some (.int 8) := by
  have hcolumns : ∀ column ∈ ["app_id", "score_identifier", "score"], IsPlain column := by
    intro column hcolumn
    refine Sql.isPlain_of_all ?_
    revert column
    decide
  have hloads : ∀ load ∈ repeatedScores,
      load.2.CarriesKeys load.1 ⟨"scores", ["app_id", "score_identifier"], ["score"]⟩
        "[dbo].[scores]" := by
    intro load hload
    have hsubset : ∀ column ∈ load.2.columns, column ∈ ["app_id", "score_identifier", "score"] := by
      revert load
      decide
    have hcarried : ∀ r ∈ load.2.records, ∀ column ∈ ["app_id", "score_identifier", "score"],
        (r.get? column).isSome = true := by
      revert load
      decide
    rcases List.mem_cons.mp hload with rfl | hload
    · exact ⟨by decide, rfl, fun column h => hcolumns column (hsubset column h), hcarried⟩
    · rw [List.mem_singleton.mp hload] at hsubset hcarried ⊢
      exact ⟨by decide, rfl, fun column h => hcolumns column (hsubset column h), hcarried⟩
  obtain ⟨hresults, hrows, -⟩ := loadEach_lastWrites (l := {}) (by decide) (by decide)
    (by decide) (by decide) Sql.StatementCache.Reachable.empty hloads
    (m := { primaryKeys := [("[dbo].[scores]", ["app_id", "score_identifier"])] })
    rfl rfl rfl rfl (by decide) rfl none
  obtain ⟨first, others, hfirst, hothers, heq⟩ := List.forall₂_cons_left_iff.mp hrows
  obtain ⟨second, rest, hsecond, hrest, rfl⟩ := List.forall₂_cons_left_iff.mp hothers
  rw [List.forall₂_nil_left_iff.mp hrest] at heq
  exact ⟨hresults, first, second, heq, hfirst "score", hfirst "score_identifier",
    hsecond "score"⟩

end Loader

end RowContract
