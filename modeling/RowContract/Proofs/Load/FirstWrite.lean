import Mathlib.Algebra.GroupWithZero.Nat
import RowContract.Proofs.Load.Keys

/-!
Tables in which the first row with a key stays.  The invariant says what such a table holds after
any records were sent: the rows of the records whose key none before them has, as they were sent.
A record with a new key is appended; one with a key that is there already is refused by the
database and passed over.  So every load succeeds, and it counts the keys that it brought.
-/

namespace RowContract

open Sql (IsPlain)

/-- The row that a record is stored as: the columns of its batch in some order, each with the value
bound for it. -/
def Submission.StoredAs (a : Submission) (row : Fields Value) : Prop :=
  ∃ order : List String, order.Perm a.columns ∧ row = order.zip (Batch.row order a.record)

/-- A record has no columns besides those of its batch. -/
def Submission.WithinColumns (a : Submission) : Prop :=
  ∀ column ∈ a.record.columnNames, column ∈ a.columns

instance (a : Submission) : Decidable a.WithinColumns :=
  inferInstanceAs (Decidable (∀ column ∈ a.record.columnNames, column ∈ a.columns))

/-- A database that keeps the keys of a table apart, after some records of the table have been sent
to it: the first row with a key is there. -/
structure Memory.FirstWrites (m : Memory) (table : String) (key : List String)
    (all : List Submission) : Prop where
  keepsApart : m.KeepsApart table key
  within : ∀ a ∈ all, a.WithinColumns
  rows : List.Forall₂ Submission.StoredAs (Submission.firsts key all) (m.rows table)

/-- A task for a table in which the first row with a key stays. -/
structure LoadTask.KeepsFirst (t : LoadTask) (order : List String) : Prop where
  listed : t.settings.isFirstWriteWins t.table = true
  notKeyValue : t.settings.keyValueTable? t.table = none
  statement : t.statement = .make t.qualifiedTable order
  table_plain : ' ' ∉ t.qualifiedTable.toList
  columns_plain : ∀ column ∈ order, IsPlain column

/-! ### The rows of a table -/

namespace Submission

variable {a first : Submission} {row other : Fields Value}

theorem StoredAs.cell_eq (h : a.StoredAs row) (ha : a.WithinColumns) (column : String) :
    Memory.cell row column = a.record.getOrNull column := by
  obtain ⟨order, horder, rfl⟩ := h
  rw [Memory.cell, Batch.row, Fields.get?_zip_map]
  by_cases hcolumn : column ∈ order
  · rw [if_pos hcolumn]
    rfl
  · -- A column that the batch lacks is missing from the record too.
    have hmissing : column ∉ a.record.columnNames :=
      fun hname => hcolumn (horder.mem_iff.mpr (ha column hname))
    rw [if_neg hcolumn, a.record.getOrNull_of_not_mem hmissing]
    rfl

theorem StoredAs.sameKey_eq (h : first.StoredAs row) (hfirst : first.WithinColumns)
    (hother : a.StoredAs other) (ha : a.WithinColumns) (key : List String) :
    Memory.sameKey key row other = first.sameKey key a := by
  unfold sameKey Memory.sameKey
  simp only [h.cell_eq hfirst, hother.cell_eq ha]
  rfl

end Submission

namespace Memory.FirstWrites

variable {m : Memory} {table : String} {key : List String} {all : List Submission}
  {a : Submission} {row : Fields Value}

/-- A row is refused if a record with its key has been sent before. -/
theorem any_sameKey (hm : m.FirstWrites table key all) (ha : a.WithinColumns)
    (hrow : a.StoredAs row) :
    ((m.rows table).any fun other => sameKey key other row) =
      (Submission.firsts key all).any fun first => first.sameKey key a := by
  have hwithin : ∀ first ∈ Submission.firsts key all, first.WithinColumns :=
    fun first hfirst => hm.within first (Submission.mem_of_mem_firsts _ hfirst)
  refine any_eq_of_forall₂ (((List.forall₂_and_left _ _).mpr ⟨hwithin, hm.rows⟩).imp ?_)
  exact fun first other h => h.2.sameKey_eq h.1 hrow ha key

theorem within_concat (hm : m.FirstWrites table key all) (ha : a.WithinColumns) :
    ∀ b ∈ all ++ [a], b.WithinColumns :=
  List.forall_mem_append.mpr ⟨hm.within, List.forall_mem_singleton.mpr ha⟩

/-- A row with a new key goes to the end. -/
theorem store (hm : m.FirstWrites table key all) (ha : a.WithinColumns) (hrow : a.StoredAs row)
    (hnew : (Submission.firsts key all).any (fun first => first.sameKey key a) = false) :
    (m.store table [row]).FirstWrites table key (all ++ [a]) where
  keepsApart := hm.keepsApart.store [row]
  within := hm.within_concat ha
  rows := by
    rw [rows_store, Submission.firsts_concat, hnew, if_neg Bool.false_ne_true]
    exact List.rel_append hm.rows (.cons hrow .nil)

/-- A record whose key is there already changes nothing. -/
theorem skip (hm : m.FirstWrites table key all) (ha : a.WithinColumns)
    (hold : (Submission.firsts key all).any (fun first => first.sameKey key a) = true) :
    m.FirstWrites table key (all ++ [a]) where
  keepsApart := hm.keepsApart
  within := hm.within_concat ha
  rows := by
    rw [Submission.firsts_concat, hold, if_pos rfl]
    exact hm.rows

theorem withIdentityOn (hm : m.FirstWrites table key all) (tables : List String) :
    FirstWrites { m with identityOn := tables } table key all :=
  ⟨hm.keepsApart.withIdentityOn tables, hm.within, hm.rows⟩

theorem slow_iff : m.slow.FirstWrites table key all ↔ m.FirstWrites table key all :=
  ⟨fun hm => ⟨Memory.KeepsApart.slow_iff.mp hm.keepsApart, hm.within, hm.rows⟩,
    fun hm => ⟨Memory.KeepsApart.slow_iff.mpr hm.keepsApart, hm.within, hm.rows⟩⟩

end Memory.FirstWrites

/-! ### Loads

Besides the invariant, each step tells how many rows it adds to the table, and this is the number
that the load counts. -/

namespace LoadTask.KeepsFirst

variable {t : LoadTask} {order : List String} (ht : t.KeepsFirst order) {key : List String}
include ht

theorem loadRow_firstWrites {m : Memory} {all : List Submission}
    (hm : m.FirstWrites t.qualifiedTable key all) {a : Submission} (ha : a.WithinColumns)
    (horder : order.Perm a.columns) :
    ∃ n m', t.loadRow (Batch.row order a.record) m = .ok (n, m') ∧
      m'.FirstWrites t.qualifiedTable key (all ++ [a]) ∧ n ≤ 1 ∧
      (m'.rows t.qualifiedTable).length = (m.rows t.qualifiedTable).length + n := by
  have hrow : a.StoredAs (order.zip (Batch.row order a.record)) := ⟨order, horder, rfl⟩
  have hexecute := execute_insertion_row ht.statement ht.table_plain ht.columns_plain
    hm.keepsApart a.record
  rw [hm.any_sameKey ha hrow] at hexecute
  unfold loadRow
  rw [hexecute]
  cases hany : (Submission.firsts key all).any fun first => first.sameKey key a with
  | true =>
      have hkey : LoadFault.classify (Memory.duplicateError t.qualifiedTable) = .primaryKey := rfl
      refine ⟨0, m, ?_, hm.skip ha hany, Nat.zero_le 1, rfl⟩
      rw [if_pos rfl]
      dsimp only
      rw [loadRefused, if_pos hkey, ht.notKeyValue]
      exact if_pos ht.listed
  | false =>
      refine ⟨1, m.store t.qualifiedTable [order.zip (Batch.row order a.record)], rfl,
        hm.store ha hrow hany, Nat.le_refl 1, ?_⟩
      rw [Memory.rows_store, List.length_append, List.length_singleton]

theorem loadRows_firstWrites {columns : List String} (horder : order.Perm columns)
    (records : List Record) (hwithin : ∀ r ∈ records, ∀ column ∈ r.columnNames, column ∈ columns)
    {m : Memory} {all : List Submission} (hm : m.FirstWrites t.qualifiedTable key all) :
    ∃ n m', t.loadRows (records.map (Batch.row order)) m = .ok (n, m') ∧
      m'.FirstWrites t.qualifiedTable key (all ++ records.map fun r => ⟨columns, r⟩) ∧
      n ≤ records.length ∧
      (m'.rows t.qualifiedTable).length = (m.rows t.qualifiedTable).length + n := by
  induction records generalizing m all with
  | nil =>
      refine ⟨0, m, rfl, ?_, Nat.le_refl 0, rfl⟩
      rwa [List.map_nil, List.append_nil]
  | cons r rest ih =>
      have hr : Submission.WithinColumns ⟨columns, r⟩ := hwithin r List.mem_cons_self
      obtain ⟨n, m', hfirst, hm', hn, hlength⟩ := ht.loadRow_firstWrites hm hr horder
      obtain ⟨k, m'', hrest, hm'', hk, hlength'⟩ :=
        ih (fun r h => hwithin r (List.mem_cons_of_mem _ h)) hm'
      refine ⟨n + k, m'', ?_, ?_, ?_, ?_⟩
      · dsimp only at hfirst
        rw [List.map_cons, loadRows, hfirst, Verdict.andThen_ok, hrest]
        rfl
      · rwa [List.append_assoc] at hm''
      · rw [List.length_cons, Nat.add_comm n]
        exact Nat.add_le_add hk hn
      · rw [hlength', hlength, Nat.add_assoc]

theorem loadBatch_firstWrites {b : Batch} (horder : order.Perm b.columns) {m : Memory}
    {all : List Submission} (hm : m.FirstWrites t.qualifiedTable key all) :
    ∃ n m', t.loadBatch b m = .ok (n, m') ∧
      m'.FirstWrites t.qualifiedTable key (all ++ b.submissions) ∧ n ≤ b.size ∧
      (m'.rows t.qualifiedTable).length = (m.rows t.qualifiedTable).length + n := by
  have hwithin : ∀ r ∈ b.records, ∀ column ∈ r.columnNames, column ∈ b.columns :=
    fun r hr column hcolumn => (Batch.mem_columns b column).mpr ⟨r, hr, hcolumn⟩
  have hcolumns : t.statement.columns = order := by
    rw [ht.statement]
    rfl
  have hrows : ∀ tables, ∃ n m',
      t.loadRows (b.records.map (Batch.row t.statement.columns)) { m with identityOn := tables } =
        .ok (n, m') ∧ m'.failIdentityOff = false ∧
        (m'.FirstWrites t.qualifiedTable key (all ++ b.submissions) ∧ n ≤ b.size ∧
          (m'.rows t.qualifiedTable).length = (m.rows t.qualifiedTable).length + n) := by
    intro tables
    obtain ⟨n, m', hload, hm', hn, hlength⟩ :=
      ht.loadRows_firstWrites horder b.records hwithin (hm.withIdentityOn tables)
    rw [hcolumns]
    exact ⟨n, m', hload, hm'.keepsApart.failIdentityOff, hm', hn, hlength⟩
  exact loadBatch_of_loadRows hm.keepsApart.failIdentityOff hrows
    fun n m' tables h => ⟨h.1.withIdentityOn tables, h.2⟩

end LoadTask.KeepsFirst

/-- A batch of a table in which the first row with a key stays, under settings that say so, with
plain names. -/
structure Batch.KeepsFirst (b : Batch) (settings : LoaderSettings) (qualifiedTable : String) :
    Prop where
  listed : settings.isFirstWriteWins b.table = true
  notKeyValue : settings.keyValueTable? b.table = none
  qualifiedTable_eq : b.qualifiedTable = qualifiedTable
  columns_plain : ∀ column ∈ b.columns, IsPlain column

namespace Loader

section
variable {key : List String} {table : String} (htable : ' ' ∉ table.toList)
include htable

/-- The load of a batch succeeds and counts the rows that it adds, and the first row with a key
stays. -/
theorem load_firstWrites {l : Loader} (hcache : l.cache.Reachable) {b : Batch}
    (hb : b.KeepsFirst l.settings table) {s : Session Memory} {all : List Submission}
    (hm : s.cursor.FirstWrites table key all) :
    ∃ n, (l.load Memory.cursor b s).value.1 = .ok n ∧
      (l.load Memory.cursor b s).session.cursor.FirstWrites table key (all ++ b.submissions) ∧
      ((l.load Memory.cursor b s).session.cursor.rows table).length =
        (s.cursor.rows table).length + n := by
  cases hempty : b.records.isEmpty with
  | true =>
      have hrecords := List.isEmpty_iff.mp hempty
      rw [load_of_isEmpty Memory.cursor l hempty]
      simp only [Batch.submissions, hrecords, List.map_nil, List.append_nil]
      exact ⟨0, rfl, hm, rfl⟩
  | false =>
      obtain ⟨hlisted, hkeyValue, rfl, hplain⟩ := hb
      obtain ⟨order, horder, htask⟩ := prepare_eq_task hcache b
      have ht : (l.task b order).KeepsFirst order :=
        { listed := hlisted
          notKeyValue := hkeyValue
          statement := rfl
          table_plain := htable
          columns_plain := fun column hcolumn => hplain column (horder.mem_iff.mp hcolumn) }
      obtain ⟨n, m', hbatch, hm', hn, hlength⟩ :=
        ht.loadBatch_firstWrites horder (Memory.FirstWrites.slow_iff.mpr hm)
      have hverdict := verdict_of_not_isEmpty hcache hempty hm.keepsApart.retriable
      rw [htask, hbatch] at hverdict
      obtain ⟨hvalue, hcursor⟩ := of_verdict_eq_ok hverdict
      rw [Nat.min_eq_left hn] at hvalue
      dsimp only at hcursor
      rw [← hcursor] at hm' hlength
      exact ⟨n, hvalue, Memory.FirstWrites.slow_iff.mp hm', hlength⟩

/-- So do any loads, one after the other. -/
theorem loadEach_counts {l : Loader} (hcache : l.cache.Reachable)
    {loads : List (LoaderSettings × Batch)}
    (hloads : ∀ load ∈ loads, load.2.KeepsFirst load.1 table) {s : Session Memory}
    {all : List Submission} (hm : s.cursor.FirstWrites table key all) :
    (∃ counts : List Nat, (l.loadEach Memory.cursor loads s).value.1 = counts.map .ok ∧
      counts.length = loads.length ∧
      ((l.loadEach Memory.cursor loads s).session.cursor.rows table).length =
        (s.cursor.rows table).length + counts.sum) ∧
      (l.loadEach Memory.cursor loads s).session.cursor.FirstWrites table key
        (all ++ submissions loads) := by
  refine loadEach_induction (P := fun loads results (s' : Session Memory) =>
    (∃ counts : List Nat, results = counts.map .ok ∧ counts.length = loads.length ∧
      (s'.cursor.rows table).length = (s.cursor.rows table).length + counts.sum) ∧
    s'.cursor.FirstWrites table key (all ++ submissions loads)) hcache ?_ ?_
  · rw [submissions, List.flatMap_nil, List.append_nil]
    exact ⟨⟨[], rfl, rfl, rfl⟩, hm⟩
  · rintro l b earlier results s' hcache hmem ⟨⟨counts, rfl, hcount, hsum⟩, hearlier⟩
    obtain ⟨n, hvalue, hlast, hlength⟩ := load_firstWrites htable hcache (hloads _ hmem) hearlier
    rw [submissions, List.flatMap_append, ← submissions, ← List.append_assoc]
    refine ⟨⟨counts ++ [n], ?_, ?_, ?_⟩, by simpa using hlast⟩
    · rw [hvalue, List.map_append, List.map_singleton]
    · rw [List.length_append, List.length_append, hcount, List.length_singleton,
        List.length_singleton]
    · rw [hlength, hsum, List.sum_append, List.sum_singleton, Nat.add_assoc]

/-- In a table in which the first row with a key stays, every load succeeds, however the records are
cut into batches and the batches into chunks.  At the end the table has a row for each key, in the
order in which the keys came first, with the values bound for the first record with the key; and
the loads together count these rows. -/
theorem loadEach_firstWrites {l : Loader} (hcache : l.cache.Reachable)
    {loads : List (LoaderSettings × Batch)}
    (hloads : ∀ load ∈ loads, load.2.KeepsFirst load.1 table) {m : Memory}
    (hmany : m.failMany = none) (hreject : m.reject = none) (hoff : m.failIdentityOff = false)
    (hidentity : m.identityColumns.get? table = none)
    (hkey : m.primaryKeys.get? table = some key) (hrows : m.rows table = [])
    (archive : Option Archive) :
    (∃ counts : List Nat,
      (l.loadEach Memory.cursor loads ⟨m, archive⟩).value.1 = counts.map .ok ∧
        counts.length = loads.length ∧
        counts.sum =
          ((l.loadEach Memory.cursor loads ⟨m, archive⟩).session.cursor.rows table).length) ∧
      List.Forall₂ Submission.StoredAs (Submission.firsts key (submissions loads))
        ((l.loadEach Memory.cursor loads ⟨m, archive⟩).session.cursor.rows table) ∧
      (Submission.firsts key (submissions loads)).Pairwise (fun a b => a.sameKey key b = false) ∧
      ∀ a ∈ submissions loads, ∃ first ∈ Submission.firsts key (submissions loads),
        first.sameKey key a = true := by
  have hm : m.FirstWrites table key [] :=
    { keepsApart := ⟨hmany, hreject, hoff, hidentity, hkey⟩
      within := by simp
      rows := by
        rw [hrows]
        exact .nil }
  obtain ⟨⟨counts, hresults, hcount, hlength⟩, hfirst⟩ :=
    loadEach_counts htable hcache hloads (s := ⟨m, archive⟩) hm
  dsimp only at hlength
  rw [hrows, List.length_nil, Nat.zero_add] at hlength
  exact ⟨⟨counts, hresults, hcount, hlength.symm⟩, hfirst.rows, Submission.firsts_pairwise _ _,
    fun _ ha => Submission.exists_mem_firsts _ ha⟩

end

/-- Two loads of contacts, with one key in both and twice in the first. -/
def repeatedContacts : List (LoaderSettings × Batch) :=
  [({}, ⟨"contact_base", "[dbo].[contact_base]",
      [⟨"contact_base", [("con_id", .int 1), ("first_name", .text "Ann")]⟩,
        ⟨"contact_base", [("first_name", .text "Bea"), ("con_id", .int 1)]⟩], false⟩),
    ({ batchSize := 1 }, ⟨"contact_base", "[dbo].[contact_base]",
      [⟨"contact_base", [("con_id", .int 1), ("first_name", .text "Cora")]⟩,
        ⟨"contact_base", [("con_id", .int 2)]⟩], false⟩)]

/-- The first contact keeps its name, and the second one is added without a name. -/
theorem loadEach_firstWrites_repeatedContacts :
    ∃ n k : Nat,
      (loadEach Memory.cursor {} repeatedContacts
          ⟨{ primaryKeys := [("[dbo].[contact_base]", ["con_id"])] }, none⟩).value.1 =
        [.ok n, .ok k] ∧ n + k = 2 ∧
      ∃ first second : Fields Value,
        (loadEach Memory.cursor {} repeatedContacts
            ⟨{ primaryKeys := [("[dbo].[contact_base]", ["con_id"])] },
              none⟩).session.cursor.rows "[dbo].[contact_base]" = [first, second] ∧
          Memory.cell first "first_name" = .text "Ann" ∧ Memory.cell first "con_id" = .int 1 ∧
          Memory.cell second "first_name" = .null ∧ Memory.cell second "con_id" = .int 2 := by
  have hcolumns : ∀ column ∈ ["con_id", "first_name"], IsPlain column := by
    intro column hcolumn
    refine Sql.isPlain_of_all ?_
    revert column
    decide
  have hloads : ∀ load ∈ repeatedContacts, load.2.KeepsFirst load.1 "[dbo].[contact_base]" := by
    intro load hload
    have hsubset : ∀ column ∈ load.2.columns, column ∈ ["con_id", "first_name"] := by
      revert load
      decide
    rcases List.mem_cons.mp hload with rfl | hload
    · exact ⟨by decide, by decide, rfl, fun column h => hcolumns column (hsubset column h)⟩
    · rw [List.mem_singleton.mp hload] at hsubset ⊢
      exact ⟨by decide, by decide, rfl, fun column h => hcolumns column (hsubset column h)⟩
  obtain ⟨⟨counts, hresults, hlength, hsum⟩, hrows, -⟩ := loadEach_firstWrites (l := {}) (by decide)
    Sql.StatementCache.Reachable.empty hloads
    (m := { primaryKeys := [("[dbo].[contact_base]", ["con_id"])] })
    rfl rfl rfl rfl (show _ = some ["con_id"] by decide) rfl none
  obtain ⟨first, others, hfirst, hothers, heq⟩ := List.forall₂_cons_left_iff.mp hrows
  obtain ⟨second, rest, hsecond, hrest, rfl⟩ := List.forall₂_cons_left_iff.mp hothers
  rw [List.forall₂_nil_left_iff.mp hrest] at heq
  rw [heq] at hsum
  obtain ⟨n, k, rfl⟩ : ∃ n k, counts = [n, k] := List.length_eq_two.mp hlength
  refine ⟨n, k, hresults, by simpa using hsum, first, second, heq, ?_, ?_, ?_, ?_⟩
  · exact hfirst.cell_eq (by decide) "first_name"
  · exact hfirst.cell_eq (by decide) "con_id"
  · exact hsecond.cell_eq (by decide) "first_name"
  · exact hsecond.cell_eq (by decide) "con_id"

end Loader

end RowContract
