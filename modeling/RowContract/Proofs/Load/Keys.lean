import Mathlib.Data.List.Forall2
import RowContract.Proofs.Batch
import RowContract.Proofs.Load.Reading
import RowContract.Proofs.Load.RowByRow
import RowContract.Proofs.Load.Submission

/-!
Loads into a database that keeps the keys of a table apart and fails at nothing else.  It refuses
the insert of a row exactly if the table has a row with the same key, and the switches around the
rows do not matter to it.
-/

namespace RowContract

open Sql (IsPlain)

theorem any_eq_of_forall₂ {α β : Type} {p : α → Bool} {q : β → Bool} {as : List α} {bs : List β}
    (h : List.Forall₂ (fun a b => q b = p a) as bs) : bs.any q = as.any p := by
  induction h with
  | nil => rfl
  | cons hab _ ih => rw [List.any_cons, List.any_cons, hab, ih]

namespace Memory

/-- A database that keeps the keys of a table apart and fails at nothing else. -/
structure KeepsApart (m : Memory) (table : String) (key : List String) : Prop where
  failMany : m.failMany = none
  reject : m.reject = none
  failIdentityOff : m.failIdentityOff = false
  identityColumn : m.identityColumns.get? table = none
  primaryKey : m.primaryKeys.get? table = some key

namespace KeepsApart

variable {m : Memory} {table : String} {key : List String} (hm : m.KeepsApart table key)
include hm

theorem withTables (tables : Fields (List (Fields Value))) :
    KeepsApart { m with tables := tables } table key :=
  ⟨hm.failMany, hm.reject, hm.failIdentityOff, hm.identityColumn, hm.primaryKey⟩

theorem store (rows : List (Fields Value)) : (m.store table rows).KeepsApart table key :=
  hm.withTables _

theorem withIdentityOn (tables : List String) :
    KeepsApart { m with identityOn := tables } table key :=
  ⟨hm.failMany, hm.reject, hm.failIdentityOff, hm.identityColumn, hm.primaryKey⟩

theorem retriable : m.Retriable := by
  intro e he
  rw [hm.failMany] at he
  cases he

theorem obstacle?_eq (row : Fields Value) :
    m.obstacle? table [] row =
      if (m.rows table).any fun other => sameKey key other row then
        some (duplicateError table)
      else none := by
  unfold obstacle? rejection? identityFault? duplicate?
  rw [hm.reject, hm.identityColumn, hm.primaryKey, List.append_nil]
  rfl

/-- The insert of a row is refused only for its key. -/
theorem insert_eq {text : String} {columns : List String}
    (hread : readInsert text = .ok (table, columns)) (row : List Value) :
    m.insert text [row] =
      if (m.rows table).any fun other => sameKey key other (columns.zip row) then
        (.error (duplicateError table), m)
      else (.ok 1, m.store table [columns.zip row]) := by
  rw [insert_of_readInsert hread, List.map_singleton, acceptAll, hm.obstacle?_eq]
  by_cases hany : ((m.rows table).any fun other => sameKey key other (columns.zip row)) = true
  · rw [if_pos hany, if_pos hany]
  · rw [if_neg hany, if_neg hany]
    rfl

end KeepsApart

theorem KeepsApart.slow_iff {m : Memory} {table : String} {key : List String} :
    m.slow.KeepsApart table key ↔ m.KeepsApart table key :=
  ⟨fun hm => ⟨hm.failMany, hm.reject, hm.failIdentityOff, hm.identityColumn, hm.primaryKey⟩,
    fun hm => ⟨hm.failMany, hm.reject, hm.failIdentityOff, hm.identityColumn, hm.primaryKey⟩⟩

end Memory

namespace LoadTask

theorem execute_insertion_row {t : LoadTask} {order : List String}
    (hstatement : t.statement = .make t.qualifiedTable order)
    (htable : ' ' ∉ t.qualifiedTable.toList) (hcolumns : ∀ column ∈ order, IsPlain column)
    {m : Memory} {key : List String} (hm : m.KeepsApart t.qualifiedTable key) (r : Record) :
    Memory.execute (t.insertion (Batch.row order r)) m =
      if (m.rows t.qualifiedTable).any fun other =>
        Memory.sameKey key other (order.zip (Batch.row order r)) then
        (.error (Memory.duplicateError t.qualifiedTable), m)
      else (.ok 1, m.store t.qualifiedTable [order.zip (Batch.row order r)]) := by
  have htext : t.statement.text = Sql.insertText t.qualifiedTable order := by
    rw [hstatement]
    rfl
  have hlength : (Batch.row order r).length = order.length := List.length_map _
  obtain ⟨read, hread, hzip⟩ := Memory.zip_of_readInsert htable hcolumns
  rw [execute_insertion htext, htext, hm.insert_eq hread, hzip _ hlength]

/-- A load between switches does what its rows do, if that has nothing to do with the tables whose
identity column may be set. -/
theorem loadBatch_of_loadRows {t : LoadTask} {b : Batch} {m : Memory}
    (hoff : m.failIdentityOff = false) {P : Nat → Memory → Prop}
    (hrows : ∀ tables, ∃ n m',
      t.loadRows (b.records.map (Batch.row t.statement.columns)) { m with identityOn := tables } =
        .ok (n, m') ∧ m'.failIdentityOff = false ∧ P n m')
    (hswitch : ∀ n m' tables, P n m' → P n { m' with identityOn := tables }) :
    ∃ n m', t.loadBatch b m = .ok (n, m') ∧ P n m' := by
  unfold loadBatch
  cases b.identityInsert with
  | false =>
      obtain ⟨n, m', hload, -, hm'⟩ := hrows m.identityOn
      exact ⟨n, m', hload, hm'⟩
  | true =>
      obtain ⟨on, hon⟩ := Memory.execute_identityInsertText hoff t.qualifiedTable true
      obtain ⟨n, m', hload, hoff', hm'⟩ := hrows on
      obtain ⟨off, hoff⟩ := Memory.execute_identityInsertText hoff' t.qualifiedTable false
      refine ⟨n, { m' with identityOn := off }, ?_, hswitch n m' off hm'⟩
      rw [if_pos rfl, loadWithIdentity, identityCommand, hon]
      dsimp only
      rw [hload]
      dsimp only
      rw [closeIdentity, identityCommand, hoff]

end LoadTask

/-- The records of some loads, in the order in which they are sent. -/
def Loader.submissions (loads : List (LoaderSettings × Batch)) : List Submission :=
  loads.flatMap fun load => load.2.submissions

end RowContract
