import RowContract.Sql.Cache

/-!
What the cache of statements gives.  Whatever it was asked for before, the statement
for a table and some columns is the insert into that table with these columns in some
order.
-/

namespace RowContract.Sql

/-- Columns that are kept under one key are the same up to their order. -/
theorem CacheKey.perm_of_eq {table table' : String} {columns columns' : List String}
    (h : CacheKey.of table columns = CacheKey.of table' columns') :
    table = table' ∧ columns.Perm columns' := by
  simp only [CacheKey.of, CacheKey.mk.injEq] at h
  obtain ⟨htable, hcolumns⟩ := h
  have hsorted := (List.mergeSort_perm columns fun a b => a ≤ b).symm
  rw [hcolumns] at hsorted
  exact ⟨htable, hsorted.trans (List.mergeSort_perm columns' _)⟩

namespace StatementCache

variable {c : StatementCache} {table : String} {columns : List String} {s : InsertStatement}

theorem statement_of_some (h : c.find? (CacheKey.of table columns) = some s) :
    c.statement table columns = (s, { c with hits := c.hits + 1 }) := by
  simp only [statement, h]

theorem statement_of_none (h : c.find? (CacheKey.of table columns) = none) :
    c.statement table columns =
      (InsertStatement.make table columns,
        { c with
          entries := c.entries ++ [(CacheKey.of table columns, InsertStatement.make table columns)]
          misses := c.misses + 1 }) := by
  simp only [statement, h]

theorem mem_entries_of_find? {key : CacheKey} (h : c.find? key = some s) :
    (key, s) ∈ c.entries := by
  simp only [find?, Option.map_eq_some_iff] at h
  obtain ⟨e, he, rfl⟩ := h
  have hkey := List.find?_some he
  rw [beq_iff_eq] at hkey
  exact hkey ▸ List.mem_of_find?_eq_some he

/-- The caches that arise: at first there is no statement, and each one is made when it is asked
for. -/
inductive Reachable : StatementCache → Prop
  | empty : Reachable {}
  | statement {c : StatementCache} (h : Reachable c) (table : String) (columns : List String) :
      Reachable (c.statement table columns).2

theorem Reachable.entry_eq (h : Reachable c) {e : CacheKey × InsertStatement}
    (he : e ∈ c.entries) :
    ∃ table columns, e = (CacheKey.of table columns, InsertStatement.make table columns) := by
  induction h with
  | empty => cases he
  | @statement c _ table columns ih =>
      cases hfind : c.find? (CacheKey.of table columns) with
      | some _ =>
          rw [statement_of_some hfind] at he
          exact ih he
      | none =>
          rw [statement_of_none hfind] at he
          rcases List.mem_append.mp he with hold | hnew
          · exact ih hold
          · exact ⟨table, columns, List.mem_singleton.mp hnew⟩

/-- The statement that is given is the insert of the columns, in some order. -/
theorem Reachable.statement_eq_make (h : Reachable c) (table : String) (columns : List String) :
    ∃ order, order.Perm columns ∧
      (c.statement table columns).1 = InsertStatement.make table order := by
  cases hfind : c.find? (CacheKey.of table columns) with
  | none =>
      rw [statement_of_none hfind]
      exact ⟨columns, .refl _, rfl⟩
  | some s =>
      rw [statement_of_some hfind]
      obtain ⟨table', order, hentry⟩ := h.entry_eq (mem_entries_of_find? hfind)
      injection hentry with hkey hstatement
      obtain ⟨rfl, horder⟩ := CacheKey.perm_of_eq hkey
      exact ⟨order, horder.symm, hstatement⟩

theorem notMem_keys_of_find? {key : CacheKey} (h : c.find? key = none) :
    key ∉ c.entries.map Prod.fst := by
  intro hkey
  obtain ⟨e, he, rfl⟩ := List.mem_map.mp hkey
  have hother := List.find?_eq_none.mp (Option.map_eq_none_iff.mp h) e he
  exact hother (beq_self_eq_true e.1)

/-- A statement is made when it is missing, and kept once. -/
theorem Reachable.keeps (h : Reachable c) :
    c.size = c.misses ∧ (c.entries.map Prod.fst).Nodup := by
  induction h with
  | empty => exact ⟨rfl, List.nodup_nil⟩
  | @statement c _ table columns ih =>
      obtain ⟨hsize, hnodup⟩ := ih
      cases hfind : c.find? (CacheKey.of table columns) with
      | some _ =>
          rw [statement_of_some hfind]
          exact ⟨hsize, hnodup⟩
      | none =>
          rw [statement_of_none hfind]
          refine ⟨?_, ?_⟩
          · rw [size, List.length_append]
            exact congrArg (· + 1) hsize
          · rw [List.map_append]
            refine List.nodup_append.mpr ⟨hnodup, List.pairwise_singleton _ _, ?_⟩
            rintro key hkey _ hnew rfl
            rw [List.map_singleton, List.mem_singleton] at hnew
            rw [hnew] at hkey
            exact notMem_keys_of_find? hfind hkey

end StatementCache

end RowContract.Sql
