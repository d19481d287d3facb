import RowContract.Load.Memory
import RowContract.Proofs.Fields
import RowContract.Proofs.Sql.Statement

/-!
The statements of a load, run by a database in memory.  Single statements do not look
at the way many rows are bound.  An insert of many rows is one insert after the other,
but that nothing is left of it when one of them is refused.
-/

namespace RowContract.Memory

/-- The database with many rows bound slowly. -/
def slow (m : Memory) : Memory := { m with fast := false }

/-! ### Single statements -/

/-- Rows are checked after others as they are by a database that has stored these. -/
theorem acceptAll_append {m m' : Memory} {table : String} (first : List (Fields Value))
    (h : ∀ pending row, m.obstacle? table (first ++ pending) row = m'.obstacle? table pending row)
    (pending rows : List (Fields Value)) :
    m.acceptAll table (first ++ pending) rows =
      (m'.acceptAll table pending rows).map (first ++ ·) := by
  induction rows generalizing pending with
  | nil => rfl
  | cons row rest ih =>
      simp only [acceptAll, h]
      cases m'.obstacle? table pending row with
      | some e => rfl
      | none =>
          dsimp only
          rw [List.append_assoc]
          exact ih (pending ++ [row])

theorem acceptAll_slow (m : Memory) (table : String) (rows : List (Fields Value)) :
    m.slow.acceptAll table [] rows = m.acceptAll table [] rows := by
  have hobstacle : ∀ pending row,
      m.slow.obstacle? table ([] ++ pending) row = m.obstacle? table pending row :=
    fun _ _ => rfl
  have h := acceptAll_append [] hobstacle [] rows
  rw [List.nil_append] at h
  rw [h]
  cases m.acceptAll table [] rows <;> rfl

theorem insert_slow (m : Memory) (text : String) (rows : List (List Value)) :
    m.slow.insert text rows = ((m.insert text rows).1, (m.insert text rows).2.slow) := by
  unfold insert
  cases readInsert text with
  | error e => rfl
  | ok read =>
      obtain ⟨table, columns⟩ := read
      simp only [acceptAll_slow]
      cases m.acceptAll table [] (rows.map fun row => columns.zip row) <;> rfl

theorem update_slow (m : Memory) (rest : List Char) (params : List Value) :
    m.slow.update rest params = ((m.update rest params).1, (m.update rest params).2.slow) := by
  unfold update
  cases Update.read rest params with
  | error e => rfl
  | ok u =>
      dsimp only [slow]
      cases m.tables.get? u.table <;> rfl

theorem switchIdentity_slow (m : Memory) (rest : List Char) :
    m.slow.switchIdentity rest =
      ((m.switchIdentity rest).1, (m.switchIdentity rest).2.slow) := by
  unfold switchIdentity
  cases Text.cutLast? ' ' rest with
  | none => rfl
  | some switch =>
      by_cases hmode : switch.2 = ['O', 'N']
      · simp only [hmode, if_true]
        rfl
      · cases hoff : m.failIdentityOff <;>
          simp only [slow, hmode, hoff, if_true, if_false, Bool.false_eq_true]

theorem execute_slow (command : Sql.Command) (m : Memory) :
    execute command m.slow = ((execute command m).1, (execute command m).2.slow) := by
  unfold execute
  dsimp only
  split
  · exact switchIdentity_slow m _
  · split
    · exact update_slow m _ _
    · exact insert_slow m _ _

/-! ### Settings of the database

No statement changes what calls for many rows fail with. -/

theorem failMany_insert (m : Memory) (text : String) (rows : List (List Value)) :
    (m.insert text rows).2.failMany = m.failMany := by
  unfold insert
  split
  · rfl
  · split <;> rfl

theorem failMany_execute (command : Sql.Command) (m : Memory) :
    (execute command m).2.failMany = m.failMany := by
  unfold execute
  dsimp only
  split
  · unfold switchIdentity
    split
    · rfl
    · dsimp only
      split
      · rfl
      · split <;> rfl
  · split
    · unfold update
      split
      · rfl
      · split <;> rfl
    · exact failMany_insert m _ _

/-! ### Inserts -/

def store (m : Memory) (table : String) (rows : List (Fields Value)) : Memory :=
  { m with tables := m.tables.set table (m.rows table ++ rows) }

theorem rows_store (m : Memory) (table : String) (rows : List (Fields Value)) :
    (m.store table rows).rows table = m.rows table ++ rows := by
  simp only [Memory.rows, store, Fields.get?_set_same, Option.getD_some]

theorem store_store (m : Memory) (table : String) (first later : List (Fields Value)) :
    (m.store table first).store table later = m.store table (first ++ later) := by
  unfold store
  simp only [Memory.rows, Fields.get?_set_same, Option.getD_some, Fields.set_set,
    List.append_assoc]

theorem obstacle?_store (m : Memory) (table : String) (first pending : List (Fields Value))
    (row : Fields Value) :
    (m.store table first).obstacle? table pending row =
      m.obstacle? table (first ++ pending) row := by
  have hduplicate : (m.store table first).duplicate? table pending row =
      m.duplicate? table (first ++ pending) row := by
    unfold duplicate?
    rw [rows_store, List.append_assoc]
    rfl
  unfold obstacle?
  rw [hduplicate]
  rfl

theorem acceptAll_store (m : Memory) (table : String) (first rows : List (Fields Value)) :
    m.acceptAll table first rows =
      ((m.store table first).acceptAll table [] rows).map (first ++ ·) := by
  have h := acceptAll_append first
    (fun pending row => (obstacle?_store m table first pending row).symm) [] rows
  rwa [List.append_nil] at h

theorem insert_of_readInsert {m : Memory} {text table : String} {columns : List String}
    (hread : readInsert text = .ok (table, columns)) (rows : List (List Value)) :
    m.insert text rows =
      match m.acceptAll table [] (rows.map columns.zip) with
      | .error e => (.error e, m)
      | .ok accepted => (.ok accepted.length, m.store table accepted) := by
  unfold insert
  rw [hread]
  rfl

theorem eq_of_insert_eq_error {m m' : Memory} {text : String} {rows : List (List Value)}
    {e : DbError} (h : m.insert text rows = (.error e, m')) : m' = m := by
  unfold insert at h
  split at h
  · cases h
    rfl
  · split at h
    · cases h
      rfl
    · cases h

theorem execute_insertText (table : String) (columns : List String) (row : List Value)
    (m : Memory) :
    execute ⟨Sql.insertText table columns, row⟩ m =
      m.insert (Sql.insertText table columns) [row] := by
  have hset : Text.dropPrefix? "SET IDENTITY_INSERT ".toList
      (Sql.insertText table columns).toList = none :=
    Sql.dropPrefix?_insertText (by decide) _ table columns
  have hupdate : Text.dropPrefix? "UPDATE ".toList (Sql.insertText table columns).toList = none :=
    Sql.dropPrefix?_insertText (by decide) _ table columns
  unfold execute
  dsimp only
  rw [hset]
  dsimp only
  rw [hupdate]

/-- Of rows that are inserted together the first is inserted first, and the others after it; if one
of them is refused, none is. -/
theorem insert_cons (m : Memory) (text : String) (row : List Value) (rest : List (List Value)) :
    m.insert text (row :: rest) =
      match m.insert text [row] with
      | (.error e, _) => (.error e, m)
      | (.ok _, first) =>
        match first.insert text rest with
        | (.error e, _) => (.error e, m)
        | (.ok n, last) => (.ok (n + 1), last) := by
  cases hread : readInsert text with
  | error e => simp only [insert, hread]
  | ok read =>
      obtain ⟨table, columns⟩ := read
      simp only [insert_of_readInsert hread, List.map_cons, List.map_nil, acceptAll]
      cases m.obstacle? table [] (columns.zip row) with
      | some e => rfl
      | none =>
          dsimp only [List.nil_append]
          rw [acceptAll_store]
          cases (m.store table [columns.zip row]).acceptAll table [] (rest.map columns.zip) with
          | error e => rfl
          | ok accepted =>
              dsimp only [Except.map]
              rw [store_store, List.length_append, Nat.add_comm]
              rfl

/-! ### Calls for many rows -/

theorem executeMany_of_some {m : Memory} {e : DbError} (h : m.failMany = some e)
    (hfast : m.fast = true) (text : String) (rows : List (List Value)) :
    executeMany text rows m = (.error e, m) := by
  simp only [executeMany, h, hfast]

theorem executeMany_of_none {m : Memory} (h : m.failMany = none) (text : String)
    (rows : List (List Value)) :
    executeMany text rows m =
      ((m.insert text rows).1.map fun _ => (), (m.insert text rows).2) := by
  simp only [executeMany, h]

end RowContract.Memory
