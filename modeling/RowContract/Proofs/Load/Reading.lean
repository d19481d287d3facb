import RowContract.Load.Memory
import RowContract.Proofs.Sql.Statement

/-!
What a database in memory reads from the statements of a load.  Where the names of the
table and the columns have no character that the statements put around names, an insert
and an update are read as what they were made from, with each parameter at its column;
a key that has to be missing takes no parameter.
-/

namespace RowContract

namespace Memory

open Sql

theorem dropWhile_eq_self {c : Char} {cs : List Char} (h : c ∉ cs) :
    cs.dropWhile (fun d => d == c) = cs := by
  cases cs with
  | nil => rfl
  | cons d r =>
      have hne : ¬ (d == c) = true := by
        rw [beq_iff_eq]
        rintro rfl
        exact h List.mem_cons_self
      exact List.dropWhile_cons_of_neg hne

theorem unquote_quoteName {name : String} (h : IsPlain name) :
    unquote (quoteName name).toList = name := by
  have hopen : '[' ∉ name.toList ++ [']'] := by
    intro hmem
    rcases List.mem_append.mp hmem with hmem | hmem
    · exact h.notMem (by decide) hmem
    · exact absurd hmem (by decide)
  have hclose : ']' ∉ name.toList.reverse :=
    fun hmem => h.notMem (by decide) (List.mem_reverse.mp hmem)
  -- The brackets keep the name from being trimmed.
  have htrim : Text.trimChars ('[' :: (name.toList ++ [']'])) = '[' :: (name.toList ++ [']']) := by
    have hfirst : ¬ Text.isBlank '[' = true := by decide
    have hlast : ¬ Text.isBlank ']' = true := by decide
    rw [Text.trimChars, Text.dropBlanks, List.dropWhile_cons_of_neg hfirst,
      Text.dropTrailingBlanks, ← List.cons_append, List.reverse_append, List.reverse_singleton,
      List.singleton_append, List.dropWhile_cons_of_neg hlast, List.reverse_cons,
      List.reverse_reverse]
  rw [unquote, toList_quoteName h, htrim, List.dropWhile_cons_of_pos (by decide),
    dropWhile_eq_self hopen, List.reverse_append, List.reverse_singleton, List.singleton_append,
    List.dropWhile_cons_of_pos (by decide), dropWhile_eq_self hclose, List.reverse_reverse,
    String.ofList_toList]

/-! ### Inserts -/

/-- Names in brackets fall apart at commas, and are read as what they were. -/
theorem pieces_quoteName {columns : List String} (hne : columns ≠ [])
    (hcolumns : ∀ c ∈ columns, IsPlain c) :
    (Text.pieces ", ".toList
      (", ".toList.intercalate (columns.map fun c => (quoteName c).toList))).map unquote =
        columns := by
  rw [Text.pieces_intercalate (by decide) (by simpa using hne), List.map_map]
  · refine (List.map_congr_left fun c hc => ?_).trans (List.map_id columns)
    exact unquote_quoteName (hcolumns c hc)
  · intro text htext
    obtain ⟨c, hc, rfl⟩ := List.mem_map.mp htext
    exact apart_quoteName (hcolumns c hc) [' '] (by decide)

/-- The columns of an insert are the pieces of what stands between its brackets. -/
theorem readInsert_eq_pieces {table : String} (htable : ' ' ∉ table.toList)
    {columns : List String} (hcolumns : ∀ c ∈ columns, IsPlain c) :
    readInsert (insertText table columns) =
      .ok (table, (Text.pieces ", ".toList
        (", ".toList.intercalate (columns.map fun c => (quoteName c).toList))).map unquote) := by
  have htable : Text.Apart " (".toList table.toList := Text.apart_of_notMem htable
  have hnames : ∀ text ∈ columns.map fun c => (quoteName c).toList,
      Text.Apart ") VALUES".toList text := by
    intro text htext
    obtain ⟨c, hc, rfl⟩ := List.mem_map.mp htext
    exact apart_quoteName (hcolumns c hc) " VALUES".toList (by decide)
  have hcomma : Text.Apart ") VALUES".toList ", ".toList := by decide
  have hlist := Text.apart_intercalate hnames fun text htext =>
    hcomma.append (hnames text htext)
  rw [readInsert, toList_insertText, Text.dropPrefix?_append]
  dsimp only
  rw [Text.cut?_append htable]
  dsimp only
  rw [Text.cut?_append hlist]
  dsimp only
  rw [String.ofList_toList]

theorem readInsert_insertText {table : String} (htable : ' ' ∉ table.toList)
    {columns : List String} (hne : columns ≠ []) (hcolumns : ∀ c ∈ columns, IsPlain c) :
    readInsert (insertText table columns) = .ok (table, columns) := by
  rw [readInsert_eq_pieces htable hcolumns, pieces_quoteName hne hcolumns]

/-- A row of an insert gets the names of its columns.  An insert without columns is read as if it
had one without a name, but its rows have no value for that. -/
theorem zip_of_readInsert {table : String} (htable : ' ' ∉ table.toList) {columns : List String}
    (hcolumns : ∀ c ∈ columns, IsPlain c) :
    ∃ read, readInsert (insertText table columns) = .ok (table, read) ∧
      ∀ row : List Value, row.length = columns.length → read.zip row = columns.zip row := by
  cases columns with
  | nil =>
      refine ⟨_, readInsert_eq_pieces htable hcolumns, fun row hrow => ?_⟩
      rw [List.eq_nil_of_length_eq_zero hrow, List.zip_nil_right, List.zip_nil_right]
  | cons c rest =>
      exact ⟨_, readInsert_insertText htable (List.cons_ne_nil c rest) hcolumns, fun _ _ => rfl⟩

/-! ### Updates -/

theorem assignedColumn_assignment {column : String} (h : IsPlain column) :
    assignedColumn (assignment column).toList = column := by
  have hend : ¬ " = ?".toList <:+ (quoteName column).toList := by
    rw [toList_quoteName h, ← List.cons_append]
    intro hsuffix
    have hlast := List.IsSuffix.getLast hsuffix (by decide)
    rw [List.getLast_append_of_ne_nil _ (by decide)] at hlast
    exact absurd hlast (by decide)
  rw [assignedColumn, toList_assignment]
  have hlength : ∃ n, ((quoteName column).toList ++ " = ?".toList).length = n + 1 :=
    ⟨_, by rw [List.length_append]; rfl⟩
  obtain ⟨n, hn⟩ := hlength
  rw [hn, Text.dropSuffixes_append hend, unquote_quoteName h]

/-- The assignments take one parameter each, in order. -/
theorem bindAssignments_assignment (values : List (String × Value)) (rest : List Value)
    (h : ∀ v ∈ values, IsPlain v.1) :
    bindAssignments (values.map fun v => (assignment v.1).toList)
      (values.map Prod.snd ++ rest) = (values, rest) := by
  induction values with
  | nil => rfl
  | cons v values ih =>
      have hrest := ih fun w hw => h w (List.mem_cons_of_mem _ hw)
      simp only [List.map_cons, List.cons_append, bindAssignments, List.tail_cons, hrest,
        List.headD_cons, assignedColumn_assignment (h v List.mem_cons_self)]

/-- A key that has to be missing takes no parameter. -/
theorem bindConditions_condition (keys : List (String × Value)) (h : ∀ k ∈ keys, IsPlain k.1) :
    bindConditions (keys.map fun k => (condition k).toList)
      ((keys.map Prod.snd).filter fun v => !v.isNull) = keys := by
  induction keys with
  | nil => rfl
  | cons key keys ih =>
      have hrest := ih fun k hk => h k (List.mem_cons_of_mem _ hk)
      have hplain := h key List.mem_cons_self
      cases hnull : key.2.isNull with
      | true =>
          have hvalue : key = (key.1, .null) := by
            obtain ⟨column, value⟩ := key
            cases value <;> first | rfl | cases hnull
          simp only [List.map_cons, List.filter_cons, hnull, Bool.not_true, Bool.false_eq_true,
            if_false, bindConditions, toList_condition_of_isNull hnull, Text.dropSuffix?_append,
            hrest, unquote_quoteName hplain]
          rw [← hvalue]
      | false =>
          have hend : ¬ " IS NULL".toList <:+ (assignment key.1).toList := by
            rw [toList_assignment]
            intro hsuffix
            have hlast := List.IsSuffix.getLast hsuffix (by decide)
            rw [List.getLast_append_of_ne_nil _ (by decide)] at hlast
            exact absurd hlast (by decide)
          simp only [List.map_cons, List.filter_cons, hnull, Bool.not_false, if_true,
            bindConditions, condition_of_not_isNull hnull, Text.dropSuffix?_eq_none hend,
            List.tail_cons, List.headD_cons, hrest, assignedColumn_assignment hplain]

/-- An update is read as the values that it sets and the keys that it looks for. -/
theorem read_updateCommand {table : String} (htable : ' ' ∉ table.toList)
    {values keys : List (String × Value)} (hvalues : values ≠ []) (hkeys : keys ≠ [])
    (hplain : ∀ v ∈ values ++ keys, IsPlain v.1) :
    Update.read
      (table.toList ++ (" SET ".toList ++
        (", ".toList.intercalate (values.map fun v => (assignment v.1).toList) ++
          (" WHERE ".toList ++
            " AND ".toList.intercalate (keys.map fun k => (condition k).toList)))))
      (updateCommand table values keys).params = .ok ⟨table, values, keys⟩ := by
  have hvalue : ∀ text ∈ values.map fun v => (assignment v.1).toList,
      Text.Apart ", ".toList text := by
    intro text htext
    have hmark : Text.Apart (',' :: " ".toList) " = ?".toList := by decide
    obtain ⟨v, hv, rfl⟩ := List.mem_map.mp htext
    exact apart_assignment (hplain v (List.mem_append_left _ hv)) (by decide) hmark
  have hkey : ∀ text ∈ keys.map fun k => (condition k).toList,
      Text.Apart " AND ".toList text := by
    intro text htext
    obtain ⟨k, hk, rfl⟩ := List.mem_map.mp htext
    exact apart_condition (hplain k (List.mem_append_right _ hk))
  have hset : Text.Apart " SET ".toList table.toList := Text.apart_of_notMem htable
  have hwhere : Text.Apart " WHERE ".toList
      (", ".toList.intercalate (values.map fun v => (assignment v.1).toList)) := by
    have h := apart_assignments fun c hc => by
      obtain ⟨v, hv, rfl⟩ := List.mem_map.mp hc
      exact hplain v (List.mem_append_left _ hv)
    rwa [List.map_map] at h
  have hcommas : Text.pieces ", ".toList
      (", ".toList.intercalate (values.map fun v => (assignment v.1).toList)) =
        values.map fun v => (assignment v.1).toList :=
    Text.pieces_intercalate (by decide) (by simpa using hvalues) hvalue
  have hands : Text.pieces " AND ".toList
      (" AND ".toList.intercalate (keys.map fun k => (condition k).toList)) =
        keys.map fun k => (condition k).toList :=
    Text.pieces_intercalate (by decide) (by simpa using hkeys) hkey
  rw [Update.read, Text.cut?_append hset]
  dsimp only
  rw [Text.cut?_append hwhere]
  dsimp only [updateCommand]
  rw [hcommas, hands,
    bindAssignments_assignment values _ fun v hv => hplain v (List.mem_append_left _ hv)]
  dsimp only
  rw [bindConditions_condition keys fun k hk => hplain k (List.mem_append_right _ hk),
    String.ofList_toList]

/-- An update of plain columns is run on the rows with the keys that it was made for. -/
theorem execute_updateCommand {table : String} (htable : ' ' ∉ table.toList)
    {values keys : List (String × Value)} (hvalues : values ≠ []) (hkeys : keys ≠ [])
    (hplain : ∀ v ∈ values ++ keys, IsPlain v.1) {m : Memory} {rows : List (Fields Value)}
    (hrows : m.tables.get? table = some rows) :
    execute (updateCommand table values keys) m =
      (.ok (rows.filter (Update.concerns ⟨table, values, keys⟩)).length,
        { m with
          tables := m.tables.set table (rows.map (Update.apply ⟨table, values, keys⟩)) }) := by
  have hset : Text.dropPrefix? "SET IDENTITY_INSERT ".toList
      (updateCommand table values keys).text.toList = none :=
    dropPrefix?_updateCommand (by decide) _ table values keys
  unfold execute
  dsimp only
  rw [hset]
  dsimp only
  rw [toList_updateCommand, Text.dropPrefix?_append]
  dsimp only
  rw [update, read_updateCommand htable hvalues hkeys hplain]
  dsimp only
  rw [hrows]

/-! ### Switches -/

theorem switchIdentity_append {m : Memory} (hoff : m.failIdentityOff = false)
    (table : List Char) {mode : List Char} (hmode : ' ' ∉ mode) :
    ∃ tables, m.switchIdentity (table ++ ' ' :: mode) =
      (.ok 0, { m with identityOn := tables }) := by
  rw [switchIdentity, Text.cutLast?_append hmode]
  dsimp only
  rw [hoff, if_neg Bool.false_ne_true]
  by_cases hon : mode = ['O', 'N']
  · rw [if_pos hon]
    exact ⟨_, rfl⟩
  · rw [if_neg hon]
    exact ⟨_, rfl⟩

/-- A switch only changes for which tables values may be given, unless switching off fails. -/
theorem execute_identityInsertText {m : Memory} (hoff : m.failIdentityOff = false)
    (table : String) (on : Bool) :
    ∃ tables, execute ⟨identityInsertText table on, []⟩ m =
      (.ok 0, { m with identityOn := tables }) := by
  have hmode : ' ' ∉ (if on then "ON" else "OFF").toList := by cases on <;> decide
  have hblank : " ".toList = [' '] := by decide
  unfold execute
  dsimp only
  rw [toList_identityInsertText, Text.dropPrefix?_append, hblank]
  exact switchIdentity_append hoff table.toList hmode

end Memory

end RowContract
