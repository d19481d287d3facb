import RowContract.Sql.Statement
import RowContract.Proofs.Text.Search

/-!
The characters of the statements.  Names are plain if they have no character that the
statements put around names; then no mark of a statement begins inside a name, an
assignment or a condition, and a statement falls apart where it was put together.
-/

namespace RowContract.Sql

/-! ### Plain names -/

/-- The name has none of the characters that statements put around names; letters, digits and
underscores are not among these. -/
def IsPlain (name : String) : Prop := ∀ c ∈ name.toList, c ∉ [' ', ',', '(', ')', '[', ']']

theorem isPlain_of_all {name : String}
    (h : (name.toList.all fun c => c.isAlphanum || c == '_') = true) : IsPlain name := by
  intro c hc hmark
  have hword := List.all_eq_true.mp h c hc
  simp only [List.mem_cons, List.not_mem_nil, or_false] at hmark
  rcases hmark with rfl | rfl | rfl | rfl | rfl | rfl <;> exact absurd hword (by decide)

theorem IsPlain.notMem {name : String} (h : IsPlain name) {c : Char}
    (hc : c ∈ [' ', ',', '(', ')', '[', ']']) : c ∉ name.toList :=
  fun hmem => h c hmem hc

theorem escapeName_eq_self {cs : List Char} (h : ']' ∉ cs) : escapeName cs = cs := by
  induction cs with
  | nil => rfl
  | cons c r ih =>
      rw [List.mem_cons, not_or] at h
      unfold escapeName at ih ⊢
      rw [List.flatMap_cons, if_neg (Ne.symm h.1), ih h.2]
      rfl

theorem toList_quoteName {name : String} (h : IsPlain name) :
    (quoteName name).toList = '[' :: (name.toList ++ [']']) := by
  rw [quoteName, escapeName_eq_self (h.notMem (by decide)), String.toList_ofList]
  rfl

theorem apart_quoteName {name : String} (h : IsPlain name) {a : Char} (part : List Char)
    (ha : a ∈ [' ', ',', ')']) : Text.Apart (a :: part) (quoteName name).toList := by
  have hmarks : [' ', ',', ')'] ⊆ [' ', ',', '(', ')', '[', ']'] := by decide
  have hname : a ∉ name.toList := h.notMem (hmarks ha)
  have hopen : a ≠ '[' := by
    rintro rfl
    exact absurd ha (by decide)
  have hclose : a ≠ ']' := by
    rintro rfl
    exact absurd ha (by decide)
  rw [toList_quoteName h]
  refine Text.apart_of_notMem fun hmem => ?_
  rcases List.mem_cons.mp hmem with hmem | hmem
  · exact hopen hmem
  · rcases List.mem_append.mp hmem with hmem | hmem
    · exact hname hmem
    · exact hclose (List.mem_singleton.mp hmem)

/-! ### Assignments and conditions -/

theorem toList_assignment (column : String) :
    (assignment column).toList = (quoteName column).toList ++ " = ?".toList := by
  rw [assignment, String.toList_append]

theorem apart_assignment {column : String} (h : IsPlain column) {a : Char} {part : List Char}
    (ha : a ∈ [' ', ',', ')']) (hmark : Text.Apart (a :: part) " = ?".toList) :
    Text.Apart (a :: part) (assignment column).toList := by
  rw [toList_assignment]
  exact (apart_quoteName h part ha).append hmark

theorem toList_condition_of_isNull {key : String × Value} (h : key.2.isNull = true) :
    (condition key).toList = (quoteName key.1).toList ++ " IS NULL".toList := by
  rw [condition, if_pos h, String.toList_append]

theorem condition_of_not_isNull {key : String × Value} (h : key.2.isNull = false) :
    condition key = assignment key.1 := by
  rw [condition, h, if_neg Bool.false_ne_true, assignment]

theorem apart_condition {key : String × Value} (h : IsPlain key.1) :
    Text.Apart " AND ".toList (condition key).toList := by
  cases hnull : key.2.isNull with
  | true =>
      have hname : Text.Apart " AND ".toList (quoteName key.1).toList :=
        apart_quoteName h "AND ".toList (by decide)
      rw [toList_condition_of_isNull hnull]
      exact hname.append (by decide)
  | false =>
      have hmark : Text.Apart (' ' :: "AND ".toList) " = ?".toList := by decide
      rw [condition_of_not_isNull hnull]
      exact apart_assignment h (by decide) hmark

/-- Behind the assignments of an update its next word is found. -/
theorem apart_assignments {columns : List String} (h : ∀ c ∈ columns, IsPlain c) :
    Text.Apart " WHERE ".toList
      (", ".toList.intercalate (columns.map fun c => (assignment c).toList)) := by
  have hmark : Text.Apart (' ' :: "WHERE ".toList) " = ?".toList := by decide
  have hopen : Text.Apart " WHERE ".toList ", [".toList := by decide
  refine Text.apart_intercalate (fun text htext => ?_) fun text htext => ?_
  · obtain ⟨c, hc, rfl⟩ := List.mem_map.mp htext
    exact apart_assignment (h c hc) (by decide) hmark
  · obtain ⟨c, hc, rfl⟩ := List.mem_map.mp htext
    have htail := apart_assignment (h c hc) (by decide) hmark
    -- The blank after the comma is told from that before the word by the bracket that follows.
    rw [toList_assignment, toList_quoteName (h c hc), List.cons_append] at htail ⊢
    exact hopen.append (Text.apart_cons_iff.mp htail).2.2

/-! ### Whole statements -/

theorem toList_insertText (table : String) (columns : List String) :
    (insertText table columns).toList =
      "INSERT INTO ".toList ++ (table.toList ++ (" (".toList ++
        (", ".toList.intercalate (columns.map fun c => (quoteName c).toList) ++
          (") VALUES".toList ++
            (" (" ++ listed (columns.map fun _ => "?") ++ ")").toList)))) := by
  have hvalues : ") VALUES (" = ") VALUES" ++ " (" := by decide
  unfold insertText listed
  rw [hvalues]
  simp only [String.toList_append, String.toList_intercalate, List.append_assoc, List.map_map]
  rfl

theorem toList_updateCommand (table : String) (values keys : List (String × Value)) :
    (updateCommand table values keys).text.toList =
      "UPDATE ".toList ++ (table.toList ++ (" SET ".toList ++
        (", ".toList.intercalate (values.map fun v => (assignment v.1).toList) ++
          (" WHERE ".toList ++
            " AND ".toList.intercalate (keys.map fun k => (condition k).toList))))) := by
  unfold updateCommand listed
  simp only [String.toList_append, String.toList_intercalate, List.append_assoc, List.map_map]
  rfl

theorem toList_identityInsertText (table : String) (on : Bool) :
    (identityInsertText table on).toList =
      "SET IDENTITY_INSERT ".toList ++
        (table.toList ++ (" ".toList ++ (if on then "ON" else "OFF").toList)) := by
  unfold identityInsertText
  rw [String.toList_append, String.toList_append, String.toList_append, List.append_assoc,
    List.append_assoc]

/-! ### Telling statements apart by their first words -/

theorem dropPrefix?_insertText {a : Char} (ha : a ≠ 'I') (part : List Char) (table : String)
    (columns : List String) :
    Text.dropPrefix? (a :: part) (insertText table columns).toList = none := by
  rw [toList_insertText]
  exact Text.dropPrefix?_of_ne ha part _

theorem dropPrefix?_updateCommand {a : Char} (ha : a ≠ 'U') (part : List Char) (table : String)
    (values keys : List (String × Value)) :
    Text.dropPrefix? (a :: part) (updateCommand table values keys).text.toList = none := by
  rw [toList_updateCommand]
  exact Text.dropPrefix?_of_ne ha part _

/-- No update is an insert. -/
theorem updateCommand_text_ne_insertText (table other : String)
    (values keys : List (String × Value)) (columns : List String) :
    (updateCommand table values keys).text ≠ insertText other columns := by
  intro h
  have hupdate : Text.dropPrefix? "UPDATE ".toList (updateCommand table values keys).text.toList ≠
      none := by
    rw [toList_updateCommand, Text.dropPrefix?_append]
    exact Option.some_ne_none _
  rw [h] at hupdate
  exact hupdate (dropPrefix?_insertText (by decide) _ other columns)

end RowContract.Sql
