import RowContract.Sql.Rendering
import RowContract.Proofs.Sql.Statement

/-!
Rendering piece by piece.  A piece of a statement that begins and ends outside of names and texts
takes its own values and leaves the others to the pieces after it; the literals that it puts in are
not looked at again, whatever characters they have.  So a statement is rendered if its pieces are:
words, names in brackets, and places.
-/

namespace RowContract.Sql

def marks : List Char := ['[', ']', '\'', '?']

/-- A piece of a statement with its values becomes a text, whatever follows. -/
def Renders (piece : String) (values : List Value) (text : String) : Prop :=
  ∀ (tooFew tooMany : RenderError) (rest : List Char) (more : List Value),
    substitute tooFew tooMany {} (piece.toList ++ rest) (values ++ more) =
      (substitute tooFew tooMany {} rest more).map (text.toList ++ ·)

theorem render_of_renders {text out : String} {params : List Value} (h : Renders text params out) :
    render text params = .ok out := by
  have hall := h (.tooFew text) (.tooMany text) [] []
  rw [List.append_nil, List.append_nil] at hall
  rw [render, hall]
  simp [substitute, Except.map]

section
variable (tooFew tooMany : RenderError) (rest : List Char) (vs : List Value)

theorem substitute_cons_of_not_isPlace {p : Position} {c : Char} (h : p.isPlace c = false) :
    substitute tooFew tooMany p (c :: rest) vs =
      (substitute tooFew tooMany (p.after c) rest vs).map (c :: ·) := by
  cases vs <;> simp [substitute, h]

theorem substitute_of_notMem_marks {cs : List Char} (h : ∀ c ∈ cs, c ∉ marks) :
    substitute tooFew tooMany {} (cs ++ rest) vs =
      (substitute tooFew tooMany {} rest vs).map (cs ++ ·) := by
  induction cs with
  | nil =>
      rw [List.nil_append]
      cases substitute tooFew tooMany {} rest vs <;> rfl
  | cons c r ih =>
      obtain ⟨hc, hr⟩ := List.forall_mem_cons.mp h
      simp only [marks, List.mem_cons, List.not_mem_nil, or_false, not_or] at hc
      have hplace : Position.isPlace {} c = false := by simp [Position.isPlace, hc]
      have hafter : Position.after {} c = {} := by simp [Position.after, hc]
      rw [List.cons_append, substitute_cons_of_not_isPlace _ _ _ _ hplace, hafter, ih hr]
      cases substitute tooFew tooMany {} rest vs <;> rfl

/-- Inside a name only its end counts. -/
theorem substitute_inName {name : List Char} (h : ']' ∉ name) :
    substitute tooFew tooMany { inName := true } (name ++ ']' :: rest) vs =
      (substitute tooFew tooMany {} rest vs).map (name ++ ']' :: ·) := by
  induction name with
  | nil => rfl
  | cons c r ih =>
      rw [List.mem_cons, not_or] at h
      have hplace : Position.isPlace { inName := true } c = false := by simp [Position.isPlace]
      have hafter : Position.after { inName := true } c = { inName := true } := by
        simp [Position.after, Ne.symm h.1]
      rw [List.cons_append, substitute_cons_of_not_isPlace _ _ _ _ hplace, hafter, ih h.2]
      cases substitute tooFew tooMany {} rest vs <;> rfl

end

namespace Renders

theorem words {piece : String} (h : (piece.toList.any marks.contains) = false) :
    Renders piece [] piece := by
  intro tooFew tooMany rest more
  refine substitute_of_notMem_marks tooFew tooMany rest more fun c hc hmark => ?_
  exact List.any_eq_false.mp h c hc (List.contains_iff_mem.mpr hmark)

theorem name {name : String} (h : ']' ∉ name.toList) :
    Renders ("[" ++ name ++ "]") [] ("[" ++ name ++ "]") := by
  intro tooFew tooMany rest more
  have hchars : ("[" ++ name ++ "]").toList = '[' :: (name.toList ++ [']']) := by
    rw [String.toList_append, String.toList_append]
    rfl
  rw [hchars, List.cons_append, List.append_assoc]
  show (substitute tooFew tooMany { inName := true } (name.toList ++ ']' :: rest) more).map _ = _
  rw [substitute_inName tooFew tooMany rest more h]
  cases substitute tooFew tooMany {} rest more <;> simp [Except.map]

theorem place (v : Value) : Renders "?" [v] v.sqlLiteral := fun _ _ _ _ => rfl

theorem append {piece piece' text text' : String} {values values' : List Value}
    (h : Renders piece values text) (h' : Renders piece' values' text') :
    Renders (piece ++ piece') (values ++ values') (text ++ text') := by
  intro tooFew tooMany rest more
  rw [String.toList_append, List.append_assoc, List.append_assoc, h, h', String.toList_append]
  cases substitute tooFew tooMany {} rest more <;> simp [Except.map]

/-- A piece that takes no values may follow. -/
theorem append_fixed {piece piece' text text' : String} {values : List Value}
    (h : Renders piece values text) (h' : Renders piece' [] text') :
    Renders (piece ++ piece') values (text ++ text') := by
  have hall := h.append h'
  rwa [List.append_nil values] at hall

theorem quoteName {name : String} (h : ']' ∉ name.toList) :
    Renders (quoteName name) [] (quoteName name) := by
  have hquote : Sql.quoteName name = "[" ++ name ++ "]" := by
    apply String.toList_injective
    rw [Sql.quoteName, escapeName_eq_self h]
    simp
  rw [hquote]
  exact .name h

/-- A list is rendered if its items are. -/
theorem listed {α : Type} {items : List α} {piece text : α → String} {values : α → List Value}
    (h : ∀ a ∈ items, Renders (piece a) (values a) (text a)) :
    Renders (Sql.listed (items.map piece)) (items.flatMap values)
      (Sql.listed (items.map text)) := by
  unfold Sql.listed
  induction items with
  | nil =>
      have hempty : Renders "" [] "" := .words (by decide)
      exact hempty
  | cons a rest ih =>
      obtain ⟨ha, hrest⟩ := List.forall_mem_cons.mp h
      cases rest with
      | nil => simpa using ha
      | cons b more =>
          have hcomma : Renders ", " [] ", " := .words (by decide)
          have hall := (ha.append_fixed hcomma).append (ih hrest)
          simpa only [List.map_cons, String.intercalate_cons_cons, List.flatMap_cons] using hall

end Renders

/-! ### Statements of a load -/

def insertLine (qualifiedTable : String) (columns : List String) (row : List Value) : String :=
  "INSERT INTO " ++ qualifiedTable ++ " (" ++ listed (columns.map quoteName) ++ ") VALUES (" ++
    listed (row.map Value.sqlLiteral) ++ ")"

/-- An insert is rendered with a value for each of its columns. -/
theorem render_insertText {table : String} {columns : List String}
    (htable : Renders table [] table) (hcolumns : ∀ c ∈ columns, ']' ∉ c.toList)
    (value : String → Value) :
    render (insertText table columns) (columns.map value) =
      .ok (insertLine table columns (columns.map value)) := by
  have hnames : Renders (listed (columns.map quoteName)) (columns.flatMap fun _ => [])
      (listed (columns.map quoteName)) := .listed fun c hc => .quoteName (hcolumns c hc)
  have hplaces : Renders (listed (columns.map fun _ => "?")) (columns.flatMap fun c => [value c])
      (listed (columns.map (Value.sqlLiteral ∘ value))) := .listed fun c _ => .place (value c)
  rw [List.flatMap_eq_nil_iff.mpr fun _ _ => rfl] at hnames
  rw [← List.map_eq_flatMap, ← List.map_map] at hplaces
  have hinto : Renders "INSERT INTO " [] "INSERT INTO " := .words (by decide)
  have hopen : Renders " (" [] " (" := .words (by decide)
  have hvalues : Renders ") VALUES (" [] ") VALUES (" := .words (by decide)
  have hclose : Renders ")" [] ")" := .words (by decide)
  have hhead := ((hinto.append_fixed htable).append_fixed hopen).append_fixed hnames
  exact render_of_renders (((hhead.append_fixed hvalues).append hplaces).append_fixed hclose)

theorem render_identityInsertText {table : String} (htable : Renders table [] table) (on : Bool) :
    render (identityInsertText table on) [] = .ok (identityInsertText table on) := by
  have hset : Renders "SET IDENTITY_INSERT " [] "SET IDENTITY_INSERT " := .words (by decide)
  have hblank : Renders " " [] " " := .words (by decide)
  have hword : Renders (if on then "ON" else "OFF") [] (if on then "ON" else "OFF") := by
    cases on <;> exact .words (by decide)
  exact render_of_renders (((hset.append htable).append hblank).append hword)

end RowContract.Sql
