import RowContract.Proofs.Sql.Parts
import RowContract.Proofs.Text.Digits

/-!
Where rendering finds the places of a statement.  It scans the text, and a question mark outside of
brackets and quotes is a place.  A closing bracket ends a name for the scan even if it is doubled,
so behind it a question mark of the name is a place, too, and a quote opens a text.  A statement is
rendered as it is meant exactly if the scan goes along with its parts, and it does if in no name a
quote or a question mark comes behind a closing bracket.
-/

namespace RowContract

/-- No literal begins with a question mark, and none is empty. -/
theorem Value.exists_cons_sqlLiteral (v : Value) :
    ∃ c cs, v.sqlLiteral.toList = c :: cs ∧ c ≠ '?' := by
  have hdigit {c : Char} (h : Text.isDigit c = true) : c ≠ '?' := by
    rintro rfl
    exact absurd h (by decide)
  have hdigits (n : Nat) : ∃ c cs, Text.digits n = c :: cs ∧ c ≠ '?' := by
    obtain ⟨c, cs, h⟩ := List.exists_cons_of_ne_nil (Text.digits_ne_nil n)
    exact ⟨c, cs, h, hdigit (Text.isDigit_of_mem_digits (h ▸ List.mem_cons_self))⟩
  cases v with
  | null => exact ⟨_, _, rfl, by decide⟩
  | int n =>
      cases n with
      | ofNat n => exact hdigits n
      | negSucc n =>
          refine ⟨'-', Text.digits (n + 1), ?_, by decide⟩
          show ("-" ++ toString (n + 1)).toList = _
          rw [String.toList_append]
          rfl
  | decimal d =>
      obtain ⟨c, cs, h, hc⟩ := hdigits (d.magnitude / Nat.pow 10 d.scale)
      simp only [sqlLiteral, Decimal.text, String.toList_ofList, h]
      cases d.negative with
      | true => exact ⟨'-', _, rfl, by decide⟩
      | false => exact ⟨c, _, rfl, hc⟩
  | text s => exact ⟨'N', _, by rw [sqlLiteral, String.toList_ofList]; rfl, by decide⟩
  | dateTime t => exact ⟨'\'', _, by rw [sqlLiteral, String.toList_ofList]; rfl, by decide⟩
  | bit b => cases b <;> exact ⟨_, _, rfl, by decide⟩

namespace Sql

/-! ### The scan -/

namespace Position

/-- The position behind some characters, if none of them is taken for a place. -/
def through? (p : Position) : List Char → Option Position
  | [] => some p
  | c :: rest => if p.isPlace c then none else (p.after c).through? rest

/-- The position behind a part, if the scan takes the part for what it is. -/
def past? (p : Position) : Part → Option Position
  | .place _ => if p.isPlace '?' then some p else none
  | part => p.through? part.text

end Position

/-- From a position on, the scan takes every place of some parts for a place, and nothing else. -/
def Legible (p : Position) : List Part → Prop
  | [] => True
  | part :: rest => ∃ q, p.past? part = some q ∧ Legible q rest

section
variable (tooFew tooMany : RenderError)

/-- Characters are kept exactly if none of them is taken for a place. -/
theorem substitute_append_eq_ok_iff {p : Position} {cs rest out : List Char} {vs : List Value} :
    substitute tooFew tooMany p (cs ++ rest) vs = .ok (cs ++ out) ↔
      ∃ q, p.through? cs = some q ∧ substitute tooFew tooMany q rest vs = .ok out := by
  induction cs generalizing p with
  | nil => simp [Position.through?]
  | cons c r ih =>
      rw [List.cons_append, List.cons_append, Position.through?]
      cases hplace : p.isPlace c with
      | false =>
          rw [substitute_cons_of_not_isPlace _ _ _ _ hplace, if_neg Bool.false_ne_true, ← ih]
          cases substitute tooFew tooMany (p.after c) (r ++ rest) vs <;> simp [Except.map]
      | true =>
          -- What comes out begins with a literal, which is never a question mark.
          obtain rfl : c = '?' := by
            simp only [Position.isPlace, Bool.and_eq_true, beq_iff_eq] at hplace
            exact hplace.1.1
          cases vs with
          | nil => simp [substitute, hplace]
          | cons v vs =>
              obtain ⟨a, as, hliteral, hne⟩ := v.exists_cons_sqlLiteral
              simp only [substitute, hplace, if_true, reduceCtorEq, false_and, exists_false,
                iff_false]
              cases substitute tooFew tooMany p (r ++ rest) vs <;> simp [Except.map, hliteral, hne]

/-- A place gets its value exactly if it is taken for a place. -/
theorem substitute_place_eq_ok_iff {p : Position} {rest out : List Char} {v : Value}
    {vs : List Value} :
    substitute tooFew tooMany p ('?' :: rest) (v :: vs) = .ok (v.sqlLiteral.toList ++ out) ↔
      p.isPlace '?' = true ∧ substitute tooFew tooMany p rest vs = .ok out := by
  cases hplace : p.isPlace '?' with
  | true =>
      simp only [substitute, hplace, if_true, true_and]
      cases substitute tooFew tooMany p rest vs <;> simp [Except.map]
  | false =>
      obtain ⟨a, as, hliteral, hne⟩ := v.exists_cons_sqlLiteral
      rw [substitute_cons_of_not_isPlace _ _ _ _ hplace]
      cases substitute tooFew tooMany (p.after '?') rest (v :: vs) <;>
        simp [Except.map, hliteral, hne.symm]

/-- The values get to their places, and nothing else changes, exactly if the parts are legible. -/
theorem substitute_parts_eq_ok_iff {p : Position} (parts : List Part) :
    substitute tooFew tooMany p (parts.flatMap Part.text) (parts.flatMap Part.values) =
      .ok (parts.flatMap Part.line) ↔ Legible p parts := by
  induction parts generalizing p with
  | nil => simp [substitute, Legible]
  | cons part rest ih =>
      simp only [List.flatMap_cons, Legible, ← ih]
      cases part with
      | place v =>
          rw [Position.past?]
          refine (substitute_place_eq_ok_iff tooFew tooMany).trans ?_
          cases p.isPlace '?' <;> simp
      | char c => exact substitute_append_eq_ok_iff tooFew tooMany
      | bare name => exact substitute_append_eq_ok_iff tooFew tooMany
      | quoted name => exact substitute_append_eq_ok_iff tooFew tooMany

end

theorem render_parts_eq_ok_iff {parts : List Part} {text line : String} {params : List Value}
    (htext : parts.flatMap Part.text = text.toList)
    (hline : parts.flatMap Part.line = line.toList)
    (hvalues : parts.flatMap Part.values = params) :
    render text params = .ok line ↔ Legible {} parts := by
  rw [← substitute_parts_eq_ok_iff (.tooFew text) (.tooMany text), htext, hline, hvalues, render]
  cases substitute (.tooFew text) (.tooMany text) {} text.toList params with
  | error e => simp [Except.map]
  | ok out =>
      simp only [Except.map, Except.ok.injEq]
      rw [← String.toList_inj, String.toList_ofList]

/-! ### Names that the scan passes over -/

/-- No quote and no question mark comes in the name behind a closing bracket. -/
def IsSealed (name : String) : Prop :=
  ∀ c ∈ name.toList.dropWhile (· ≠ ']'), c ≠ '\'' ∧ c ≠ '?'

instance (name : String) : Decidable (IsSealed name) :=
  List.decidableBAll (fun c => c ≠ '\'' ∧ c ≠ '?') (name.toList.dropWhile (· ≠ ']'))

namespace Position

theorem through?_append (p : Position) (cs more : List Char) :
    p.through? (cs ++ more) = (p.through? cs).bind fun q => q.through? more := by
  induction cs generalizing p with
  | nil => rfl
  | cons c r ih =>
      rw [List.cons_append, through?, through?]
      cases p.isPlace c with
      | false => exact ih _
      | true => rfl

/-- Outside of texts only a quote or a question mark counts. -/
theorem exists_through?_of_not_inText {p : Position} {cs : List Char} (hp : p.inText = false)
    (h : ∀ c ∈ cs, c ≠ '\'' ∧ c ≠ '?') : ∃ q, p.through? cs = some q ∧ q.inText = false := by
  induction cs generalizing p with
  | nil => exact ⟨p, rfl, hp⟩
  | cons c r ih =>
      obtain ⟨⟨hquote, hplace⟩, hr⟩ := List.forall_mem_cons.mp h
      have hafter : (p.after c).inText = false := by
        unfold after
        split
        · exact hp
        · split
          · exact hp
          · simp [hquote, hp]
      rw [through?, isPlace, beq_false_of_ne hplace, if_neg (by simp)]
      exact ih hafter hr

/-- Inside a name nothing counts up to the first closing bracket. -/
theorem exists_through?_inName {cs : List Char}
    (h : ∀ c ∈ cs.dropWhile (· ≠ ']'), c ≠ '\'' ∧ c ≠ '?') :
    ∃ q, through? { inName := true } cs = some q ∧ q.inText = false := by
  induction cs with
  | nil => exact ⟨_, rfl, rfl⟩
  | cons c r ih =>
      by_cases hclose : c = ']'
      · have hhere : (c :: r).dropWhile (· ≠ ']') = c :: r := by simp [hclose]
        rw [hhere] at h
        exact exists_through?_of_not_inText rfl h
      · have hskip : (c :: r).dropWhile (· ≠ ']') = r.dropWhile (· ≠ ']') := by simp [hclose]
        have hplace : isPlace { inName := true } c = false := by simp [isPlace]
        have hafter : after { inName := true } c = { inName := true } := by simp [after, hclose]
        rw [hskip] at h
        rw [through?, hplace, if_neg Bool.false_ne_true, hafter]
        exact ih h

/-- To the scan a closing bracket that is written twice is the same as one. -/
theorem through?_escapeName (p : Position) (cs : List Char) :
    p.through? (escapeName cs) = p.through? cs := by
  induction cs generalizing p with
  | nil => rfl
  | cons c r ih =>
      rw [escapeName_cons, through?]
      by_cases hclose : c = ']'
      · have hplace (q : Position) : q.isPlace ']' = false := by simp [isPlace]
        have htwice : (p.after ']').after ']' = p.after ']' := by
          cases hp : p.inText <;> simp [after, hp]
        rw [if_pos hclose, hclose, List.cons_append, List.cons_append, List.nil_append, through?,
          hplace, if_neg Bool.false_ne_true, if_neg Bool.false_ne_true, through?, hplace,
          if_neg Bool.false_ne_true, htwice]
        exact ih _
      · rw [if_neg hclose, List.cons_append, List.nil_append, through?, ih]

theorem past?_bare {name : String} (h : IsSealed name) : past? {} (.bare name) = some {} := by
  obtain ⟨q, hq, htext⟩ := exists_through?_inName h
  have hclose : q.through? [']'] = some {} := by simp [through?, isPlace, after, htext]
  show through? { inName := true } (name.toList ++ [']']) = some {}
  rw [through?_append, hq]
  exact hclose

theorem past?_quoted (name : String) : past? {} (.quoted name) = past? {} (.bare name) := by
  show through? { inName := true } (escapeName name.toList ++ [']']) =
    through? { inName := true } (name.toList ++ [']'])
  rw [through?_append, through?_append, through?_escapeName]

theorem past?_char {c : Char} (h : c ∉ marks) : past? {} (.char c) = some {} := by
  simp only [marks, List.mem_cons, List.not_mem_nil, or_false, not_or] at h
  simp [past?, Part.text, through?, isPlace, after, h]

end Position

/-- Parts are legible if the scan comes out of each of them as it went in. -/
theorem legible_of_forall {parts : List Part}
    (h : ∀ part ∈ parts, Position.past? {} part = some {}) : Legible {} parts := by
  induction parts with
  | nil => trivial
  | cons part rest ih =>
      obtain ⟨hpart, hrest⟩ := List.forall_mem_cons.mp h
      exact ⟨_, hpart, ih hrest⟩

section
variable {schema table : String} {fields values keys : List (String × Value)}

theorem legible_insertParts
    (h : ∀ name ∈ schema :: table :: fields.map Prod.fst, IsSealed name) :
    Legible {} (insertParts schema table fields) := by
  simp only [List.forall_mem_cons, List.forall_mem_map] at h
  obtain ⟨hschema, htable, hfields⟩ := h
  refine legible_of_forall <| forall_mem_insertParts (fun _ => Position.past?_char) (fun _ => rfl)
    (Position.past?_bare hschema) (Position.past?_bare htable) fun field hfield => ?_
  rw [Position.past?_quoted]
  exact Position.past?_bare (hfields field hfield)

theorem legible_updateParts
    (h : ∀ name ∈ schema :: table :: (values ++ keys).map Prod.fst, IsSealed name) :
    Legible {} (updateParts schema table values keys) := by
  simp only [List.forall_mem_cons, List.forall_mem_map, List.forall_mem_append] at h
  obtain ⟨hschema, htable, hvalues, hkeys⟩ := h
  have hquoted {name : String} (hname : IsSealed name) :
      Position.past? {} (.quoted name) = some {} := by
    rw [Position.past?_quoted]
    exact Position.past?_bare hname
  exact legible_of_forall <| forall_mem_updateParts (fun _ => Position.past?_char) (fun _ => rfl)
    (Position.past?_bare hschema) (Position.past?_bare htable)
    (fun value hvalue => hquoted (hvalues value hvalue)) fun key hkey => hquoted (hkeys key hkey)

end

/-! ### Inserts and updates -/

/-- An insert is rendered with the literal of each value in the place of its column, and an update
with each value behind its column, exactly if their parts are legible; and they are if all names
are sealed, whatever characters the names and the values have besides. -/
theorem render_exact_iff (c : Contract) (table : String) {columns : List String}
    {row : List Value} (hrow : row.length = columns.length) (values keys : List (String × Value)) :
    (render (insertText (c.qualifiedTable table) columns) row =
        .ok (insertLine (c.qualifiedTable table) columns row) ↔
      Legible {} (insertParts c.targetSchema table (columns.zip row))) ∧
    (render (updateCommand (c.qualifiedTable table) values keys).text
        (updateCommand (c.qualifiedTable table) values keys).params =
        .ok (updateLine (c.qualifiedTable table) values keys) ↔
      Legible {} (updateParts c.targetSchema table values keys)) ∧
    ((∀ name ∈ c.targetSchema :: table :: columns, IsSealed name) →
      Legible {} (insertParts c.targetSchema table (columns.zip row))) ∧
    ((∀ name ∈ c.targetSchema :: table :: (values ++ keys).map Prod.fst, IsSealed name) →
      Legible {} (updateParts c.targetSchema table values keys)) := by
  have hcolumns : (columns.zip row).map Prod.fst = columns :=
    List.map_fst_zip (Nat.le_of_eq hrow.symm)
  have hvalues : (columns.zip row).map Prod.snd = row := List.map_snd_zip (Nat.le_of_eq hrow)
  have htext := text_insertParts c table (columns.zip row)
  have hline := line_insertParts c table (columns.zip row)
  rw [hcolumns] at htext hline
  rw [hvalues] at hline
  refine ⟨render_parts_eq_ok_iff htext hline ?_, ?_, fun h => ?_, legible_updateParts⟩
  · rw [values_insertParts, hvalues]
  · exact render_parts_eq_ok_iff (text_updateParts c table values keys)
      (line_updateParts c table values keys) (values_updateParts _ _ _ values keys)
  · refine legible_insertParts ?_
    rwa [hcolumns]

def asking : Contract := { targetSchema := "why?", mappings := [] }

theorem render_exact_iff_asking :
    (∀ name ∈ ["why?", "it's", "a?", "b]c"], IsSealed name) ∧
      render (insertText (asking.qualifiedTable "it's") ["a?", "b]c"]) [.text "?]'", .null] =
        .ok "INSERT INTO [why?].[it's] ([a?], [b]]c]) VALUES (N'?]''', NULL)" ∧
      render (updateCommand (asking.qualifiedTable "it's") [("a?", .int 1)]
            [("b]c", .null), ("d[", .text "?")]).text [.int 1, .text "?"] =
        .ok "UPDATE [why?].[it's] SET [a?] = 1 WHERE [b]]c] IS NULL AND [d[] = N'?'" := by
  have hrow : [Value.text "?]'", .null].length = ["a?", "b]c"].length := rfl
  obtain ⟨hinsert, hupdate, hfields, hkeys⟩ := render_exact_iff asking "it's" hrow
    [("a?", .int 1)] [("b]c", .null), ("d[", .text "?")]
  have hnames : ∀ name ∈ ["why?", "it's", "a?", "b]c"], IsSealed name := by decide
  have hmore : ∀ name ∈ ["why?", "it's", "a?", "b]c", "d["], IsSealed name := by decide
  exact ⟨hnames, hinsert.mpr (hfields hnames), hupdate.mpr (hkeys hmore)⟩

/-- A question mark behind a closing bracket takes the value of the column for itself: then there
is none left for the place, or the literal ends up in the name. -/
theorem render_misreads_names :
    (¬ ∀ (columns : List String) (row : List Value), row.length = columns.length →
      render (insertText (asking.qualifiedTable "t") columns) row =
        .ok (insertLine (asking.qualifiedTable "t") columns row)) ∧
      render (insertText (asking.qualifiedTable "t") ["a]?"]) [.int 1] =
        .error (.tooFew "INSERT INTO [why?].[t] ([a]]?]) VALUES (?)") ∧
      render (insertText (asking.qualifiedTable "t") ["a]?'"]) [.int 1] =
        .ok "INSERT INTO [why?].[t] ([a]]1']) VALUES (?)" := by
  have hfails : render (insertText (asking.qualifiedTable "t") ["a]?"]) [.int 1] =
      .error (.tooFew "INSERT INTO [why?].[t] ([a]]?]) VALUES (?)") := rfl
  refine ⟨fun h => ?_, hfails, rfl⟩
  have hmeant := h ["a]?"] [.int 1] rfl
  rw [hfails] at hmeant
  cases hmeant

end Sql

end RowContract
