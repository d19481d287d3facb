import RowContract.Proofs.Expr.Sandbox

/-!
Bare arithmetic.  An expression that is no case distinction from its first word on may not have the
characters of quotes and comparisons, and without these characters no text and no comparison comes
to be a token.  A tree has no others than its tokens, so it has none at any depth, also in the case
distinctions that may stand as operands: what their conditions ask is which operands are missing.
-/

namespace RowContract

namespace Expr

mutual

/-- No text and no comparison stands anywhere in the expression. -/
def Tree.Bare : Tree → Prop
  | .number _ => True
  | .text _ => False
  | .null => True
  | .field _ => True
  | .neg inner => inner.Bare
  | .binary _ lhs rhs => lhs.Bare ∧ rhs.Bare
  | .case branches => branches.Bare

/-- None stands in the arms and what follows them. -/
def Branches.Bare : Branches → Prop
  | .arm condition value rest => condition.Bare ∧ value.Bare ∧ rest.Bare
  | .otherwise value => value.Bare
  | .done => True

/-- The condition is made of tests for missing values by negation, conjunction and disjunction, and
none stands in what it tests. -/
def Condition.Bare : Condition → Prop
  | .compare _ _ _ => False
  | .isNull operand _ => operand.Bare
  | .not inner => inner.Bare
  | .and a b => a.Bare ∧ b.Bare
  | .or a b => a.Bare ∧ b.Bare

end

def Token.Bare : Token → Prop
  | .string _ => False
  | .symbol s => compareOp? (.symbol s) = none
  | _ => True

theorem CompareOp.not_bare_token (op : CompareOp) : ¬ op.token.Bare := by
  cases op <;> exact fun h => nomatch h

theorem Token.bare_of_isContent_eq_false {t : Token} (h : t.isContent = false) : t.Bare := by
  cases t with
  | identifier | number | keyword => exact trivial
  | string => cases h
  | symbol s => exact Option.not_isSome_iff_eq_none.mp (Bool.eq_false_iff.mp h)

theorem forall_mem_contents_iff {ts : List Token} :
    (∀ t ∈ contents ts, t.Bare) ↔ ∀ t ∈ ts, t.Bare := by
  unfold contents
  constructor
  · intro h t ht
    cases hcontent : t.isContent with
    | true => exact h t (List.mem_filter.mpr ⟨ht, hcontent⟩)
    | false => exact Token.bare_of_isContent_eq_false hcontent
  · exact fun h t ht => h t (List.mem_of_mem_filter ht)

/-! ### Trees and their tokens -/

mutual

theorem Tree.bare_iff : (t : Tree) → (t.Bare ↔ ∀ a ∈ t.contents, a.Bare)
  | .number _ => by simp [Tree.Bare, Tree.contents, Token.Bare]
  | .text _ => by simp [Tree.Bare, Tree.contents, Token.Bare]
  | .null => by simp [Tree.Bare, Tree.contents]
  | .field _ => by simp [Tree.Bare, Tree.contents, Token.Bare]
  | .neg inner => inner.bare_iff
  | .binary _ lhs rhs => by
      rw [Tree.Bare, Tree.contents, List.forall_mem_append, lhs.bare_iff, rhs.bare_iff]
  | .case branches => branches.bare_iff

theorem Branches.bare_iff : (b : Branches) → (b.Bare ↔ ∀ a ∈ b.contents, a.Bare)
  | .arm condition value rest => by
      rw [Branches.Bare, Branches.contents, List.forall_mem_append, List.forall_mem_append,
        and_assoc, condition.bare_iff, value.bare_iff, rest.bare_iff]
  | .otherwise value => value.bare_iff
  | .done => by simp [Branches.Bare, Branches.contents]

theorem Condition.bare_iff : (c : Condition) → (c.Bare ↔ ∀ a ∈ c.contents, a.Bare)
  | .compare op _ _ => by
      rw [Condition.Bare, Condition.contents, List.forall_mem_append, List.forall_mem_cons]
      exact ⟨False.elim, fun h => op.not_bare_token h.2.1⟩
  | .isNull operand _ => operand.bare_iff
  | .not inner => inner.bare_iff
  | .and a b => by
      rw [Condition.Bare, Condition.contents, List.forall_mem_append, a.bare_iff, b.bare_iff]
  | .or a b => by
      rw [Condition.Bare, Condition.contents, List.forall_mem_append, a.bare_iff, b.bare_iff]

end

/-- A tree is bare exactly if its tokens are. -/
theorem bare_iff_of_parse {ts : List Token} {root : Tree} (h : parse ts = .ok root) :
    root.Bare ↔ ∀ t ∈ ts, t.Bare := by
  rw [root.bare_iff, contents_of_parse h, forall_mem_contents_iff]

end Expr

namespace Expression

open RowContract.Expr RowContract.Text

/-! ### Characters -/

/-- The text begins with the word that opens a case distinction, in letters of either case, and
goes on with a blank. -/
def OpensCase (cs : List Char) : Prop :=
  ∃ word c rest, cs = word ++ c :: rest ∧ sameIgnoringCase (String.ofList word) "case" = true ∧
    isBlank c = true

theorem startsWithCase_iff {cs : List Char} : startsWithCase cs = true ↔ OpensCase cs := by
  unfold startsWithCase OpensCase
  rw [Bool.and_eq_true, Option.any_eq_true]
  constructor
  · rintro ⟨hword, c, hc, hblank⟩
    have hrest := List.eq_cons_of_mem_head? hc
    exact ⟨cs.take 4, c, (cs.drop 4).tail, by rw [← hrest, List.take_append_drop], hword, hblank⟩
  · rintro ⟨word, c, rest, rfl, hword, hblank⟩
    have hlength : word.length = 4 := by
      have hletters := congrArg List.length (sameIgnoringCase_iff.mp hword)
      rwa [List.length_map, List.length_map, String.toList_ofList] at hletters
    rw [List.take_left' hlength, List.drop_left' hlength]
    exact ⟨hword, c, rfl, hblank⟩

instance (cs : List Char) : Decidable (OpensCase cs) :=
  decidable_of_iff _ startsWithCase_iff

/-- A comparison is written with a character that bare arithmetic may not have. -/
theorem bare_of_mem_spellings {s : Symbol} {w : String} (hw : w ∈ s.spellings)
    (h : ∀ c ∈ w.toList, isArithmeticChar c = true) : (Token.symbol s).Bare := by
  have hall : ∀ w ∈ s.spellings, w.toList.all isArithmeticChar = true →
      compareOp? (.symbol s) = none := by
    cases s <;> decide +kernel
  exact hall w hw (List.all_eq_true.mpr h)

/-- A text needs a quote and a comparison its sign, so neither is read off such characters. -/
theorem bare_of_nextToken {c : Char} {r rest : List Char} {t : Token}
    (hall : ∀ a ∈ c :: r, isArithmeticChar a = true) (h : nextToken c r = .ok (t, rest)) :
    t.Bare := by
  cases nextToken_eq_ok_iff.mp h with
  | word hname hword =>
      rcases classifyWord_eq_ok hword with ⟨k, rfl⟩ | rfl
      · exact trivial
      · exact trivial
  | number => exact trivial
  | string hname hnumber hquote hbody =>
      have hc := hall c List.mem_cons_self
      rcases hquote with rfl | rfl
      · exact absurd hc (by decide)
      · exact absurd hc (by decide)
  | symbol hname hnumber hquote hsymbol =>
      obtain ⟨w, hw, more, hcons, rfl⟩ := exists_spelling_of_symbol? hsymbol
      refine bare_of_mem_spellings hw fun a ha => hall a ?_
      rw [hcons] at ha
      exact List.mem_append_left rest ha

theorem isArithmeticChar_of_characterFault? {cs : List Char} (hcase : ¬ OpensCase cs)
    (h : characterFault? cs = none) : ∀ c ∈ cs, isArithmeticChar c = true := by
  unfold characterFault? at h
  rw [if_neg (mt startsWithCase_iff.mp hcase)] at h
  intro c hc
  have hnone := List.find?_eq_none.mp (Option.map_eq_none_iff.mp h) c hc
  simpa using hnone

/-- Of a text that does not open a case distinction, blanks around it apart, an expression is made
only if it is bare: no text and no comparison stands in its tree, however deep, and the conditions
of the case distinctions in it are made of tests for missing values alone. -/
theorem compile_bare {field text : String} {e : Expression} (h : compile field text = .ok e)
    (hcase : ¬ OpensCase (trimChars text.toList)) : e.root.Bare := by
  obtain ⟨hfault, ts, htokens, hparse⟩ := ofText_eq_ok (ofText_of_compile h)
  rw [bare_iff_of_parse hparse]
  intro t ht
  obtain ⟨c, r, rest, hsuffix, htoken⟩ := exists_nextToken_of_mem htokens ht
  have hall := isArithmeticChar_of_characterFault? hcase hfault
  exact bare_of_nextToken (fun a ha => hall a (hsuffix.subset ha)) htoken

/-- A case distinction as the second operand of a sum. -/
theorem compile_bare_operand :
    ∃ e, compile "net" " gross + CASE WHEN NOT (fee IS NULL) THEN 2 * fee ELSE 0 END " = .ok e ∧
      e.isCase = false ∧ e.root.Bare := by
  have hcompile : ((compile "net"
      " gross + CASE WHEN NOT (fee IS NULL) THEN 2 * fee ELSE 0 END ").toOption.any
        fun e => !e.isCase) = true := by
    decide +kernel
  obtain ⟨e, he, hkind⟩ := any_toOption_iff.mp hcompile
  exact ⟨e, he, by simpa using hkind, compile_bare he (by decide +kernel)⟩

end Expression

end RowContract
