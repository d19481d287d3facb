import Mathlib
import RowContract.Proofs.Expr.Contents
import RowContract.Proofs.Expr.Lexer

/-!
The names in an expression.  The lexer makes names of words only, and never of a word that
is refused or that is a keyword, however its letters are written.  The parser keeps them:
the names of a tree, in the order in which they are written, are those of its tokens.
-/

namespace RowContract.Expr

open RowContract.Text

/-! ### What may be a name -/

structure IsFieldName (name : String) : Prop where
  noDoubleUnderscore : ¬ ['_', '_'] <:+: name.toList
  notDenied : ∀ word ∈ deniedWords, sameIgnoringCase name word = false
  notKeyword : ∀ k : Keyword, sameIgnoringCase name k.text = false

theorem hasDoubleUnderscore_iff (cs : List Char) :
    hasDoubleUnderscore cs = true ↔ ['_', '_'] <:+: cs := by
  fun_induction hasDoubleUnderscore cs with
  | case1 r => exact iff_of_true rfl (List.prefix_append ['_', '_'] r).isInfix
  | case2 c r hne ih =>
      rw [ih, List.infix_cons_iff]
      refine ⟨.inr, fun h => h.resolve_left fun hprefix => ?_⟩
      obtain ⟨more, hmore⟩ := hprefix
      obtain ⟨rfl, rfl⟩ := List.cons.inj hmore
      exact hne more rfl rfl
  | case3 => exact iff_of_false Bool.false_ne_true (by simp)

theorem toUpper_toLower (s : String) : s.toLower.toUpper = s.toUpper := by
  apply String.toList_inj.mp
  simp only [String.toUpper, String.toLower, String.toList_map, List.map_map]
  exact List.map_congr_left fun c _ => c.toUpper_toLower_eq_toUpper

theorem Keyword.toUpper_text (k : Keyword) : k.text.toUpper = k.text := by
  cases k <;> decide +kernel

theorem Keyword.mem_all (k : Keyword) : k ∈ Keyword.all := by
  cases k <;> decide

theorem not_sameIgnoringCase_of_ofWord? {name : String} (h : Keyword.ofWord? name = none)
    (k : Keyword) : sameIgnoringCase name k.text = false := by
  rw [Bool.eq_false_iff]
  intro hsame
  have hupper := congrArg String.toUpper (beq_iff_eq.mp hsame)
  rw [toUpper_toLower, toUpper_toLower, k.toUpper_text] at hupper
  have hnone := List.find?_eq_none.mp h k k.mem_all
  rw [hupper, beq_self_eq_true] at hnone
  exact hnone rfl

theorem not_sameIgnoringCase_of_not_contains {name : String}
    (h : deniedWords.contains name.toLower = false) {word : String} (hword : word ∈ deniedWords) :
    sameIgnoringCase name word = false := by
  have hlower : ∀ w ∈ deniedWords, w.toLower = w := by decide +kernel
  unfold sameIgnoringCase
  rw [hlower word hword, beq_eq_false_iff_ne]
  rintro rfl
  rw [List.contains_iff_mem.mpr hword] at h
  cases h

theorem isFieldName_of_classifyWord {word : List Char} {name : String}
    (h : classifyWord word = .ok (.identifier name)) : IsFieldName name := by
  unfold classifyWord at h
  simp only [] at h
  split at h
  · cases h
  · next hrefused =>
      rw [Bool.or_eq_true, not_or, Bool.not_eq_true, Bool.not_eq_true] at hrefused
      split at h
      · cases h
      · next hkeyword =>
          obtain rfl := Token.identifier.inj (Except.ok.inj h)
          refine ⟨?_, fun w hw => not_sameIgnoringCase_of_not_contains hrefused.2 hw,
            not_sameIgnoringCase_of_ofWord? hkeyword⟩
          rw [String.toList_ofList, ← hasDoubleUnderscore_iff, hrefused.1]
          exact Bool.false_ne_true

theorem isFieldName_of_nextToken {c : Char} {r rest : List Char} {name : String}
    (h : nextToken c r = .ok (.identifier name, rest)) : IsFieldName name := by
  cases nextToken_eq_ok_iff.mp h with
  | word hname hword => exact isFieldName_of_classifyWord hword

/-- No text makes a name of a word that may not be one. -/
theorem isFieldName_of_tokenize {cs : List Char} {ts : List Token} (h : tokenize cs = .ok ts)
    {name : String} (hname : .identifier name ∈ ts) : IsFieldName name := by
  obtain ⟨c, r, rest, -, htoken⟩ := exists_nextToken_of_mem h hname
  exact isFieldName_of_nextToken htoken

/-! ### The names of a tree -/

def names (ts : List Token) : List String :=
  ts.filterMap fun
    | .identifier name => some name
    | _ => none

theorem names_append (ts more : List Token) : names (ts ++ more) = names ts ++ names more :=
  List.filterMap_append

theorem names_compareOp (op : CompareOp) (ts : List Token) :
    names (op.token :: ts) = names ts := by cases op <;> rfl

theorem mem_names_iff {ts : List Token} {name : String} :
    name ∈ names ts ↔ .identifier name ∈ ts := by
  unfold names
  rw [List.mem_filterMap]
  constructor
  · rintro ⟨t, ht, heq⟩
    cases t with
    | identifier n =>
        obtain rfl := Option.some.inj heq
        exact ht
    | _ => cases heq
  · intro h
    exact ⟨_, h, rfl⟩

/-- A name is content. -/
theorem names_contents (ts : List Token) : names (contents ts) = names ts := by
  unfold names contents
  rw [List.filterMap_filter]
  refine List.filterMap_congr fun t _ => ?_
  cases t with
  | identifier name => rfl
  | number | string | keyword | symbol => exact ite_self _

mutual

/-- The names of a tree are those of its contents. -/
theorem Tree.fieldNames_eq : (t : Tree) → t.fieldNames = names t.contents
  | .number _ => rfl
  | .text _ => rfl
  | .null => rfl
  | .field _ => rfl
  | .neg inner => inner.fieldNames_eq
  | .binary _ lhs rhs => by
      rw [Tree.fieldNames, Tree.contents, names_append, lhs.fieldNames_eq, rhs.fieldNames_eq]
  | .case branches => branches.fieldNames_eq

theorem Branches.fieldNames_eq : (b : Branches) → b.fieldNames = names b.contents
  | .arm condition value rest => by
      rw [Branches.fieldNames, Branches.contents, names_append, names_append,
        condition.fieldNames_eq, value.fieldNames_eq, rest.fieldNames_eq]
  | .otherwise value => value.fieldNames_eq
  | .done => rfl

theorem Condition.fieldNames_eq : (c : Condition) → c.fieldNames = names c.contents
  | .compare op lhs rhs => by
      rw [Condition.fieldNames, Condition.contents, names_append, names_compareOp,
        lhs.fieldNames_eq, rhs.fieldNames_eq]
  | .isNull operand _ => operand.fieldNames_eq
  | .not inner => inner.fieldNames_eq
  | .and a b => by
      rw [Condition.fieldNames, Condition.contents, names_append, a.fieldNames_eq, b.fieldNames_eq]
  | .or a b => by
      rw [Condition.fieldNames, Condition.contents, names_append, a.fieldNames_eq, b.fieldNames_eq]

end

theorem fieldNames_of_parse {ts : List Token} {root : Tree} (h : parse ts = .ok root) :
    root.fieldNames = names ts := by
  rw [root.fieldNames_eq, contents_of_parse h, names_contents]

/-! ### Each name once -/

theorem mem_insertName_iff {name n : String} {ns : List String} :
    n ∈ insertName name ns ↔ n = name ∨ n ∈ ns := by
  induction ns with
  | nil => simp [insertName]
  | cons m r ih =>
      unfold insertName
      split
      next h => simp [h]
      next =>
        split
        · exact List.mem_cons
        · rw [List.mem_cons, ih, List.mem_cons, or_left_comm]

theorem mem_sortNames_iff {n : String} {ns : List String} : n ∈ sortNames ns ↔ n ∈ ns := by
  unfold sortNames
  induction ns with
  | nil => exact Iff.rfl
  | cons m r ih => rw [List.foldr_cons, mem_insertName_iff, ih, List.mem_cons]

theorem pairwise_insertName {name : String} {ns : List String} (h : ns.Pairwise (· < ·)) :
    (insertName name ns).Pairwise (· < ·) := by
  induction ns with
  | nil => exact List.pairwise_singleton _ _
  | cons m r ih =>
      obtain ⟨hm, hr⟩ := List.pairwise_cons.mp h
      unfold insertName
      split
      · exact h
      next hne =>
        split
        next hlt =>
          refine List.pairwise_cons.mpr ⟨fun n hn => ?_, h⟩
          rcases List.mem_cons.mp hn with rfl | hn
          · exact hlt
          · exact hlt.trans (hm n hn)
        next hnlt =>
          have hgt : m < name := lt_of_le_of_ne (not_lt.mp hnlt) (Ne.symm hne)
          refine List.pairwise_cons.mpr ⟨fun n hn => ?_, ih hr⟩
          rcases mem_insertName_iff.mp hn with rfl | hn
          · exact hgt
          · exact hm n hn

theorem pairwise_sortNames (ns : List String) : (sortNames ns).Pairwise (· < ·) := by
  unfold sortNames
  induction ns with
  | nil => exact List.Pairwise.nil
  | cons m r ih => exact pairwise_insertName ih

end RowContract.Expr
