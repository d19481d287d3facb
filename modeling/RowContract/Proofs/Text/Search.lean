import RowContract.Text.Search

/-!
Cutting texts at a part that stands apart from what is before it.  A part stands apart
from a text if it cannot begin inside it, whatever follows: then the first occurrence
of the part after the text is the one right behind it, and texts that are joined by the
part fall into the same texts again.
-/

namespace RowContract.Text

/-- A part cannot begin inside a text, whatever follows the text. -/
inductive Apart (part : List Char) : List Char → Prop
  | nil : Apart part []
  | cons {c : Char} {r : List Char} (hinside : ¬ part <+: c :: r) (hend : ¬ c :: r <+: part)
      (hrest : Apart part r) : Apart part (c :: r)

theorem apart_cons_iff {part : List Char} {c : Char} {r : List Char} :
    Apart part (c :: r) ↔ ¬ part <+: c :: r ∧ ¬ c :: r <+: part ∧ Apart part r := by
  constructor
  · rintro ⟨⟩
    exact ⟨‹_›, ‹_›, ‹_›⟩
  · rintro ⟨hinside, hend, hrest⟩
    exact .cons hinside hend hrest

instance decidableApart (part : List Char) : (cs : List Char) → Decidable (Apart part cs)
  | [] => .isTrue .nil
  | _ :: r =>
    have := decidableApart part r
    decidable_of_iff' _ apart_cons_iff

theorem Apart.not_prefix_append {part : List Char} {c : Char} {r : List Char}
    (h : Apart part (c :: r)) (rest : List Char) : ¬ part <+: c :: r ++ rest := by
  obtain ⟨hinside, hend, -⟩ := apart_cons_iff.mp h
  intro hpart
  -- The part and the text are both in front of the whole, so one begins with the other.
  rcases List.prefix_or_prefix_of_prefix hpart (List.prefix_append (c :: r) rest) with hp | hp
  · exact hinside hp
  · exact hend hp

theorem Apart.append {part first second : List Char} (hfirst : Apart part first)
    (hsecond : Apart part second) : Apart part (first ++ second) := by
  induction hfirst with
  | nil => exact hsecond
  | @cons c r hinside hend hrest ih =>
      refine .cons ((Apart.cons hinside hend hrest).not_prefix_append second) (fun hp => ?_) ih
      exact hend ((List.prefix_append (c :: r) second).trans hp)

/-- A part stands apart from every text without its first character. -/
theorem apart_of_notMem {a : Char} {part cs : List Char} (h : a ∉ cs) : Apart (a :: part) cs := by
  induction cs with
  | nil => exact .nil
  | cons c r ih =>
      rw [List.mem_cons, not_or] at h
      refine .cons (fun hp => ?_) (fun hp => ?_) (ih h.2)
      · exact h.1 (List.cons_prefix_cons.mp hp).1
      · exact h.1 (List.cons_prefix_cons.mp hp).1.symm

theorem apart_append_intercalate {part sep : List Char} {texts : List (List Char)}
    (htexts : texts ≠ []) (h : ∀ text ∈ texts, Apart part (sep ++ text)) :
    Apart part (sep ++ sep.intercalate texts) := by
  induction texts with
  | nil => exact absurd rfl htexts
  | cons first rest ih =>
      have hfirst := h first List.mem_cons_self
      cases rest with
      | nil => rwa [List.intercalate_singleton]
      | cons second rest =>
          have hrest := ih (by simp) fun text htext => h text (List.mem_cons_of_mem _ htext)
          rw [List.intercalate_cons_cons, List.append_assoc, ← List.append_assoc]
          exact hfirst.append hrest

/-- A part stands apart from joined texts if it does from each of them, also from one with the join
in front. -/
theorem apart_intercalate {part sep : List Char} {texts : List (List Char)}
    (h : ∀ text ∈ texts, Apart part text) (hsep : ∀ text ∈ texts, Apart part (sep ++ text)) :
    Apart part (sep.intercalate texts) := by
  cases texts with
  | nil => exact .nil
  | cons first rest =>
      have hfirst := h first List.mem_cons_self
      cases rest with
      | nil => rwa [List.intercalate_singleton]
      | cons second rest =>
          have hrest := apart_append_intercalate (by simp) fun text htext =>
            hsep text (List.mem_cons_of_mem first htext)
          rw [List.intercalate_cons_cons, List.append_assoc]
          exact hfirst.append hrest

/-! ### Cutting once -/

theorem dropPrefix?_of_ne {a b : Char} (h : a ≠ b) (part cs : List Char) :
    dropPrefix? (a :: part) (b :: cs) = none := by
  simp [dropPrefix?, h]

theorem dropPrefix?_append (part cs : List Char) : dropPrefix? part (part ++ cs) = some cs := by
  rw [dropPrefix?, if_pos (by simp), List.drop_left]

theorem cut?_append {part before : List Char} (h : Apart part before) (after : List Char) :
    cut? part (before ++ (part ++ after)) = some (before, after) := by
  induction h with
  | nil =>
      rw [List.nil_append]
      cases part with
      | nil => cases after <;> simp [cut?]
      | cons a p => simp [cut?]
  | @cons c r hinside hend hrest ih =>
      have hp : part.isPrefixOf (c :: (r ++ (part ++ after))) = false := by
        rw [Bool.eq_false_iff, Ne, List.isPrefixOf_iff_prefix]
        exact (Apart.cons hinside hend hrest).not_prefix_append (part ++ after)
      rw [List.cons_append, cut?, hp, if_neg Bool.false_ne_true, ih]
      rfl

theorem cutLast?_of_notMem {mark : Char} {cs : List Char} (h : mark ∉ cs) :
    cutLast? mark cs = none := by
  induction cs with
  | nil => rfl
  | cons c r ih =>
      rw [List.mem_cons, not_or] at h
      rw [cutLast?, ih h.2]
      exact if_neg (Ne.symm h.1)

theorem cutLast?_append {mark : Char} {after : List Char} (h : mark ∉ after)
    (before : List Char) : cutLast? mark (before ++ mark :: after) = some (before, after) := by
  induction before with
  | nil =>
      rw [List.nil_append, cutLast?, cutLast?_of_notMem h]
      exact if_pos rfl
  | cons c r ih => rw [List.cons_append, cutLast?, ih]

/-! ### Cutting everywhere -/

theorem pieces_of_apart {part cs : List Char} (h : Apart part cs) : pieces part cs = [cs] := by
  unfold pieces
  induction h with
  | nil => rfl
  | @cons c r hinside _ _ ih =>
      have hp : part.isPrefixOf (c :: r) = false := by
        rw [Bool.eq_false_iff, Ne, List.isPrefixOf_iff_prefix]
        exact hinside
      simp only [piecesFrom, hp, Bool.false_eq_true, if_false, ih]

theorem piecesFrom_append (part skipped rest : List Char) :
    piecesFrom part skipped.length (skipped ++ rest) = piecesFrom part 0 rest := by
  induction skipped with
  | nil => rfl
  | cons c r ih => exact ih

theorem pieces_append {part first : List Char} (hpart : part ≠ []) (h : Apart part first)
    (rest : List Char) : pieces part (first ++ (part ++ rest)) = first :: pieces part rest := by
  unfold pieces
  induction h with
  | nil =>
      obtain ⟨a, p, rfl⟩ := List.exists_cons_of_ne_nil hpart
      have hp : (a :: p).isPrefixOf (a :: (p ++ rest)) = true := by simp
      have hskip := piecesFrom_append (a :: p) p rest
      simp only [List.nil_append, List.cons_append, piecesFrom, hp, if_true, List.length_cons,
        Nat.add_sub_cancel, hskip]
  | @cons c r hinside hend hrest ih =>
      have hp : part.isPrefixOf (c :: (r ++ (part ++ rest))) = false := by
        rw [Bool.eq_false_iff, Ne, List.isPrefixOf_iff_prefix]
        exact (Apart.cons hinside hend hrest).not_prefix_append (part ++ rest)
      simp only [List.cons_append, piecesFrom, hp, Bool.false_eq_true, if_false, ih]

/-- Texts that are joined by a part fall into the same texts again. -/
theorem pieces_intercalate {part : List Char} (hpart : part ≠ []) {texts : List (List Char)}
    (htexts : texts ≠ []) (h : ∀ text ∈ texts, Apart part text) :
    pieces part (part.intercalate texts) = texts := by
  induction texts with
  | nil => exact absurd rfl htexts
  | cons first rest ih =>
      have hfirst := h first (by simp)
      cases rest with
      | nil =>
          rw [List.intercalate_singleton]
          exact pieces_of_apart hfirst
      | cons second rest =>
          have hrest := ih (by simp) fun text htext => h text (List.mem_cons_of_mem _ htext)
          rw [List.intercalate_cons_cons, List.append_assoc, pieces_append hpart hfirst, hrest]

/-! ### Cutting at the end -/

theorem dropSuffix?_append (cs part : List Char) : dropSuffix? part (cs ++ part) = some cs := by
  rw [dropSuffix?, List.reverse_append, dropPrefix?_append]
  simp

theorem dropSuffix?_eq_none {cs part : List Char} (h : ¬ part <:+ cs) :
    dropSuffix? part cs = none := by
  have hp : part.reverse.isPrefixOf cs.reverse = false := by
    rw [Bool.eq_false_iff, Ne, List.isPrefixOf_iff_prefix, List.reverse_prefix]
    exact h
  rw [dropSuffix?, dropPrefix?, hp, if_neg Bool.false_ne_true]
  rfl

/-- A part that stands at the end once is dropped once. -/
theorem dropSuffixes_append {cs part : List Char} (h : ¬ part <:+ cs) (fuel : Nat) :
    dropSuffixes part (fuel + 1) (cs ++ part) = cs := by
  rw [dropSuffixes, dropSuffix?_append]
  cases fuel with
  | zero => rfl
  | succ n =>
      dsimp only
      rw [dropSuffixes, dropSuffix?_eq_none h]

end RowContract.Text
