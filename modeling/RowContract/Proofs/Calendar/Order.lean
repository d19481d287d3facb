import Mathlib.Data.Int.Order.Basic
import Mathlib.Data.List.Lex
import RowContract.Calendar.Basic

/-!
The order of moments: that of their parts, the year first.
-/

namespace RowContract.DateTime

/-- Lists of equal length are compared as words are in a dictionary. -/
theorem earlierParts_iff {a b : List Int} (h : a.length = b.length) :
    earlierParts a b = true ↔ List.Lex (· < ·) a b := by
  induction a generalizing b with
  | nil =>
      obtain rfl := List.eq_nil_of_length_eq_zero h.symm
      exact iff_of_false Bool.false_ne_true nofun
  | cons x a ih =>
      cases b with
      | nil => cases h
      | cons y b =>
          rw [earlierParts, Bool.or_eq_true, Bool.and_eq_true, decide_eq_true_eq, beq_iff_eq,
            ih (Nat.succ.inj h), List.cons_lex_cons_iff]

theorem isBefore_eq_false_iff (t u : DateTime) :
    t.isBefore u = false ↔ ¬ List.Lex (· < ·) t.parts u.parts := by
  have hlength : t.parts.length = u.parts.length := rfl
  rw [Bool.eq_false_iff, ne_eq, isBefore, earlierParts_iff hlength]

/-- Of two moments one is not before the other. -/
theorem isBefore_total (t u : DateTime) : t.isBefore u = false ∨ u.isBefore t = false := by
  rw [isBefore_eq_false_iff, isBefore_eq_false_iff, ← not_and_or]
  exact fun hboth => asymm_of _ hboth.1 hboth.2

theorem isBefore_trans {t u v : DateTime} (htu : t.isBefore u = false)
    (huv : u.isBefore v = false) : t.isBefore v = false := by
  rw [isBefore_eq_false_iff] at *
  exact IsOrderConnected.neg_trans htu huv

end RowContract.DateTime
