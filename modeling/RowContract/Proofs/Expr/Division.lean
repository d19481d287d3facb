import RowContract.Expr.Outcome
import RowContract.Proofs.Outcome

/-!
What can go wrong when an expression is evaluated.  Whatever the fields are, a tree has a value
unless it divides by zero: no other fault comes from a tree.
-/

namespace RowContract.Expr

/-- A computation fails in no other way than by a division by zero. -/
def FailsByDivision {α : Type} (x : Except Fault α) : Prop :=
  ∀ fault, x = .error fault → fault = .divisionByZero

theorem failsByDivision_ok {α : Type} (a : α) : FailsByDivision (.ok a) := nofun

theorem failsByDivision_bind {α β : Type} {x : Except Fault α} {f : α → Except Fault β}
    (hx : FailsByDivision x) (hf : ∀ a, FailsByDivision (f a)) : FailsByDivision (x >>= f) := by
  cases x with
  | error fault =>
      intro fault' h
      exact hx fault' (congrArg _ (Except.error.inj h))
  | ok a => exact hf a

theorem failsByDivision_apply (op : BinaryOp) (a b : Float) : FailsByDivision (op.apply a b) := by
  have hguard (x : Float) :
      FailsByDivision (if (b == 0) = true then .error .divisionByZero else .ok x) := by
    split
    · intro fault h
      exact (Except.error.inj h).symm
    · exact failsByDivision_ok x
  cases op with
  | div => exact hguard _
  | floorDiv => exact hguard _
  | mod => exact hguard _
  | _ => exact failsByDivision_ok _

/-- A tree fails only by a division, as it stands, in arithmetic and as a text. -/
structure Tree.DividesOnly (ctx : Context) (t : Tree) : Prop where
  eval : FailsByDivision (t.eval ctx)
  evalNumber : FailsByDivision (t.evalNumber ctx)
  evalText : FailsByDivision (t.evalText ctx)

variable (ctx : Context)

-- The trees of a case hold branches, these hold conditions, and both hold trees again, so the three
-- statements are proved together.

mutual

theorem Tree.dividesOnly : (t : Tree) → t.DividesOnly ctx
  | .number _ => ⟨failsByDivision_ok _, failsByDivision_ok _, failsByDivision_ok _⟩
  | .text _ => ⟨failsByDivision_ok _, failsByDivision_ok _, failsByDivision_ok _⟩
  | .null => ⟨failsByDivision_ok _, failsByDivision_ok _, failsByDivision_ok _⟩
  | .field _ => ⟨failsByDivision_ok _, failsByDivision_ok _, failsByDivision_ok _⟩
  | .neg inner => by
      have hinner := inner.dividesOnly.evalNumber
      constructor
      · rw [Tree.eval]
        exact failsByDivision_bind hinner fun _ => failsByDivision_ok _
      · rw [Tree.evalNumber]
        exact failsByDivision_bind hinner fun _ => failsByDivision_ok _
      · rw [Tree.evalText]
        exact failsByDivision_bind hinner fun _ => failsByDivision_ok _
  | .binary op lhs rhs => by
      have hlhs := lhs.dividesOnly.evalNumber
      have hrhs := rhs.dividesOnly.evalNumber
      -- An operation works on numbers; whatever is made of its result cannot fail.
      have hboth {α : Type} (f : Float → Except Fault α) (hf : ∀ x, FailsByDivision (f x)) :
          FailsByDivision (lhs.evalNumber ctx >>= fun a => rhs.evalNumber ctx >>= fun b =>
            op.apply a b >>= f) :=
        failsByDivision_bind hlhs fun a => failsByDivision_bind hrhs fun b =>
          failsByDivision_bind (failsByDivision_apply op a b) hf
      constructor
      · rw [Tree.eval]
        exact hboth _ fun _ => failsByDivision_ok _
      · rw [Tree.evalNumber]
        exact failsByDivision_bind hlhs fun a => failsByDivision_bind hrhs fun b =>
          failsByDivision_apply op a b
      · rw [Tree.evalText]
        exact hboth _ fun _ => failsByDivision_ok _
  | .case branches => by
      have hbranches := branches.failsByDivision
      constructor
      · rw [Tree.eval]
        exact hbranches
      · rw [Tree.evalNumber]
        exact failsByDivision_bind hbranches fun _ => failsByDivision_ok _
      · rw [Tree.evalText]
        exact failsByDivision_bind hbranches fun _ => failsByDivision_ok _

theorem Branches.failsByDivision : (b : Branches) → FailsByDivision (b.eval ctx)
  | .arm condition value rest => by
      rw [Branches.eval]
      refine failsByDivision_bind condition.failsByDivision fun holds => ?_
      cases holds with
      | true => exact value.dividesOnly.eval
      | false => exact rest.failsByDivision
  | .otherwise value => value.dividesOnly.eval
  | .done => failsByDivision_ok _

theorem Condition.failsByDivision : (c : Condition) → FailsByDivision (c.eval ctx)
  | .not inner => by
      rw [Condition.eval]
      exact failsByDivision_bind inner.failsByDivision fun _ => failsByDivision_ok _
  | .and a b => by
      rw [Condition.eval]
      refine failsByDivision_bind a.failsByDivision fun holds => ?_
      cases holds with
      | true => exact b.failsByDivision
      | false => exact failsByDivision_ok _
  | .or a b => by
      rw [Condition.eval]
      refine failsByDivision_bind a.failsByDivision fun holds => ?_
      cases holds with
      | true => exact failsByDivision_ok _
      | false => exact b.failsByDivision
  | .isNull operand negated => by
      rw [Condition.eval]
      exact failsByDivision_bind operand.dividesOnly.eval fun _ => failsByDivision_ok _
  | .compare op lhs rhs => by
      have hlhs := lhs.dividesOnly
      have hrhs := rhs.dividesOnly
      have hordered : FailsByDivision (lhs.eval ctx >>= fun a => rhs.eval ctx >>= fun b =>
          match a.number?, b.number? with
          | some a, some b => .ok (op.holds a b)
          | _, _ => .ok false) := by
        refine failsByDivision_bind hlhs.eval fun a => failsByDivision_bind hrhs.eval fun b => ?_
        split <;> exact failsByDivision_ok _
      cases op with
      | eq =>
          rw [Condition.eval]
          exact failsByDivision_bind hlhs.evalText fun _ =>
            failsByDivision_bind hrhs.evalText fun _ => failsByDivision_ok _
      | notEq =>
          rw [Condition.eval]
          exact failsByDivision_bind hlhs.evalText fun _ =>
            failsByDivision_bind hrhs.evalText fun _ => failsByDivision_ok _
      | lt | le | gt | ge => exact hordered

end

end RowContract.Expr
