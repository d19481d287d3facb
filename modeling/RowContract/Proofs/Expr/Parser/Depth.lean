import RowContract.Proofs.Expr.Parser.Soundness

/-!
The bound on the depth of calls never matters.  Sixteen calls for each token, and the
few calls before the next one is used, are enough: `Rule.calls` counts these.
-/

namespace RowContract.Expr

/-- A bound on the calls that the function of a rule makes before one that has used a token, with
itself. -/
def Rule.calls : Rule → Nat
  | .arith => 5
  | .sums => 1
  | .term => 4
  | .products => 1
  | .unary => 3
  | .power => 2
  | .primary => 1
  | .arms => 1
  | .arm => 10
  | .branches => 1
  | .condition => 9
  | .disjuncts => 1
  | .conjunction => 8
  | .conjuncts => 1
  | .atom => 7
  | .comparison => 6

theorem Rule.calls_pos (n : Rule) : 0 < n.calls := by cases n <;> decide

theorem Rule.calls_le (n : Rule) : n.calls ≤ 16 := by cases n <;> decide

/-- A bound that is high enough for the tokens is never reached. -/
def Bounded (fuel : Nat) : Prop :=
  ∀ (n : Rule) (s : n.Seed) (ts : List Token), 16 * ts.length + n.calls ≤ fuel →
    n.parser fuel s ts ≠ .error .nestingLimit

/-- A token that has to be there leaves less to read. -/
theorem expect_bind_ne_nestingLimit {β : Type} {wanted : Token} {ts : List Token}
    {f : List Token → Except SyntaxFault β}
    (hf : ∀ r, r.length < ts.length → f r ≠ .error .nestingLimit) :
    expect wanted ts >>= f ≠ .error .nestingLimit := by
  refine bind_ne_error ?_ ?_
  · unfold expect
    split
    · split <;> simp
    · simp
  · intro r h
    obtain rfl := eq_of_expect h
    exact hf r (Nat.lt_succ_self _)

namespace Bounded

variable {fuel : Nat} {ts : List Token}

/-- A function of the parser leaves no more to read than there was. -/
theorem bind (ih : Bounded fuel) {β : Type} (n : Rule) (s : n.Seed)
    {f : n.Result × List Token → Except SyntaxFault β} (h : 16 * ts.length + n.calls ≤ fuel)
    (hf : ∀ x r, r.length ≤ ts.length → f (x, r) ≠ .error .nestingLimit) :
    n.parser fuel s ts >>= f ≠ .error .nestingLimit := by
  refine bind_ne_error (ih n s ts h) ?_
  rintro ⟨x, r⟩ hx
  obtain ⟨d, rfl, -⟩ := sound fuel n s hx
  exact hf x r (by simp)

theorem arith (ih : Bounded fuel) (h : 16 * ts.length + 5 ≤ fuel + 1) :
    Expr.arith (fuel + 1) ts ≠ .error .nestingLimit := by
  rw [Expr.arith]
  refine ih.bind .term () (by simp only [Rule.calls]; omega) fun lhs r hr => ?_
  exact ih .sums lhs r (by simp only [Rule.calls]; omega)

theorem sums (ih : Bounded fuel) (lhs : Tree) (h : 16 * ts.length + 1 ≤ fuel + 1) :
    arithTail (fuel + 1) lhs ts ≠ .error .nestingLimit := by
  rw [arithTail]
  split
  · next op r hop =>
      obtain ⟨sign, rfl, rfl⟩ := eq_of_sumOp? hop
      rw [List.length_cons] at h
      refine ih.bind .term () (by simp only [Rule.calls]; omega) fun rhs r' hr => ?_
      exact ih .sums _ r' (by simp only [Rule.calls]; omega)
  · simp

theorem term (ih : Bounded fuel) (h : 16 * ts.length + 4 ≤ fuel + 1) :
    Expr.term (fuel + 1) ts ≠ .error .nestingLimit := by
  rw [Expr.term]
  refine ih.bind .unary () (by simp only [Rule.calls]; omega) fun lhs r hr => ?_
  exact ih .products lhs r (by simp only [Rule.calls]; omega)

theorem products (ih : Bounded fuel) (lhs : Tree) (h : 16 * ts.length + 1 ≤ fuel + 1) :
    termTail (fuel + 1) lhs ts ≠ .error .nestingLimit := by
  rw [termTail]
  split
  · next op r hop =>
      obtain ⟨sign, rfl, rfl⟩ := eq_of_productOp? hop
      rw [List.length_cons] at h
      refine ih.bind .unary () (by simp only [Rule.calls]; omega) fun rhs r' hr => ?_
      exact ih .products _ r' (by simp only [Rule.calls]; omega)
  · simp

theorem unary (ih : Bounded fuel) (h : 16 * ts.length + 3 ≤ fuel + 1) :
    Expr.unary (fuel + 1) ts ≠ .error .nestingLimit := by
  rw [Expr.unary.eq_def]
  dsimp only
  split
  · rw [List.length_cons] at h
    exact ih.bind .unary () (by simp only [Rule.calls]; omega) fun inner r _ => by simp
  · rw [List.length_cons] at h
    exact ih .unary () _ (by simp only [Rule.calls]; omega)
  · exact ih .power () _ (by simp only [Rule.calls]; omega)

theorem power (ih : Bounded fuel) (h : 16 * ts.length + 2 ≤ fuel + 1) :
    Expr.power (fuel + 1) ts ≠ .error .nestingLimit := by
  rw [Expr.power]
  refine ih.bind .primary () (by simp only [Rule.calls]; omega) fun base r hr => ?_
  dsimp only
  split
  · rw [List.length_cons] at hr
    exact ih.bind .unary () (by simp only [Rule.calls]; omega) fun exponent r' _ => by simp
  · simp

theorem primary (ih : Bounded fuel) (h : 16 * ts.length + 1 ≤ fuel + 1) :
    Expr.primary (fuel + 1) ts ≠ .error .nestingLimit := by
  rw [Expr.primary.eq_def]
  dsimp only
  split
  case h_6 r =>
    rw [List.length_cons] at h
    exact ih.bind .arms () (by simp only [Rule.calls]; omega) fun all r' _ => by simp
  case h_7 r =>
    rw [List.length_cons] at h
    refine ih.bind .arith () (by simp only [Rule.calls]; omega) fun inner r' _ => ?_
    exact expect_bind_ne_nestingLimit fun r'' _ => by simp
  all_goals simp

theorem arms (ih : Bounded fuel) (h : 16 * ts.length + 1 ≤ fuel + 1) :
    firstArm (fuel + 1) ts ≠ .error .nestingLimit := by
  rw [firstArm.eq_def]
  dsimp only
  split
  · rw [List.length_cons] at h
    exact ih .arm () _ (by simp only [Rule.calls]; omega)
  · simp

theorem arm (ih : Bounded fuel) (h : 16 * ts.length + 10 ≤ fuel + 1) :
    Expr.arm (fuel + 1) ts ≠ .error .nestingLimit := by
  rw [Expr.arm]
  refine ih.bind .condition () (by simp only [Rule.calls]; omega) fun c r₁ h₁ => ?_
  refine expect_bind_ne_nestingLimit fun r₂ h₂ => ?_
  refine ih.bind .arith () (by simp only [Rule.calls]; omega) fun value r₃ h₃ => ?_
  refine ih.bind .branches () (by simp only [Rule.calls]; omega) fun rest r₄ _ => ?_
  simp

theorem branches (ih : Bounded fuel) (h : 16 * ts.length + 1 ≤ fuel + 1) :
    Expr.branches (fuel + 1) ts ≠ .error .nestingLimit := by
  rw [Expr.branches.eq_def]
  dsimp only
  split
  · rw [List.length_cons] at h
    exact ih .arm () _ (by simp only [Rule.calls]; omega)
  · rw [List.length_cons] at h
    refine ih.bind .arith () (by simp only [Rule.calls]; omega) fun value r' _ => ?_
    exact expect_bind_ne_nestingLimit fun r'' _ => by simp
  · exact expect_bind_ne_nestingLimit fun r' _ => by simp

theorem condition (ih : Bounded fuel) (h : 16 * ts.length + 9 ≤ fuel + 1) :
    Expr.condition (fuel + 1) ts ≠ .error .nestingLimit := by
  rw [Expr.condition]
  refine ih.bind .conjunction () (by simp only [Rule.calls]; omega) fun lhs r hr => ?_
  exact ih .disjuncts lhs r (by simp only [Rule.calls]; omega)

theorem disjuncts (ih : Bounded fuel) (lhs : Condition) (h : 16 * ts.length + 1 ≤ fuel + 1) :
    conditionTail (fuel + 1) lhs ts ≠ .error .nestingLimit := by
  rw [conditionTail.eq_def]
  dsimp only
  split
  · rw [List.length_cons] at h
    refine ih.bind .conjunction () (by simp only [Rule.calls]; omega) fun rhs r' hr => ?_
    exact ih .disjuncts _ r' (by simp only [Rule.calls]; omega)
  · simp

theorem conjunction (ih : Bounded fuel) (h : 16 * ts.length + 8 ≤ fuel + 1) :
    Expr.conjunction (fuel + 1) ts ≠ .error .nestingLimit := by
  rw [Expr.conjunction]
  refine ih.bind .atom () (by simp only [Rule.calls]; omega) fun lhs r hr => ?_
  exact ih .conjuncts lhs r (by simp only [Rule.calls]; omega)

theorem conjuncts (ih : Bounded fuel) (lhs : Condition) (h : 16 * ts.length + 1 ≤ fuel + 1) :
    conjunctionTail (fuel + 1) lhs ts ≠ .error .nestingLimit := by
  rw [conjunctionTail.eq_def]
  dsimp only
  split
  · rw [List.length_cons] at h
    refine ih.bind .atom () (by simp only [Rule.calls]; omega) fun rhs r' hr => ?_
    exact ih .conjuncts _ r' (by simp only [Rule.calls]; omega)
  · simp

theorem atom (ih : Bounded fuel) (h : 16 * ts.length + 7 ≤ fuel + 1) :
    Expr.atom (fuel + 1) ts ≠ .error .nestingLimit := by
  rw [Expr.atom.eq_def]
  dsimp only
  split
  · rw [List.length_cons] at h
    exact ih.bind .atom () (by simp only [Rule.calls]; omega) fun inner r' _ => by simp
  · split
    · rw [List.length_cons] at h
      refine ih.bind .condition () (by simp only [Rule.calls]; omega) fun inner r' _ => ?_
      exact expect_bind_ne_nestingLimit fun r'' _ => by simp
    · exact ih .comparison () _ (by simp only [Rule.calls]; omega)
  · exact ih .comparison () _ (by simp only [Rule.calls]; omega)

theorem comparison (ih : Bounded fuel) (h : 16 * ts.length + 6 ≤ fuel + 1) :
    Expr.comparison (fuel + 1) ts ≠ .error .nestingLimit := by
  rw [Expr.comparison]
  refine ih.bind .arith () (by simp only [Rule.calls]; omega) fun lhs r hr => ?_
  dsimp only
  split
  · exact expect_bind_ne_nestingLimit fun r' _ => by simp
  · exact expect_bind_ne_nestingLimit fun r' _ => by simp
  · simp
  · rw [List.length_cons] at hr
    split
    · exact ih.bind .arith () (by simp only [Rule.calls]; omega) fun rhs r' _ => by simp
    · simp

end Bounded

theorem bounded (fuel : Nat) : Bounded fuel := by
  induction fuel with
  | zero =>
      intro n s ts h
      have hcalls := n.calls_pos
      omega
  | succ fuel ih =>
      intro n s ts h
      cases n with
      | arith => exact ih.arith h
      | sums => exact ih.sums s h
      | term => exact ih.term h
      | products => exact ih.products s h
      | unary => exact ih.unary h
      | power => exact ih.power h
      | primary => exact ih.primary h
      | arms => exact ih.arms h
      | arm => exact ih.arm h
      | branches => exact ih.branches h
      | condition => exact ih.condition h
      | disjuncts => exact ih.disjuncts s h
      | conjunction => exact ih.conjunction h
      | conjuncts => exact ih.conjuncts s h
      | atom => exact ih.atom h
      | comparison => exact ih.comparison h

end RowContract.Expr
