import RowContract.Proofs.Expr.Parser.Depth
import RowContract.Proofs.Expr.Unambiguity

/-!
The parser reads every phrase of the grammar.  At the front of some tokens it finds
the phrase that is there, if no token after it extends it, and leaves those tokens.
The look ahead after a parenthesis is what makes it take the right one of two rules.
-/

namespace RowContract.Expr

/-! ### Single tokens -/

theorem expect_cons (t : Token) (ts : List Token) : expect t (t :: ts) = .ok ts := by
  simp [expect]

theorem sumOp?_token (sign : SumSign) (ts : List Token) :
    sumOp? (sign.token :: ts) = some (sign.op, ts) := by
  cases sign <;> rfl

theorem productOp?_token (sign : ProductSign) (ts : List Token) :
    productOp? (sign.token :: ts) = some (sign.op, ts) := by
  cases sign <;> rfl

theorem sumOp?_of_stops {ts : List Token} (h : Stops .sums ts) : sumOp? ts = none := by
  unfold sumOp?
  split
  · exact absurd ((stops_cons _ _ _).mp h) (by decide)
  · exact absurd ((stops_cons _ _ _).mp h) (by decide)
  · rfl

theorem productOp?_of_stops {ts : List Token} (h : Stops .products ts) :
    productOp? ts = none := by
  unfold productOp?
  split
  · exact absurd ((stops_cons _ _ _).mp h) (by decide)
  · exact absurd ((stops_cons _ _ _).mp h) (by decide)
  · exact absurd ((stops_cons _ _ _).mp h) (by decide)
  · exact absurd ((stops_cons _ _ _).mp h) (by decide)
  · rfl

/-! ### One lemma for each form of a phrase -/

/-- The parser finds the phrase at the front of tokens and leaves the rest, if no token after it
extends it. -/
def Phrase.Accepted {n : Rule} (d : Phrase n) : Prop :=
  ∀ (s : n.Seed) (fuel : Nat) (r : List Token),
    16 * (d.tokens ++ r).length + n.calls ≤ fuel → Stops n r →
      n.parser fuel s (d.tokens ++ r) = .ok (d.result s, r)

namespace Phrase.Accepted

/-- The parser always makes a call. -/
theorem of_succ {n : Rule} {d : Phrase n}
    (h : ∀ (s : n.Seed) (fuel : Nat) (r : List Token),
      16 * (d.tokens.length + r.length) + n.calls ≤ fuel + 1 → Stops n r →
        n.parser (fuel + 1) s (d.tokens ++ r) = .ok (d.result s, r)) : d.Accepted := by
  intro s fuel r hfuel hr
  rw [List.length_append] at hfuel
  cases fuel with
  | zero =>
      have hcalls := n.calls_pos
      omega
  | succ fuel => exact h s fuel r hfuel hr

/-! #### Operands -/

theorem arith {first : Phrase .term} {rest : Phrase .sums} (hfirst : first.Accepted)
    (hrest : rest.Accepted) : (Phrase.arith first rest).Accepted := by
  refine .of_succ fun s fuel r hfuel hr => ?_
  simp only [Phrase.tokens, List.length_append, Rule.calls] at hfuel
  have hlhs : Expr.term fuel (first.tokens ++ (rest.tokens ++ r)) = .ok (first.result (), _) :=
    hfirst () fuel _ (by simp only [List.length_append, Rule.calls]; omega) (rest.stops_sums hr)
  simp only [Rule.parser, Phrase.tokens, List.append_assoc]
  rw [Expr.arith, hlhs, ok_bind]
  exact hrest _ fuel r (by simp only [List.length_append, Rule.calls]; omega) hr

theorem sumsEnd : Phrase.sumsEnd.Accepted := by
  refine .of_succ fun (lhs : Tree) fuel r _ hr => ?_
  change arithTail (fuel + 1) lhs r = .ok (lhs, r)
  rw [arithTail, sumOp?_of_stops hr]

theorem sumsMore {next : Phrase .term} {rest : Phrase .sums} (sign : SumSign)
    (hnext : next.Accepted) (hrest : rest.Accepted) :
    (Phrase.sumsMore sign next rest).Accepted := by
  refine .of_succ fun (lhs : Tree) fuel r hfuel hr => ?_
  simp only [Phrase.tokens, List.length_append, List.length_cons, Rule.calls] at hfuel
  have hrhs : Expr.term fuel (next.tokens ++ (rest.tokens ++ r)) = .ok (next.result (), _) :=
    hnext () fuel _ (by simp only [List.length_append, Rule.calls]; omega) (rest.stops_sums hr)
  simp only [Rule.parser, Phrase.tokens, List.cons_append, List.append_assoc]
  rw [arithTail, sumOp?_token]
  dsimp only
  rw [hrhs, ok_bind]
  exact hrest _ fuel r (by simp only [List.length_append, Rule.calls]; omega) hr

theorem term {first : Phrase .unary} {rest : Phrase .products} (hfirst : first.Accepted)
    (hrest : rest.Accepted) : (Phrase.term first rest).Accepted := by
  refine .of_succ fun s fuel r hfuel hr => ?_
  simp only [Phrase.tokens, List.length_append, Rule.calls] at hfuel
  have hlhs : Expr.unary fuel (first.tokens ++ (rest.tokens ++ r)) = .ok (first.result (), _) :=
    hfirst () fuel _ (by simp only [List.length_append, Rule.calls]; omega)
      (rest.stops_products hr)
  simp only [Rule.parser, Phrase.tokens, List.append_assoc]
  rw [Expr.term, hlhs, ok_bind]
  exact hrest _ fuel r (by simp only [List.length_append, Rule.calls]; omega) hr

theorem productsEnd : Phrase.productsEnd.Accepted := by
  refine .of_succ fun (lhs : Tree) fuel r _ hr => ?_
  change termTail (fuel + 1) lhs r = .ok (lhs, r)
  rw [termTail, productOp?_of_stops hr]

theorem productsMore {next : Phrase .unary} {rest : Phrase .products} (sign : ProductSign)
    (hnext : next.Accepted) (hrest : rest.Accepted) :
    (Phrase.productsMore sign next rest).Accepted := by
  refine .of_succ fun (lhs : Tree) fuel r hfuel hr => ?_
  simp only [Phrase.tokens, List.length_append, List.length_cons, Rule.calls] at hfuel
  have hrhs : Expr.unary fuel (next.tokens ++ (rest.tokens ++ r)) = .ok (next.result (), _) :=
    hnext () fuel _ (by simp only [List.length_append, Rule.calls]; omega)
      (rest.stops_products hr)
  simp only [Rule.parser, Phrase.tokens, List.cons_append, List.append_assoc]
  rw [termTail, productOp?_token]
  dsimp only
  rw [hrhs, ok_bind]
  exact hrest _ fuel r (by simp only [List.length_append, Rule.calls]; omega) hr

theorem signed {inner : Phrase .unary} (sign : SumSign) (hinner : inner.Accepted) :
    (Phrase.signed sign inner).Accepted := by
  refine .of_succ fun s fuel r hfuel hr => ?_
  simp only [Phrase.tokens, List.length_cons, Rule.calls] at hfuel
  have hi : Expr.unary fuel (inner.tokens ++ r) = .ok (inner.result (), r) :=
    hinner () fuel r (by simp only [List.length_append, Rule.calls]; omega) hr
  cases sign with
  | plus => exact hi
  | minus =>
      change Expr.unary (fuel + 1) (.symbol .minus :: (inner.tokens ++ r)) = _
      rw [Expr.unary, hi]
      rfl

theorem unsigned {inner : Phrase .power} (hinner : inner.Accepted) :
    (Phrase.unsigned inner).Accepted := by
  refine .of_succ fun s fuel r hfuel hr => ?_
  simp only [Phrase.tokens, Rule.calls] at hfuel
  change Expr.unary (fuel + 1) (inner.tokens ++ r) = _
  -- The equation of the last case leaves to show that the first token is no sign.
  rw [Expr.unary.eq_4]
  · exact hinner () fuel r (by simp only [List.length_append, Rule.calls]; omega) hr
  · exact fun ts => inner.power_ne_sign .minus r ts
  · exact fun ts => inner.power_ne_sign .plus r ts

theorem plain {base : Phrase .primary} (hbase : base.Accepted) :
    (Phrase.plain base).Accepted := by
  refine .of_succ fun s fuel r hfuel hr => ?_
  simp only [Phrase.tokens, Rule.calls] at hfuel
  have hb : Expr.primary fuel (base.tokens ++ r) = .ok (base.result (), r) :=
    hbase () fuel r (by simp only [List.length_append, Rule.calls]; omega)
      (by simp [Stops, Rule.extensions])
  change Expr.power (fuel + 1) (base.tokens ++ r) = _
  rw [Expr.power, hb, ok_bind]
  dsimp only
  split
  · exact absurd ((stops_cons _ _ _).mp hr) (by decide)
  · rfl

theorem raised {base : Phrase .primary} {exponent : Phrase .unary} (hbase : base.Accepted)
    (hexponent : exponent.Accepted) : (Phrase.raised base exponent).Accepted := by
  refine .of_succ fun s fuel r hfuel hr => ?_
  simp only [Phrase.tokens, List.length_append, List.length_cons, Rule.calls] at hfuel
  have hb : Expr.primary fuel (base.tokens ++ .symbol .doubleStar :: (exponent.tokens ++ r)) =
      .ok (base.result (), _) :=
    hbase () fuel _ (by simp only [List.length_append, List.length_cons, Rule.calls]; omega)
      (by simp [Stops, Rule.extensions])
  have he : Expr.unary fuel (exponent.tokens ++ r) = .ok (exponent.result (), r) :=
    hexponent () fuel r (by simp only [List.length_append, Rule.calls]; omega) hr
  simp only [Rule.parser, Phrase.tokens, List.append_assoc, List.cons_append]
  rw [Expr.power, hb, ok_bind]
  dsimp only
  rw [he]
  rfl

theorem number (lexeme : String) : (Phrase.number lexeme).Accepted :=
  .of_succ fun _ _ _ _ _ => rfl

theorem string (s : String) : (Phrase.string s).Accepted := .of_succ fun _ _ _ _ _ => rfl

theorem field (name : String) : (Phrase.field name).Accepted := .of_succ fun _ _ _ _ _ => rfl

theorem null : Phrase.null.Accepted := .of_succ fun _ _ _ _ _ => rfl

theorem group {inner : Phrase .arith} (hinner : inner.Accepted) :
    (Phrase.group inner).Accepted := by
  refine .of_succ fun s fuel r hfuel _ => ?_
  simp only [Phrase.tokens, parenthesised, List.length_append, List.length_cons, List.length_nil,
    Rule.calls] at hfuel
  have hi : Expr.arith fuel (inner.tokens ++ .symbol .rightParen :: r) =
      .ok (inner.result (), _) :=
    hinner () fuel _ (by simp only [List.length_append, List.length_cons, Rule.calls]; omega)
      ((stops_cons _ _ _).mpr (by decide))
  simp only [Rule.parser, Phrase.tokens, parenthesised, List.append_assoc, List.cons_append,
    List.nil_append]
  rw [Expr.primary, hi, ok_bind]
  dsimp only
  rw [expect_cons]
  rfl

/-! #### Case distinctions -/

theorem case {all : Phrase .arms} (hall : all.Accepted) : (Phrase.case all).Accepted := by
  refine .of_succ fun s fuel r hfuel _ => ?_
  simp only [Phrase.tokens, List.length_cons, Rule.calls] at hfuel
  have ha : firstArm fuel (all.tokens ++ r) = .ok (all.result (), r) :=
    hall () fuel r (by simp only [List.length_append, Rule.calls]; omega)
      (by simp [Stops, Rule.extensions])
  change Expr.primary (fuel + 1) (.keyword .case :: (all.tokens ++ r)) = _
  rw [Expr.primary, ha]
  rfl

theorem arms {first : Phrase .arm} (hfirst : first.Accepted) :
    (Phrase.arms first).Accepted := by
  refine .of_succ fun s fuel r hfuel hr => ?_
  simp only [Phrase.tokens, List.length_cons, Rule.calls] at hfuel
  change Expr.arm fuel (first.tokens ++ r) = _
  exact hfirst () fuel r (by simp only [List.length_append, Rule.calls]; omega) hr

theorem arm {test : Phrase .condition} {value : Phrase .arith} {rest : Phrase .branches}
    (htest : test.Accepted) (hvalue : value.Accepted) (hrest : rest.Accepted) :
    (Phrase.arm test value rest).Accepted := by
  refine .of_succ fun s fuel r hfuel hr => ?_
  simp only [Phrase.tokens, List.length_append, List.length_cons, Rule.calls] at hfuel
  have hc : Expr.condition fuel
      (test.tokens ++ .keyword .then :: (value.tokens ++ (rest.tokens ++ r))) =
        .ok (test.result (), _) :=
    htest () fuel _ (by simp only [List.length_append, List.length_cons, Rule.calls]; omega)
      ((stops_cons _ _ _).mpr (by decide))
  have hv : Expr.arith fuel (value.tokens ++ (rest.tokens ++ r)) = .ok (value.result (), _) :=
    hvalue () fuel _ (by simp only [List.length_append, Rule.calls]; omega)
      (rest.stops_branches r)
  have hb : Expr.branches fuel (rest.tokens ++ r) = .ok (rest.result (), r) :=
    hrest () fuel r (by simp only [List.length_append, Rule.calls]; omega) hr
  simp only [Rule.parser, Phrase.tokens, List.append_assoc, List.cons_append]
  rw [Expr.arm, hc, ok_bind]
  dsimp only
  rw [expectKeyword, expect_cons, ok_bind, hv, ok_bind]
  dsimp only
  rw [hb]
  rfl

theorem further {next : Phrase .arm} (hnext : next.Accepted) :
    (Phrase.further next).Accepted := by
  refine .of_succ fun s fuel r hfuel hr => ?_
  simp only [Phrase.tokens, List.length_cons, Rule.calls] at hfuel
  change Expr.arm fuel (next.tokens ++ r) = _
  exact hnext () fuel r (by simp only [List.length_append, Rule.calls]; omega) hr

theorem otherwise {value : Phrase .arith} (hvalue : value.Accepted) :
    (Phrase.otherwise value).Accepted := by
  refine .of_succ fun s fuel r hfuel _ => ?_
  simp only [Phrase.tokens, List.length_append, List.length_cons, List.length_nil,
    Rule.calls] at hfuel
  have hv : Expr.arith fuel (value.tokens ++ .keyword .end :: r) = .ok (value.result (), _) :=
    hvalue () fuel _ (by simp only [List.length_append, List.length_cons, Rule.calls]; omega)
      ((stops_cons _ _ _).mpr (by decide))
  simp only [Rule.parser, Phrase.tokens, List.append_assoc, List.cons_append, List.nil_append]
  rw [Expr.branches, hv, ok_bind]
  dsimp only
  rw [expectKeyword, expect_cons]
  rfl

theorem done : Phrase.done.Accepted := .of_succ fun _ _ _ _ _ => rfl

/-! #### Conditions -/

theorem condition {first : Phrase .conjunction} {rest : Phrase .disjuncts}
    (hfirst : first.Accepted) (hrest : rest.Accepted) :
    (Phrase.condition first rest).Accepted := by
  refine .of_succ fun s fuel r hfuel hr => ?_
  simp only [Phrase.tokens, List.length_append, Rule.calls] at hfuel
  have hlhs : Expr.conjunction fuel (first.tokens ++ (rest.tokens ++ r)) =
      .ok (first.result (), _) :=
    hfirst () fuel _ (by simp only [List.length_append, Rule.calls]; omega)
      (rest.stops_disjuncts hr)
  simp only [Rule.parser, Phrase.tokens, List.append_assoc]
  rw [Expr.condition, hlhs, ok_bind]
  exact hrest _ fuel r (by simp only [List.length_append, Rule.calls]; omega) hr

theorem disjunctsEnd : Phrase.disjunctsEnd.Accepted := by
  refine .of_succ fun (lhs : Condition) fuel r _ hr => ?_
  change conditionTail (fuel + 1) lhs r = .ok (lhs, r)
  rw [conditionTail.eq_def]
  dsimp only
  split
  · exact absurd ((stops_cons _ _ _).mp hr) (by decide)
  · rfl

theorem disjunctsMore {next : Phrase .conjunction} {rest : Phrase .disjuncts}
    (hnext : next.Accepted) (hrest : rest.Accepted) :
    (Phrase.disjunctsMore next rest).Accepted := by
  refine .of_succ fun (lhs : Condition) fuel r hfuel hr => ?_
  simp only [Phrase.tokens, List.length_append, List.length_cons, Rule.calls] at hfuel
  have hrhs : Expr.conjunction fuel (next.tokens ++ (rest.tokens ++ r)) =
      .ok (next.result (), _) :=
    hnext () fuel _ (by simp only [List.length_append, Rule.calls]; omega)
      (rest.stops_disjuncts hr)
  simp only [Rule.parser, Phrase.tokens, List.cons_append, List.append_assoc]
  rw [conditionTail, hrhs, ok_bind]
  exact hrest _ fuel r (by simp only [List.length_append, Rule.calls]; omega) hr

theorem conjunction {first : Phrase .atom} {rest : Phrase .conjuncts} (hfirst : first.Accepted)
    (hrest : rest.Accepted) : (Phrase.conjunction first rest).Accepted := by
  refine .of_succ fun s fuel r hfuel hr => ?_
  simp only [Phrase.tokens, List.length_append, Rule.calls] at hfuel
  have hlhs : Expr.atom fuel (first.tokens ++ (rest.tokens ++ r)) = .ok (first.result (), _) :=
    hfirst () fuel _ (by simp only [List.length_append, Rule.calls]; omega)
      (rest.stops_conjuncts hr)
  simp only [Rule.parser, Phrase.tokens, List.append_assoc]
  rw [Expr.conjunction, hlhs, ok_bind]
  exact hrest _ fuel r (by simp only [List.length_append, Rule.calls]; omega) hr

theorem conjunctsEnd : Phrase.conjunctsEnd.Accepted := by
  refine .of_succ fun (lhs : Condition) fuel r _ hr => ?_
  change conjunctionTail (fuel + 1) lhs r = .ok (lhs, r)
  rw [conjunctionTail.eq_def]
  dsimp only
  split
  · exact absurd ((stops_cons _ _ _).mp hr) (by decide)
  · rfl

theorem conjunctsMore {next : Phrase .atom} {rest : Phrase .conjuncts}
    (hnext : next.Accepted) (hrest : rest.Accepted) :
    (Phrase.conjunctsMore next rest).Accepted := by
  refine .of_succ fun (lhs : Condition) fuel r hfuel hr => ?_
  simp only [Phrase.tokens, List.length_append, List.length_cons, Rule.calls] at hfuel
  have hrhs : Expr.atom fuel (next.tokens ++ (rest.tokens ++ r)) = .ok (next.result (), _) :=
    hnext () fuel _ (by simp only [List.length_append, Rule.calls]; omega)
      (rest.stops_conjuncts hr)
  simp only [Rule.parser, Phrase.tokens, List.cons_append, List.append_assoc]
  rw [conjunctionTail, hrhs, ok_bind]
  exact hrest _ fuel r (by simp only [List.length_append, Rule.calls]; omega) hr

theorem not {inner : Phrase .atom} (hinner : inner.Accepted) :
    (Phrase.not inner).Accepted := by
  refine .of_succ fun s fuel r hfuel hr => ?_
  simp only [Phrase.tokens, List.length_cons, Rule.calls] at hfuel
  have hi : Expr.atom fuel (inner.tokens ++ r) = .ok (inner.result (), r) :=
    hinner () fuel r (by simp only [List.length_append, Rule.calls]; omega) hr
  change Expr.atom (fuel + 1) (.keyword .not :: (inner.tokens ++ r)) = _
  rw [Expr.atom, hi]
  rfl

theorem grouped {inner : Phrase .condition} (hinner : inner.Accepted) :
    (Phrase.grouped inner).Accepted := by
  refine .of_succ fun s fuel r hfuel _ => ?_
  simp only [Phrase.tokens, parenthesised, List.length_append, List.length_cons, List.length_nil,
    Rule.calls] at hfuel
  have hi : Expr.condition fuel (inner.tokens ++ .symbol .rightParen :: r) =
      .ok (inner.result (), _) :=
    hinner () fuel _ (by simp only [List.length_append, List.length_cons, Rule.calls]; omega)
      ((stops_cons _ _ _).mpr (by decide))
  simp only [Rule.parser, Phrase.tokens, parenthesised, List.append_assoc, List.cons_append,
    List.nil_append]
  rw [Expr.atom, if_pos (groupsCondition_condition inner r), hi, ok_bind]
  dsimp only
  rw [expect_cons]
  rfl

theorem compared {inner : Phrase .comparison} (hinner : inner.Accepted) :
    (Phrase.compared inner).Accepted := by
  refine .of_succ fun s fuel r hfuel hr => ?_
  simp only [Phrase.tokens, Rule.calls] at hfuel
  have hi : Expr.comparison fuel (inner.tokens ++ r) = .ok (inner.result (), r) :=
    hinner () fuel r (by simp only [List.length_append, Rule.calls]; omega) hr
  change Expr.atom (fuel + 1) (inner.tokens ++ r) = _
  rw [Expr.atom.eq_def]
  dsimp only
  split
  · next ts heq => exact absurd heq (inner.comparison_ne_cons rfl r ts)
  · next ts heq =>
      rw [inner.groupsCondition_of_comparison heq, if_neg Bool.false_ne_true, ← heq]
      exact hi
  · exact hi

theorem compare {lhs rhs : Phrase .arith} (op : CompareOp) (hlhs : lhs.Accepted)
    (hrhs : rhs.Accepted) : (Phrase.compare lhs op rhs).Accepted := by
  refine .of_succ fun s fuel r hfuel hr => ?_
  simp only [Phrase.tokens, List.length_append, List.length_cons, Rule.calls] at hfuel
  have hl : Expr.arith fuel (lhs.tokens ++ op.token :: (rhs.tokens ++ r)) =
      .ok (lhs.result (), _) :=
    hlhs () fuel _ (by simp only [List.length_append, List.length_cons, Rule.calls]; omega)
      (stops_compareOp _ _)
  have hr : Expr.arith fuel (rhs.tokens ++ r) = .ok (rhs.result (), r) :=
    hrhs () fuel r (by simp only [List.length_append, Rule.calls]; omega) hr
  simp only [Rule.parser, Phrase.tokens, List.append_assoc, List.cons_append]
  rw [Expr.comparison, hl, ok_bind]
  cases op <;>
    · dsimp only [CompareOp.token, compareOp?]
      rw [hr]
      rfl

theorem isNull {operand : Phrase .arith} (hoperand : operand.Accepted) (negated : Bool) :
    (Phrase.isNull operand negated).Accepted := by
  refine .of_succ fun s fuel r hfuel _ => ?_
  simp only [Phrase.tokens, List.length_append, Rule.calls] at hfuel
  have ho : Expr.arith fuel (operand.tokens ++ (nullTest negated ++ r)) =
      .ok (operand.result (), _) :=
    hoperand () fuel _ (by simp only [List.length_append, Rule.calls]; omega)
      (stops_nullTest negated r)
  simp only [Rule.parser, Phrase.tokens, List.append_assoc]
  rw [Expr.comparison, ho, ok_bind]
  cases negated <;>
    · dsimp only [nullTest, List.cons_append, List.nil_append]
      rw [expectKeyword, expect_cons]
      rfl

end Phrase.Accepted

/-- The parser finds every phrase. -/
theorem Phrase.accepted {n : Rule} (d : Phrase n) : d.Accepted := by
  induction d with
  | arith _ _ hfirst hrest => exact .arith hfirst hrest
  | sumsEnd => exact .sumsEnd
  | sumsMore sign _ _ hnext hrest => exact .sumsMore sign hnext hrest
  | term _ _ hfirst hrest => exact .term hfirst hrest
  | productsEnd => exact .productsEnd
  | productsMore sign _ _ hnext hrest => exact .productsMore sign hnext hrest
  | signed sign _ hinner => exact .signed sign hinner
  | unsigned _ hinner => exact .unsigned hinner
  | plain _ hbase => exact .plain hbase
  | raised _ _ hbase hexponent => exact .raised hbase hexponent
  | number lexeme => exact .number lexeme
  | string s => exact .string s
  | field name => exact .field name
  | null => exact .null
  | group _ hinner => exact .group hinner
  | case _ hall => exact .case hall
  | arms _ hfirst => exact .arms hfirst
  | arm _ _ _ htest hvalue hrest => exact .arm htest hvalue hrest
  | further _ hnext => exact .further hnext
  | otherwise _ hvalue => exact .otherwise hvalue
  | done => exact .done
  | condition _ _ hfirst hrest => exact .condition hfirst hrest
  | disjunctsEnd => exact .disjunctsEnd
  | disjunctsMore _ _ hnext hrest => exact .disjunctsMore hnext hrest
  | conjunction _ _ hfirst hrest => exact .conjunction hfirst hrest
  | conjunctsEnd => exact .conjunctsEnd
  | conjunctsMore _ _ hnext hrest => exact .conjunctsMore hnext hrest
  | not _ hinner => exact .not hinner
  | grouped _ hinner => exact .grouped hinner
  | compared _ hinner => exact .compared hinner
  | compare _ op _ hlhs hrhs => exact .compare op hlhs hrhs
  | isNull _ negated hoperand => exact .isNull hoperand negated

end RowContract.Expr
