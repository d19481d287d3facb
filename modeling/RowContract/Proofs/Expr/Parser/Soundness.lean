import RowContract.Proofs.Expr.Grammar
import RowContract.Proofs.Outcome

/-!
What the parser returns has a derivation: the tokens used are those of a phrase, and
the result is what the phrase stands for.  This holds whatever the bound on the depth
of calls is, and whatever the look ahead says, because each function puts together
only what the grammar allows.
-/

namespace RowContract.Expr

def Rule.parser : (n : Rule) → Nat → n.Seed → List Token →
    Except SyntaxFault (n.Result × List Token)
  | .arith, fuel, _, ts => Expr.arith fuel ts
  | .sums, fuel, lhs, ts => arithTail fuel lhs ts
  | .term, fuel, _, ts => Expr.term fuel ts
  | .products, fuel, lhs, ts => termTail fuel lhs ts
  | .unary, fuel, _, ts => Expr.unary fuel ts
  | .power, fuel, _, ts => Expr.power fuel ts
  | .primary, fuel, _, ts => Expr.primary fuel ts
  | .arms, fuel, _, ts => firstArm fuel ts
  | .arm, fuel, _, ts => Expr.arm fuel ts
  | .branches, fuel, _, ts => Expr.branches fuel ts
  | .condition, fuel, _, ts => Expr.condition fuel ts
  | .disjuncts, fuel, lhs, ts => conditionTail fuel lhs ts
  | .conjunction, fuel, _, ts => Expr.conjunction fuel ts
  | .conjuncts, fuel, lhs, ts => conjunctionTail fuel lhs ts
  | .atom, fuel, _, ts => Expr.atom fuel ts
  | .comparison, fuel, _, ts => Expr.comparison fuel ts

/-! ### Single tokens -/

theorem eq_of_expect {wanted : Token} {ts r : List Token} (h : expect wanted ts = .ok r) :
    ts = wanted :: r := by
  cases ts with
  | nil => cases h
  | cons t ts =>
      rw [expect] at h
      split at h
      · next ht =>
          cases h
          rw [ht]
      · cases h

theorem eq_of_sumOp? {ts r : List Token} {op : BinaryOp} (h : sumOp? ts = some (op, r)) :
    ∃ sign : SumSign, ts = sign.token :: r ∧ op = sign.op := by
  unfold sumOp? at h
  split at h
  · cases h
    exact ⟨.plus, rfl, rfl⟩
  · cases h
    exact ⟨.minus, rfl, rfl⟩
  · cases h

theorem eq_of_productOp? {ts r : List Token} {op : BinaryOp} (h : productOp? ts = some (op, r)) :
    ∃ sign : ProductSign, ts = sign.token :: r ∧ op = sign.op := by
  unfold productOp? at h
  split at h
  · cases h
    exact ⟨.star, rfl, rfl⟩
  · cases h
    exact ⟨.slash, rfl, rfl⟩
  · cases h
    exact ⟨.doubleSlash, rfl, rfl⟩
  · cases h
    exact ⟨.percent, rfl, rfl⟩
  · cases h

theorem eq_of_compareOp? {t : Token} {op : CompareOp} (h : compareOp? t = some op) :
    t = op.token := by
  unfold compareOp? at h
  split at h <;> cases h <;> rfl

/-! ### One lemma for each function

`Sound fuel` is the induction hypothesis of all of them: the functions can be trusted
with one call less. -/

/-- The tokens before `r` are those of a phrase that stands for `x`. -/
def Rule.Reads (n : Rule) (s : n.Seed) (ts : List Token) (x : n.Result) (r : List Token) : Prop :=
  ∃ d : Phrase n, ts = d.tokens ++ r ∧ d.result s = x

/-- What is read with a bound on the depth of calls is read by the grammar. -/
def Sound (fuel : Nat) : Prop :=
  ∀ (n : Rule) (s : n.Seed) {ts r : List Token} {x : n.Result},
    n.parser fuel s ts = .ok (x, r) → n.Reads s ts x r

namespace Sound

variable {fuel : Nat} {ts r : List Token}

theorem arith (ih : Sound fuel) {t : Tree} (h : Expr.arith (fuel + 1) ts = .ok (t, r)) :
    Rule.arith.Reads () ts t r := by
  rw [Expr.arith] at h
  obtain ⟨⟨lhs, r'⟩, hfirst, hrest⟩ := bind_eq_ok h
  obtain ⟨first, rfl, rfl⟩ := ih .term () hfirst
  obtain ⟨rest, rfl, rfl⟩ := ih .sums _ hrest
  exact ⟨.arith first rest, (List.append_assoc ..).symm, rfl⟩

theorem sums (ih : Sound fuel) {lhs t : Tree} (h : arithTail (fuel + 1) lhs ts = .ok (t, r)) :
    Rule.sums.Reads lhs ts t r := by
  rw [arithTail] at h
  split at h
  · next op r' hop =>
      obtain ⟨sign, rfl, rfl⟩ := eq_of_sumOp? hop
      obtain ⟨⟨rhs, r''⟩, hnext, hrest⟩ := bind_eq_ok h
      obtain ⟨next, rfl, rfl⟩ := ih .term () hnext
      obtain ⟨rest, rfl, rfl⟩ := ih .sums _ hrest
      exact ⟨.sumsMore sign next rest, by simp [Phrase.tokens], rfl⟩
  · cases h
    exact ⟨.sumsEnd, rfl, rfl⟩

theorem term (ih : Sound fuel) {t : Tree} (h : Expr.term (fuel + 1) ts = .ok (t, r)) :
    Rule.term.Reads () ts t r := by
  rw [Expr.term] at h
  obtain ⟨⟨lhs, r'⟩, hfirst, hrest⟩ := bind_eq_ok h
  obtain ⟨first, rfl, rfl⟩ := ih .unary () hfirst
  obtain ⟨rest, rfl, rfl⟩ := ih .products _ hrest
  exact ⟨.term first rest, (List.append_assoc ..).symm, rfl⟩

theorem products (ih : Sound fuel) {lhs t : Tree}
    (h : termTail (fuel + 1) lhs ts = .ok (t, r)) : Rule.products.Reads lhs ts t r := by
  rw [termTail] at h
  split at h
  · next op r' hop =>
      obtain ⟨sign, rfl, rfl⟩ := eq_of_productOp? hop
      obtain ⟨⟨rhs, r''⟩, hnext, hrest⟩ := bind_eq_ok h
      obtain ⟨next, rfl, rfl⟩ := ih .unary () hnext
      obtain ⟨rest, rfl, rfl⟩ := ih .products _ hrest
      exact ⟨.productsMore sign next rest, by simp [Phrase.tokens], rfl⟩
  · cases h
    exact ⟨.productsEnd, rfl, rfl⟩

theorem unary (ih : Sound fuel) {t : Tree} (h : Expr.unary (fuel + 1) ts = .ok (t, r)) :
    Rule.unary.Reads () ts t r := by
  rw [Expr.unary.eq_def] at h
  dsimp only at h
  split at h
  · obtain ⟨⟨inner, r'⟩, hinner, hr⟩ := bind_eq_ok h
    obtain ⟨d, rfl, rfl⟩ := ih .unary () hinner
    cases hr
    exact ⟨.signed .minus d, rfl, rfl⟩
  · obtain ⟨d, rfl, rfl⟩ := ih .unary () h
    exact ⟨.signed .plus d, rfl, rfl⟩
  · obtain ⟨d, rfl, rfl⟩ := ih .power () h
    exact ⟨.unsigned d, rfl, rfl⟩

theorem power (ih : Sound fuel) {t : Tree} (h : Expr.power (fuel + 1) ts = .ok (t, r)) :
    Rule.power.Reads () ts t r := by
  rw [Expr.power] at h
  obtain ⟨⟨base, r'⟩, hbase, hrest⟩ := bind_eq_ok h
  obtain ⟨b, rfl, rfl⟩ := ih .primary () hbase
  dsimp only at hrest
  split at hrest
  · obtain ⟨⟨exponent, r''⟩, hexponent, hr⟩ := bind_eq_ok hrest
    obtain ⟨e, rfl, rfl⟩ := ih .unary () hexponent
    cases hr
    exact ⟨.raised b e, by simp [Phrase.tokens], rfl⟩
  · cases hrest
    exact ⟨.plain b, rfl, rfl⟩

theorem primary (ih : Sound fuel) {t : Tree} (h : Expr.primary (fuel + 1) ts = .ok (t, r)) :
    Rule.primary.Reads () ts t r := by
  rw [Expr.primary.eq_def] at h
  dsimp only at h
  split at h
  · cases h
  · next lexeme r =>
      cases h
      exact ⟨.number lexeme, rfl, rfl⟩
  · next s r =>
      cases h
      exact ⟨.string s, rfl, rfl⟩
  · next name r =>
      cases h
      exact ⟨.field name, rfl, rfl⟩
  · cases h
    exact ⟨.null, rfl, rfl⟩
  · obtain ⟨⟨all, r'⟩, hall, hr⟩ := bind_eq_ok h
    obtain ⟨d, rfl, rfl⟩ := ih .arms () hall
    cases hr
    exact ⟨.case d, rfl, rfl⟩
  · obtain ⟨⟨inner, r'⟩, hinner, hclose⟩ := bind_eq_ok h
    obtain ⟨d, rfl, rfl⟩ := ih .arith () hinner
    obtain ⟨r'', hparen, hr⟩ := bind_eq_ok hclose
    obtain rfl := eq_of_expect hparen
    cases hr
    exact ⟨.group d, by simp [Phrase.tokens, parenthesised], rfl⟩
  · cases h

theorem arms (ih : Sound fuel) {bs : Branches} (h : firstArm (fuel + 1) ts = .ok (bs, r)) :
    Rule.arms.Reads () ts bs r := by
  rw [firstArm.eq_def] at h
  dsimp only at h
  split at h
  · obtain ⟨d, rfl, rfl⟩ := ih .arm () h
    exact ⟨.arms d, rfl, rfl⟩
  · cases h

theorem arm (ih : Sound fuel) {bs : Branches} (h : Expr.arm (fuel + 1) ts = .ok (bs, r)) :
    Rule.arm.Reads () ts bs r := by
  rw [Expr.arm] at h
  obtain ⟨⟨c, r₁⟩, htest, hthen⟩ := bind_eq_ok h
  obtain ⟨test, rfl, rfl⟩ := ih .condition () htest
  obtain ⟨r₂, hword, hvalue⟩ := bind_eq_ok hthen
  obtain rfl := eq_of_expect hword
  obtain ⟨⟨v, r₃⟩, hv, hmore⟩ := bind_eq_ok hvalue
  obtain ⟨value, rfl, rfl⟩ := ih .arith () hv
  obtain ⟨⟨more, r₄⟩, hrest, hr⟩ := bind_eq_ok hmore
  obtain ⟨rest, rfl, rfl⟩ := ih .branches () hrest
  cases hr
  exact ⟨.arm test value rest, by simp [Phrase.tokens], rfl⟩

theorem branches (ih : Sound fuel) {bs : Branches}
    (h : Expr.branches (fuel + 1) ts = .ok (bs, r)) : Rule.branches.Reads () ts bs r := by
  rw [Expr.branches.eq_def] at h
  dsimp only at h
  split at h
  · obtain ⟨d, rfl, rfl⟩ := ih .arm () h
    exact ⟨.further d, rfl, rfl⟩
  · obtain ⟨⟨v, r'⟩, hv, hend⟩ := bind_eq_ok h
    obtain ⟨value, rfl, rfl⟩ := ih .arith () hv
    obtain ⟨r'', hword, hr⟩ := bind_eq_ok hend
    obtain rfl := eq_of_expect hword
    cases hr
    exact ⟨.otherwise value, by simp [Phrase.tokens], rfl⟩
  · obtain ⟨r', hword, hr⟩ := bind_eq_ok h
    obtain rfl := eq_of_expect hword
    cases hr
    exact ⟨.done, rfl, rfl⟩

theorem condition (ih : Sound fuel) {c : Condition}
    (h : Expr.condition (fuel + 1) ts = .ok (c, r)) : Rule.condition.Reads () ts c r := by
  rw [Expr.condition] at h
  obtain ⟨⟨lhs, r'⟩, hfirst, hrest⟩ := bind_eq_ok h
  obtain ⟨first, rfl, rfl⟩ := ih .conjunction () hfirst
  obtain ⟨rest, rfl, rfl⟩ := ih .disjuncts _ hrest
  exact ⟨.condition first rest, (List.append_assoc ..).symm, rfl⟩

theorem disjuncts (ih : Sound fuel) {lhs c : Condition}
    (h : conditionTail (fuel + 1) lhs ts = .ok (c, r)) : Rule.disjuncts.Reads lhs ts c r := by
  rw [conditionTail.eq_def] at h
  dsimp only at h
  split at h
  · obtain ⟨⟨rhs, r'⟩, hnext, hrest⟩ := bind_eq_ok h
    obtain ⟨next, rfl, rfl⟩ := ih .conjunction () hnext
    obtain ⟨rest, rfl, rfl⟩ := ih .disjuncts _ hrest
    exact ⟨.disjunctsMore next rest, by simp [Phrase.tokens], rfl⟩
  · cases h
    exact ⟨.disjunctsEnd, rfl, rfl⟩

theorem conjunction (ih : Sound fuel) {c : Condition}
    (h : Expr.conjunction (fuel + 1) ts = .ok (c, r)) : Rule.conjunction.Reads () ts c r := by
  rw [Expr.conjunction] at h
  obtain ⟨⟨lhs, r'⟩, hfirst, hrest⟩ := bind_eq_ok h
  obtain ⟨first, rfl, rfl⟩ := ih .atom () hfirst
  obtain ⟨rest, rfl, rfl⟩ := ih .conjuncts _ hrest
  exact ⟨.conjunction first rest, (List.append_assoc ..).symm, rfl⟩

theorem conjuncts (ih : Sound fuel) {lhs c : Condition}
    (h : conjunctionTail (fuel + 1) lhs ts = .ok (c, r)) : Rule.conjuncts.Reads lhs ts c r := by
  rw [conjunctionTail.eq_def] at h
  dsimp only at h
  split at h
  · obtain ⟨⟨rhs, r'⟩, hnext, hrest⟩ := bind_eq_ok h
    obtain ⟨next, rfl, rfl⟩ := ih .atom () hnext
    obtain ⟨rest, rfl, rfl⟩ := ih .conjuncts _ hrest
    exact ⟨.conjunctsMore next rest, by simp [Phrase.tokens], rfl⟩
  · cases h
    exact ⟨.conjunctsEnd, rfl, rfl⟩

theorem compared (ih : Sound fuel) {c : Condition}
    (h : Expr.comparison fuel ts = .ok (c, r)) : Rule.atom.Reads () ts c r := by
  obtain ⟨d, rfl, rfl⟩ := ih .comparison () h
  exact ⟨.compared d, rfl, rfl⟩

theorem atom (ih : Sound fuel) {c : Condition} (h : Expr.atom (fuel + 1) ts = .ok (c, r)) :
    Rule.atom.Reads () ts c r := by
  rw [Expr.atom.eq_def] at h
  dsimp only at h
  split at h
  · obtain ⟨⟨inner, r'⟩, hinner, hr⟩ := bind_eq_ok h
    obtain ⟨d, rfl, rfl⟩ := ih .atom () hinner
    cases hr
    exact ⟨.not d, rfl, rfl⟩
  · split at h
    · obtain ⟨⟨inner, r'⟩, hinner, hclose⟩ := bind_eq_ok h
      obtain ⟨d, rfl, rfl⟩ := ih .condition () hinner
      obtain ⟨r'', hparen, hr⟩ := bind_eq_ok hclose
      obtain rfl := eq_of_expect hparen
      cases hr
      exact ⟨.grouped d, by simp [Phrase.tokens, parenthesised], rfl⟩
    · exact ih.compared h
  · exact ih.compared h

theorem comparison (ih : Sound fuel) {c : Condition}
    (h : Expr.comparison (fuel + 1) ts = .ok (c, r)) : Rule.comparison.Reads () ts c r := by
  rw [Expr.comparison] at h
  obtain ⟨⟨lhs, r'⟩, hlhs, hrest⟩ := bind_eq_ok h
  obtain ⟨l, rfl, rfl⟩ := ih .arith () hlhs
  dsimp only at hrest
  split at hrest
  · obtain ⟨r'', hword, hr⟩ := bind_eq_ok hrest
    obtain rfl := eq_of_expect hword
    cases hr
    exact ⟨.isNull l true, by simp [Phrase.tokens, nullTest], rfl⟩
  · obtain ⟨r'', hword, hr⟩ := bind_eq_ok hrest
    obtain rfl := eq_of_expect hword
    cases hr
    exact ⟨.isNull l false, by simp [Phrase.tokens, nullTest], rfl⟩
  · cases hrest
  · split at hrest
    · next op hop =>
        obtain rfl := eq_of_compareOp? hop
        obtain ⟨⟨rhs, r''⟩, hrhs, hr⟩ := bind_eq_ok hrest
        obtain ⟨d, rfl, rfl⟩ := ih .arith () hrhs
        cases hr
        exact ⟨.compare l op d, by simp [Phrase.tokens], rfl⟩
    · cases hrest

end Sound

/-- The parser reads nothing but phrases of the grammar. -/
theorem sound (fuel : Nat) : Sound fuel := by
  induction fuel with
  | zero => intro n s ts r x h; cases n <;> cases h
  | succ fuel ih =>
      intro n s ts r x h
      cases n with
      | arith => exact ih.arith h
      | sums => exact ih.sums h
      | term => exact ih.term h
      | products => exact ih.products h
      | unary => exact ih.unary h
      | power => exact ih.power h
      | primary => exact ih.primary h
      | arms => exact ih.arms h
      | arm => exact ih.arm h
      | branches => exact ih.branches h
      | condition => exact ih.condition h
      | disjuncts => exact ih.disjuncts h
      | conjunction => exact ih.conjunction h
      | conjuncts => exact ih.conjuncts h
      | atom => exact ih.atom h
      | comparison => exact ih.comparison h

end RowContract.Expr
