import RowContract.Proofs.Expr.Lookahead

/-!
The grammar of expressions is unambiguous: tokens have at most one derivation.  The
statement that an induction can prove is about phrases at the front of some tokens.
There a phrase is determined as far as the tokens after it do not extend it; an
extension is a sign or a word that the phrase could go on with.
-/

namespace RowContract.Expr

/-! ### What a phrase could go on with -/

def powerSigns : List Token := [.symbol .doubleStar]

def productSigns : List Token :=
  [.symbol .star, .symbol .slash, .symbol .doubleSlash, .symbol .percent] ++ powerSigns

def sumSigns : List Token := [.symbol .plus, .symbol .minus] ++ productSigns

def Rule.extensions : Rule → List Token
  | .arith => sumSigns
  | .sums => sumSigns
  | .term => productSigns
  | .products => productSigns
  | .unary => powerSigns
  | .power => powerSigns
  | .primary => []
  | .arms => []
  | .arm => []
  | .branches => []
  | .condition => .keyword .or :: .keyword .and :: sumSigns
  | .disjuncts => .keyword .or :: .keyword .and :: sumSigns
  | .conjunction => .keyword .and :: sumSigns
  | .conjuncts => .keyword .and :: sumSigns
  | .atom => sumSigns
  | .comparison => sumSigns

/-- The tokens do not begin with one that a phrase of the rule could go on with. -/
def Stops (n : Rule) (ts : List Token) : Prop := ∀ t ∈ ts.head?, t ∉ n.extensions

@[simp] theorem stops_nil (n : Rule) : Stops n [] := by simp [Stops]

@[simp] theorem stops_cons (n : Rule) (t : Token) (ts : List Token) :
    Stops n (t :: ts) ↔ t ∉ n.extensions := by simp [Stops]

theorem Stops.mono {m n : Rule} {ts : List Token} (h : Stops m ts)
    (hsub : ∀ t ∈ n.extensions, t ∈ m.extensions) : Stops n ts := by
  intro t ht hn
  exact h t ht (hsub t hn)

theorem Phrase.stops_sums (d : Phrase .sums) {ts : List Token} (h : Stops .sums ts) :
    Stops .term (d.tokens ++ ts) := by
  cases d with
  | sumsEnd => exact h.mono (by decide)
  | sumsMore sign =>
      cases sign <;> simp only [Phrase.tokens, List.cons_append, stops_cons] <;> decide

theorem Phrase.stops_products (d : Phrase .products) {ts : List Token} (h : Stops .products ts) :
    Stops .unary (d.tokens ++ ts) := by
  cases d with
  | productsEnd => exact h.mono (by decide)
  | productsMore sign =>
      cases sign <;> simp only [Phrase.tokens, List.cons_append, stops_cons] <;> decide

theorem Phrase.stops_disjuncts (d : Phrase .disjuncts) {ts : List Token}
    (h : Stops .disjuncts ts) : Stops .conjunction (d.tokens ++ ts) := by
  cases d with
  | disjunctsEnd => exact h.mono (by decide)
  | disjunctsMore => simp only [Phrase.tokens, List.cons_append, stops_cons]; decide

theorem Phrase.stops_conjuncts (d : Phrase .conjuncts) {ts : List Token}
    (h : Stops .conjuncts ts) : Stops .atom (d.tokens ++ ts) := by
  cases d with
  | conjunctsEnd => exact h.mono (by decide)
  | conjunctsMore => simp only [Phrase.tokens, List.cons_append, stops_cons]; decide

theorem Phrase.stops_branches (d : Phrase .branches) (ts : List Token) :
    Stops .arith (d.tokens ++ ts) := by
  cases d <;> simp only [Phrase.tokens, List.cons_append, stops_cons] <;> decide

theorem stops_compareOp (op : CompareOp) (ts : List Token) : Stops .arith (op.token :: ts) := by
  cases op <;> simp only [stops_cons] <;> decide

theorem stops_nullTest (negated : Bool) (ts : List Token) :
    Stops .arith (nullTest negated ++ ts) := by
  cases negated <;> simp only [nullTest, List.cons_append, stops_cons] <;> decide

theorem SumSign.token_inj {s t : SumSign} (h : s.token = t.token) : s = t := by
  cases s <;> cases t <;> first | rfl | cases h

theorem ProductSign.token_inj {s t : ProductSign} (h : s.token = t.token) : s = t := by
  cases s <;> cases t <;> first | rfl | cases h

theorem CompareOp.token_inj {s t : CompareOp} (h : s.token = t.token) : s = t := by
  cases s <;> cases t <;> first | rfl | cases h

/-! ### How a comparison begins -/

def Token.beginsOperand : Token → Bool
  | .number _ => true
  | .string _ => true
  | .identifier _ => true
  | .keyword .null => true
  | .keyword .case => true
  | .symbol .plus => true
  | .symbol .minus => true
  | .symbol .leftParen => true
  | _ => false

theorem Phrase.beginsOperand {n : Rule} (d : Phrase n) (hn : n.isOperand = true) :
    ∃ t ts, d.tokens = t :: ts ∧ t.beginsOperand = true := by
  induction d with
  | arith _ rest hfirst _ =>
      obtain ⟨t, ts, htokens, ht⟩ := hfirst rfl
      exact ⟨t, ts ++ rest.tokens, by rw [Phrase.tokens, htokens, List.cons_append], ht⟩
  | term _ rest hfirst _ =>
      obtain ⟨t, ts, htokens, ht⟩ := hfirst rfl
      exact ⟨t, ts ++ rest.tokens, by rw [Phrase.tokens, htokens, List.cons_append], ht⟩
  | signed sign inner => cases sign <;> exact ⟨_, inner.tokens, rfl, rfl⟩
  | unsigned _ hinner => exact hinner rfl
  | plain _ hbase => exact hbase rfl
  | raised _ exponent hbase _ =>
      obtain ⟨t, ts, htokens, ht⟩ := hbase rfl
      exact ⟨t, ts ++ .symbol .doubleStar :: exponent.tokens,
        by rw [Phrase.tokens, htokens, List.cons_append], ht⟩
  | number | string | field | null | group | case => exact ⟨_, _, rfl, rfl⟩
  | _ => simp [Rule.isOperand] at hn

/-- A power does not begin with a sign. -/
theorem Phrase.power_ne_sign (d : Phrase .power) (sign : SumSign) (rest ts : List Token) :
    d.tokens ++ rest ≠ sign.token :: ts := by
  cases d with
  | plain base => cases base <;> cases sign <;> simp [Phrase.tokens, SumSign.token, parenthesised]
  | raised base =>
      cases base <;> cases sign <;> simp [Phrase.tokens, SumSign.token, parenthesised]

theorem Phrase.comparison_tokens (d : Phrase .comparison) :
    ∃ (a : Phrase .arith) (ts : List Token), d.tokens = a.tokens ++ ts := by
  cases d with
  | compare lhs op rhs => exact ⟨lhs, op.token :: rhs.tokens, rfl⟩
  | isNull operand negated => exact ⟨operand, nullTest negated, rfl⟩

/-- A comparison does not begin with a token that no operand begins with. -/
theorem Phrase.comparison_ne_cons (d : Phrase .comparison) {t : Token}
    (ht : t.beginsOperand = false) (rest ts : List Token) : d.tokens ++ rest ≠ t :: ts := by
  intro h
  obtain ⟨a, after, htokens⟩ := d.comparison_tokens
  obtain ⟨t', ts', ha, ht'⟩ := a.beginsOperand rfl
  rw [htokens, ha, List.cons_append, List.cons_append, List.cons.injEq] at h
  rw [h.1, ht] at ht'
  cases ht'

/-- The look ahead sees that a parenthesis at the start of a comparison is around an operand. -/
theorem Phrase.groupsCondition_of_comparison (d : Phrase .comparison) {rest ts : List Token}
    (h : d.tokens ++ rest = .symbol .leftParen :: ts) : groupsCondition ts = false := by
  obtain ⟨a, after, htokens⟩ := d.comparison_tokens
  rw [htokens, List.append_assoc] at h
  obtain ⟨a', after', rfl⟩ := a.operand_in_parentheses rfl h
  exact groupsCondition_arith a' after'

theorem Phrase.grouped_ne_comparison (c : Phrase .condition) (d : Phrase .comparison)
    (r r' : List Token) : parenthesised c.tokens ++ r ≠ d.tokens ++ r' := by
  intro h
  simp only [parenthesised, List.cons_append, List.append_assoc, List.nil_append] at h
  have hfalse := d.groupsCondition_of_comparison h.symm
  rw [groupsCondition_condition] at hfalse
  cases hfalse

/-! ### Phrases at the front of tokens -/

/-- A phrase is the only one of its rule at the front of its tokens, if no token after them extends
it. -/
def Phrase.Determined {n : Rule} (d : Phrase n) : Prop :=
  ∀ (d' : Phrase n) {r r' : List Token}, d.tokens ++ r = d'.tokens ++ r' →
    Stops n r → Stops n r' → d = d' ∧ r = r'

namespace Phrase.Determined

/-- Nothing has to be known of what follows a phrase that no token extends. -/
theorem of_no_extension {n : Rule} {d d' : Phrase n} (h : d.Determined)
    (hn : n.extensions = []) {r r' : List Token} (heq : d.tokens ++ r = d'.tokens ++ r') :
    d = d' ∧ r = r' := by
  have hstops (ts : List Token) : Stops n ts := by simp [Stops, hn]
  exact h d' heq (hstops r) (hstops r')

/-- A phrase in parentheses is determined if it is determined within them. -/
theorem in_parentheses {n : Rule} {d d' : Phrase n} (h : d.Determined)
    (hn : .symbol .rightParen ∉ n.extensions) {r r' : List Token}
    (heq : parenthesised d.tokens ++ r = parenthesised d'.tokens ++ r') : d = d' ∧ r = r' := by
  simp only [parenthesised, List.cons_append, List.append_assoc, List.nil_append,
    List.cons.injEq, true_and] at heq
  obtain ⟨rfl, htail⟩ := h d' heq ((stops_cons _ _ _).mpr hn) ((stops_cons _ _ _).mpr hn)
  exact ⟨rfl, (List.cons.inj htail).2⟩

/-- A repetition after its first part is determined if both are. -/
theorem followed {m n : Rule} {first first' : Phrase m} {rest rest' : Phrase n}
    (hfirst : first.Determined) (hrest : rest.Determined)
    (hstops : ∀ (d : Phrase n) {ts : List Token}, Stops n ts → Stops m (d.tokens ++ ts))
    {r r' : List Token}
    (h : first.tokens ++ rest.tokens ++ r = first'.tokens ++ rest'.tokens ++ r')
    (hr : Stops n r) (hr' : Stops n r') : first = first' ∧ rest = rest' ∧ r = r' := by
  rw [List.append_assoc, List.append_assoc] at h
  obtain ⟨rfl, htail⟩ := hfirst first' h (hstops rest hr) (hstops rest' hr')
  obtain ⟨rfl, rfl⟩ := hrest rest' htail hr hr'
  exact ⟨rfl, rfl, rfl⟩

/-! #### Operands -/

theorem arith {first : Phrase .term} {rest : Phrase .sums} (hfirst : first.Determined)
    (hrest : rest.Determined) : (Phrase.arith first rest).Determined := by
  intro d' r r' h hr hr'
  cases d' with
  | arith first' rest' =>
      obtain ⟨rfl, rfl, rfl⟩ := hfirst.followed hrest Phrase.stops_sums h hr hr'
      exact ⟨rfl, rfl⟩

theorem sumsEnd : Phrase.sumsEnd.Determined := by
  intro d' r r' h hr hr'
  cases d' with
  | sumsEnd => exact ⟨rfl, h⟩
  | sumsMore sign =>
      obtain rfl : r = _ := h
      cases sign <;> exact absurd ((stops_cons _ _ _).mp hr) (by decide)

theorem sumsMore {next : Phrase .term} {rest : Phrase .sums} (sign : SumSign)
    (hnext : next.Determined) (hrest : rest.Determined) :
    (Phrase.sumsMore sign next rest).Determined := by
  intro d' r r' h hr hr'
  cases d' with
  | sumsEnd =>
      obtain rfl : _ = r' := h
      cases sign <;> exact absurd ((stops_cons _ _ _).mp hr') (by decide)
  | sumsMore sign' next' rest' =>
      obtain ⟨hsign, htail⟩ := List.cons.inj h
      obtain rfl := SumSign.token_inj hsign
      obtain ⟨rfl, rfl, rfl⟩ := hnext.followed hrest Phrase.stops_sums htail hr hr'
      exact ⟨rfl, rfl⟩

theorem term {first : Phrase .unary} {rest : Phrase .products} (hfirst : first.Determined)
    (hrest : rest.Determined) : (Phrase.term first rest).Determined := by
  intro d' r r' h hr hr'
  cases d' with
  | term first' rest' =>
      obtain ⟨rfl, rfl, rfl⟩ := hfirst.followed hrest Phrase.stops_products h hr hr'
      exact ⟨rfl, rfl⟩

theorem productsEnd : Phrase.productsEnd.Determined := by
  intro d' r r' h hr hr'
  cases d' with
  | productsEnd => exact ⟨rfl, h⟩
  | productsMore sign =>
      obtain rfl : r = _ := h
      cases sign <;> exact absurd ((stops_cons _ _ _).mp hr) (by decide)

theorem productsMore {next : Phrase .unary} {rest : Phrase .products} (sign : ProductSign)
    (hnext : next.Determined) (hrest : rest.Determined) :
    (Phrase.productsMore sign next rest).Determined := by
  intro d' r r' h hr hr'
  cases d' with
  | productsEnd =>
      obtain rfl : _ = r' := h
      cases sign <;> exact absurd ((stops_cons _ _ _).mp hr') (by decide)
  | productsMore sign' next' rest' =>
      obtain ⟨hsign, htail⟩ := List.cons.inj h
      obtain rfl := ProductSign.token_inj hsign
      obtain ⟨rfl, rfl, rfl⟩ := hnext.followed hrest Phrase.stops_products htail hr hr'
      exact ⟨rfl, rfl⟩

theorem signed {inner : Phrase .unary} (sign : SumSign) (hinner : inner.Determined) :
    (Phrase.signed sign inner).Determined := by
  intro d' r r' h hr hr'
  cases d' with
  | signed sign' inner' =>
      obtain ⟨hsign, htail⟩ := List.cons.inj h
      obtain rfl := SumSign.token_inj hsign
      obtain ⟨rfl, rfl⟩ := hinner inner' htail hr hr'
      exact ⟨rfl, rfl⟩
  | unsigned inner' => exact absurd h.symm (inner'.power_ne_sign sign _ _)

theorem unsigned {inner : Phrase .power} (hinner : inner.Determined) :
    (Phrase.unsigned inner).Determined := by
  intro d' r r' h hr hr'
  cases d' with
  | signed sign' => exact absurd h (inner.power_ne_sign sign' _ _)
  | unsigned inner' =>
      obtain ⟨rfl, rfl⟩ := hinner inner' h hr hr'
      exact ⟨rfl, rfl⟩

theorem plain {base : Phrase .primary} (hbase : base.Determined) :
    (Phrase.plain base).Determined := by
  intro d' r r' h hr hr'
  cases d' with
  | plain base' =>
      obtain ⟨rfl, rfl⟩ := hbase.of_no_extension rfl h
      exact ⟨rfl, rfl⟩
  | raised base' exponent' =>
      simp only [Phrase.tokens, List.append_assoc, List.cons_append] at h
      -- The base is the same, so the sign of the power is what follows the plain one.
      obtain ⟨rfl, rfl⟩ := hbase.of_no_extension rfl h
      exact absurd ((stops_cons _ _ _).mp hr) (by decide)

theorem raised {base : Phrase .primary} {exponent : Phrase .unary} (hbase : base.Determined)
    (hexponent : exponent.Determined) : (Phrase.raised base exponent).Determined := by
  intro d' r r' h hr hr'
  cases d' with
  | plain base' =>
      simp only [Phrase.tokens, List.append_assoc, List.cons_append] at h
      obtain ⟨rfl, rfl⟩ := hbase.of_no_extension rfl h
      exact absurd ((stops_cons _ _ _).mp hr') (by decide)
  | raised base' exponent' =>
      simp only [Phrase.tokens, List.append_assoc, List.cons_append] at h
      obtain ⟨rfl, htail⟩ := hbase.of_no_extension rfl h
      obtain ⟨rfl, rfl⟩ := hexponent exponent' (List.cons.inj htail).2 hr hr'
      exact ⟨rfl, rfl⟩

theorem number (lexeme : String) : (Phrase.number lexeme).Determined := by
  intro d' r r' h _ _
  cases d' <;> simp_all [Phrase.tokens, parenthesised]

theorem string (s : String) : (Phrase.string s).Determined := by
  intro d' r r' h _ _
  cases d' <;> simp_all [Phrase.tokens, parenthesised]

theorem field (name : String) : (Phrase.field name).Determined := by
  intro d' r r' h _ _
  cases d' <;> simp_all [Phrase.tokens, parenthesised]

theorem null : Phrase.null.Determined := by
  intro d' r r' h _ _
  cases d' <;> simp_all [Phrase.tokens, parenthesised]

theorem group {inner : Phrase .arith} (hinner : inner.Determined) :
    (Phrase.group inner).Determined := by
  intro d' r r' h _ _
  cases d' with
  | group inner' =>
      obtain ⟨rfl, rfl⟩ := hinner.in_parentheses (by decide) h
      exact ⟨rfl, rfl⟩
  | _ => simp [Phrase.tokens, parenthesised] at h

/-! #### Case distinctions -/

theorem case {all : Phrase .arms} (hall : all.Determined) : (Phrase.case all).Determined := by
  intro d' r r' h _ _
  cases d' with
  | case all' =>
      obtain ⟨rfl, rfl⟩ := hall.of_no_extension rfl (List.cons.inj h).2
      exact ⟨rfl, rfl⟩
  | _ => simp [Phrase.tokens, parenthesised] at h

theorem arms {first : Phrase .arm} (hfirst : first.Determined) :
    (Phrase.arms first).Determined := by
  intro d' r r' h _ _
  cases d' with
  | arms first' =>
      obtain ⟨rfl, rfl⟩ := hfirst.of_no_extension rfl (List.cons.inj h).2
      exact ⟨rfl, rfl⟩

theorem arm {test : Phrase .condition} {value : Phrase .arith} {rest : Phrase .branches}
    (htest : test.Determined) (hvalue : value.Determined) (hrest : rest.Determined) :
    (Phrase.arm test value rest).Determined := by
  intro d' r r' h _ _
  cases d' with
  | arm test' value' rest' =>
      simp only [Phrase.tokens, List.append_assoc, List.cons_append] at h
      have hthen (ts : List Token) : Stops .condition (.keyword .then :: ts) :=
        (stops_cons _ _ _).mpr (by decide)
      obtain ⟨rfl, htail⟩ := htest test' h (hthen _) (hthen _)
      obtain ⟨rfl, hmore⟩ := hvalue value' (List.cons.inj htail).2
        (rest.stops_branches r) (rest'.stops_branches r')
      obtain ⟨rfl, rfl⟩ := hrest.of_no_extension rfl hmore
      exact ⟨rfl, rfl⟩

theorem further {next : Phrase .arm} (hnext : next.Determined) :
    (Phrase.further next).Determined := by
  intro d' r r' h _ _
  cases d' with
  | further next' =>
      obtain ⟨rfl, rfl⟩ := hnext.of_no_extension rfl (List.cons.inj h).2
      exact ⟨rfl, rfl⟩
  | _ => simp [Phrase.tokens] at h

theorem otherwise {value : Phrase .arith} (hvalue : value.Determined) :
    (Phrase.otherwise value).Determined := by
  intro d' r r' h _ _
  cases d' with
  | otherwise value' =>
      simp only [Phrase.tokens, List.cons_append, List.append_assoc, List.nil_append,
        List.cons.injEq, true_and] at h
      have hend (ts : List Token) : Stops .arith (.keyword .end :: ts) :=
        (stops_cons _ _ _).mpr (by decide)
      obtain ⟨rfl, htail⟩ := hvalue value' h (hend _) (hend _)
      exact ⟨rfl, (List.cons.inj htail).2⟩
  | _ => simp [Phrase.tokens] at h

theorem done : Phrase.done.Determined := by
  intro d' r r' h _ _
  cases d' <;> simp_all [Phrase.tokens]

/-! #### Conditions -/

theorem condition {first : Phrase .conjunction} {rest : Phrase .disjuncts}
    (hfirst : first.Determined) (hrest : rest.Determined) :
    (Phrase.condition first rest).Determined := by
  intro d' r r' h hr hr'
  cases d' with
  | condition first' rest' =>
      obtain ⟨rfl, rfl, rfl⟩ := hfirst.followed hrest Phrase.stops_disjuncts h hr hr'
      exact ⟨rfl, rfl⟩

theorem disjunctsEnd : Phrase.disjunctsEnd.Determined := by
  intro d' r r' h hr hr'
  cases d' with
  | disjunctsEnd => exact ⟨rfl, h⟩
  | disjunctsMore =>
      obtain rfl : r = _ := h
      exact absurd ((stops_cons _ _ _).mp hr) (by decide)

theorem disjunctsMore {next : Phrase .conjunction} {rest : Phrase .disjuncts}
    (hnext : next.Determined) (hrest : rest.Determined) :
    (Phrase.disjunctsMore next rest).Determined := by
  intro d' r r' h hr hr'
  cases d' with
  | disjunctsEnd =>
      obtain rfl : _ = r' := h
      exact absurd ((stops_cons _ _ _).mp hr') (by decide)
  | disjunctsMore next' rest' =>
      have htail := (List.cons.inj h).2
      obtain ⟨rfl, rfl, rfl⟩ := hnext.followed hrest Phrase.stops_disjuncts htail hr hr'
      exact ⟨rfl, rfl⟩

theorem conjunction {first : Phrase .atom} {rest : Phrase .conjuncts}
    (hfirst : first.Determined) (hrest : rest.Determined) :
    (Phrase.conjunction first rest).Determined := by
  intro d' r r' h hr hr'
  cases d' with
  | conjunction first' rest' =>
      obtain ⟨rfl, rfl, rfl⟩ := hfirst.followed hrest Phrase.stops_conjuncts h hr hr'
      exact ⟨rfl, rfl⟩

theorem conjunctsEnd : Phrase.conjunctsEnd.Determined := by
  intro d' r r' h hr hr'
  cases d' with
  | conjunctsEnd => exact ⟨rfl, h⟩
  | conjunctsMore =>
      obtain rfl : r = _ := h
      exact absurd ((stops_cons _ _ _).mp hr) (by decide)

theorem conjunctsMore {next : Phrase .atom} {rest : Phrase .conjuncts}
    (hnext : next.Determined) (hrest : rest.Determined) :
    (Phrase.conjunctsMore next rest).Determined := by
  intro d' r r' h hr hr'
  cases d' with
  | conjunctsEnd =>
      obtain rfl : _ = r' := h
      exact absurd ((stops_cons _ _ _).mp hr') (by decide)
  | conjunctsMore next' rest' =>
      have htail := (List.cons.inj h).2
      obtain ⟨rfl, rfl, rfl⟩ := hnext.followed hrest Phrase.stops_conjuncts htail hr hr'
      exact ⟨rfl, rfl⟩

theorem not {inner : Phrase .atom} (hinner : inner.Determined) :
    (Phrase.not inner).Determined := by
  intro d' r r' h hr hr'
  cases d' with
  | not inner' =>
      obtain ⟨rfl, rfl⟩ := hinner inner' (List.cons.inj h).2 hr hr'
      exact ⟨rfl, rfl⟩
  | grouped => simp [Phrase.tokens, parenthesised] at h
  | compared inner' => exact absurd h.symm (inner'.comparison_ne_cons rfl _ _)

theorem grouped {inner : Phrase .condition} (hinner : inner.Determined) :
    (Phrase.grouped inner).Determined := by
  intro d' r r' h _ _
  cases d' with
  | not => simp [Phrase.tokens, parenthesised] at h
  | grouped inner' =>
      obtain ⟨rfl, rfl⟩ := hinner.in_parentheses (by decide) h
      exact ⟨rfl, rfl⟩
  | compared inner' => exact absurd h (inner.grouped_ne_comparison inner' _ _)

theorem compared {inner : Phrase .comparison} (hinner : inner.Determined) :
    (Phrase.compared inner).Determined := by
  intro d' r r' h hr hr'
  cases d' with
  | not => exact absurd h (inner.comparison_ne_cons rfl _ _)
  | grouped inner' => exact absurd h.symm (inner'.grouped_ne_comparison inner _ _)
  | compared inner' =>
      obtain ⟨rfl, rfl⟩ := hinner inner' h hr hr'
      exact ⟨rfl, rfl⟩

theorem compare {lhs rhs : Phrase .arith} (op : CompareOp) (hlhs : lhs.Determined)
    (hrhs : rhs.Determined) : (Phrase.compare lhs op rhs).Determined := by
  intro d' r r' h hr hr'
  cases d' with
  | compare lhs' op' rhs' =>
      simp only [Phrase.tokens, List.append_assoc, List.cons_append] at h
      obtain ⟨rfl, htail⟩ := hlhs lhs' h (stops_compareOp _ _) (stops_compareOp _ _)
      obtain ⟨hop, hmore⟩ := List.cons.inj htail
      obtain rfl := CompareOp.token_inj hop
      obtain ⟨rfl, rfl⟩ := hrhs rhs' hmore hr hr'
      exact ⟨rfl, rfl⟩
  | isNull operand' negated' =>
      simp only [Phrase.tokens, List.append_assoc, List.cons_append] at h
      obtain ⟨rfl, htail⟩ := hlhs operand' h (stops_compareOp _ _) (stops_nullTest _ _)
      cases op <;> cases negated' <;> simp [CompareOp.token, nullTest] at htail

theorem isNull {operand : Phrase .arith} (hoperand : operand.Determined) (negated : Bool) :
    (Phrase.isNull operand negated).Determined := by
  intro d' r r' h _ _
  cases d' with
  | compare lhs' op' rhs' =>
      simp only [Phrase.tokens, List.append_assoc, List.cons_append] at h
      obtain ⟨rfl, htail⟩ := hoperand lhs' h (stops_nullTest _ _) (stops_compareOp _ _)
      cases op' <;> cases negated <;> simp [CompareOp.token, nullTest] at htail
  | isNull operand' negated' =>
      simp only [Phrase.tokens, List.append_assoc] at h
      obtain ⟨rfl, htail⟩ := hoperand operand' h (stops_nullTest _ _) (stops_nullTest _ _)
      cases negated <;> cases negated' <;> simp_all [nullTest]

end Phrase.Determined

theorem Phrase.determined {n : Rule} (d : Phrase n) : d.Determined := by
  induction d with
  | arith _ _ hfirst hrest => exact .arith hfirst hrest
  | sumsEnd => exact .sumsEnd
  | sumsMore sign _ _ hnext hrest => exact .sumsMore sign hnext hrest
  | term _ _ hfirst hrest => exact .term hfirst hrest
  | productsEnd => exact .productsEnd
  | productsMore sign _ _ hnext hrest => exact .productsMore sign hnext hrest
  | signed sign _ hinner => exact .signed sign hinner
  | unsigned _ hinner => exact .unsigned hinner
  | plain _ hbase => exact .plain hbase
  | raised _ _ hbase hexponent => exact .raised hbase hexponent
  | number lexeme => exact .number lexeme
  | string s => exact .string s
  | field name => exact .field name
  | null => exact .null
  | group _ hinner => exact .group hinner
  | case _ hall => exact .case hall
  | arms _ hfirst => exact .arms hfirst
  | arm _ _ _ htest hvalue hrest => exact .arm htest hvalue hrest
  | further _ hnext => exact .further hnext
  | otherwise _ hvalue => exact .otherwise hvalue
  | done => exact .done
  | condition _ _ hfirst hrest => exact .condition hfirst hrest
  | disjunctsEnd => exact .disjunctsEnd
  | disjunctsMore _ _ hnext hrest => exact .disjunctsMore hnext hrest
  | conjunction _ _ hfirst hrest => exact .conjunction hfirst hrest
  | conjunctsEnd => exact .conjunctsEnd
  | conjunctsMore _ _ hnext hrest => exact .conjunctsMore hnext hrest
  | not _ hinner => exact .not hinner
  | grouped _ hinner => exact .grouped hinner
  | compared _ hinner => exact .compared hinner
  | compare _ op _ hlhs hrhs => exact .compare op hlhs hrhs
  | isNull _ negated hoperand => exact .isNull hoperand negated

/-- Tokens have at most one derivation as an expression. -/
theorem Phrase.tokens_injective : Function.Injective (Phrase.tokens (n := .arith)) := by
  intro d d' h
  exact (d.determined d' (congrArg (· ++ []) h) (stops_nil _) (stops_nil _)).1

end RowContract.Expr
