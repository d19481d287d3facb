import RowContract.Proofs.Expr.Grammar

/-!
The look ahead after an opening parenthesis agrees with the grammar: it finds the
partner of the parenthesis around any phrase, and a mark of a condition outside all
inner parentheses and case distinctions exactly where a condition, and not an
operand, stands in the parentheses.
-/

namespace RowContract.Expr

/-! ### The partner of a parenthesis -/

theorem group?_leftParen (depth : Nat) (ts : List Token) :
    group? depth (.symbol .leftParen :: ts) =
      (group? (depth + 1) ts).map (.symbol .leftParen :: ·) := by
  cases depth <;> simp [group?]

theorem group?_rightParen (depth : Nat) (ts : List Token) :
    group? (depth + 1) (.symbol .rightParen :: ts) =
      (group? depth ts).map (.symbol .rightParen :: ·) := by
  simp [group?]

@[simp] theorem group?_close (ts : List Token) :
    group? 0 (.symbol .rightParen :: ts) = some [] := by
  simp [group?]

theorem group?_other {t : Token} (hleft : t ≠ .symbol .leftParen)
    (hright : t ≠ .symbol .rightParen) (depth : Nat) (ts : List Token) :
    group? depth (t :: ts) = (group? depth ts).map (t :: ·) := by
  cases depth <;> simp [group?, hleft, hright]

/-- The search for the partner of a parenthesis passes over the tokens. -/
def Balanced (ts : List Token) : Prop :=
  ∀ depth rest, group? depth (ts ++ rest) = (group? depth rest).map (ts ++ ·)

theorem balanced_nil : Balanced [] := by
  intro depth rest
  simp

theorem Balanced.append {a b : List Token} (ha : Balanced a) (hb : Balanced b) :
    Balanced (a ++ b) := by
  intro depth rest
  rw [List.append_assoc, ha, hb, Option.map_map]
  simp [Function.comp_def]

theorem Balanced.cons {t : Token} {ts : List Token} (h : Balanced ts)
    (hleft : t ≠ .symbol .leftParen) (hright : t ≠ .symbol .rightParen) :
    Balanced (t :: ts) := by
  intro depth rest
  rw [List.cons_append, group?_other hleft hright, h, Option.map_map]
  rfl

theorem Balanced.parenthesised {ts : List Token} (h : Balanced ts) :
    Balanced (parenthesised ts) := by
  intro depth rest
  have hinner := h (depth + 1) (.symbol .rightParen :: rest)
  rw [group?_rightParen, Option.map_map] at hinner
  simp only [Expr.parenthesised, List.cons_append, List.append_assoc, List.nil_append,
    group?_leftParen, hinner, Option.map_map]
  simp [Function.comp_def]

theorem balanced_nullTest (negated : Bool) : Balanced (nullTest negated) := by
  have hnull : Balanced [.keyword .null] := balanced_nil.cons (by decide) (by decide)
  cases negated with
  | false => exact hnull.cons (by decide) (by decide)
  | true => exact (hnull.cons (by decide) (by decide)).cons (by decide) (by decide)

theorem Phrase.balanced {n : Rule} (d : Phrase n) : Balanced d.tokens := by
  induction d with
  | arith _ _ hfirst hrest => exact hfirst.append hrest
  | sumsEnd => exact balanced_nil
  | sumsMore sign _ _ hnext hrest =>
      cases sign <;> exact (hnext.append hrest).cons (by decide) (by decide)
  | term _ _ hfirst hrest => exact hfirst.append hrest
  | productsEnd => exact balanced_nil
  | productsMore sign _ _ hnext hrest =>
      cases sign <;> exact (hnext.append hrest).cons (by decide) (by decide)
  | signed sign _ hinner => cases sign <;> exact hinner.cons (by decide) (by decide)
  | unsigned _ hinner => exact hinner
  | plain _ hbase => exact hbase
  | raised _ _ hbase hexponent => exact hbase.append (hexponent.cons (by decide) (by decide))
  | number => exact balanced_nil.cons (by simp) (by simp)
  | string => exact balanced_nil.cons (by simp) (by simp)
  | field => exact balanced_nil.cons (by simp) (by simp)
  | null => exact balanced_nil.cons (by decide) (by decide)
  | group _ hinner => exact hinner.parenthesised
  | case _ hall => exact hall.cons (by decide) (by decide)
  | arms _ hfirst => exact hfirst.cons (by decide) (by decide)
  | arm _ _ _ htest hvalue hrest =>
      exact htest.append ((hvalue.append hrest).cons (by decide) (by decide))
  | further _ hnext => exact hnext.cons (by decide) (by decide)
  | otherwise _ hvalue =>
      have hend : Balanced [.keyword .end] := balanced_nil.cons (by decide) (by decide)
      exact (hvalue.append hend).cons (by decide) (by decide)
  | done => exact balanced_nil.cons (by decide) (by decide)
  | condition _ _ hfirst hrest => exact hfirst.append hrest
  | disjunctsEnd => exact balanced_nil
  | disjunctsMore _ _ hnext hrest => exact (hnext.append hrest).cons (by decide) (by decide)
  | conjunction _ _ hfirst hrest => exact hfirst.append hrest
  | conjunctsEnd => exact balanced_nil
  | conjunctsMore _ _ hnext hrest => exact (hnext.append hrest).cons (by decide) (by decide)
  | not _ hinner => exact hinner.cons (by decide) (by decide)
  | grouped _ hinner => exact hinner.parenthesised
  | compared _ hinner => exact hinner
  | compare _ op _ hlhs hrhs =>
      cases op <;> exact hlhs.append (hrhs.cons (by decide) (by decide))
  | isNull _ negated hoperand => exact hoperand.append (balanced_nullTest negated)

/-! ### Marks of a condition -/

theorem hasMark_leftParen (parens cases : Nat) (ts : List Token) :
    hasMark parens cases (.symbol .leftParen :: ts) = hasMark (parens + 1) cases ts := by
  simp [hasMark]

theorem hasMark_rightParen (parens cases : Nat) (ts : List Token) :
    hasMark (parens + 1) cases (.symbol .rightParen :: ts) = hasMark parens cases ts := by
  simp [hasMark]

theorem hasMark_case (parens cases : Nat) (ts : List Token) :
    hasMark parens cases (.keyword .case :: ts) = hasMark parens (cases + 1) ts := by
  simp [hasMark]

theorem hasMark_end (parens cases : Nat) (ts : List Token) :
    hasMark parens (cases + 1) (.keyword .end :: ts) = hasMark parens cases ts := by
  simp [hasMark]

def Token.isBracket : Token → Bool
  | .symbol .leftParen => true
  | .symbol .rightParen => true
  | .keyword .case => true
  | .keyword .end => true
  | _ => false

theorem hasMark_other {t : Token} (ht : t.isBracket = false) {parens cases : Nat}
    (h : marksCondition t = false ∨ 0 < parens + cases) (ts : List Token) :
    hasMark parens cases (t :: ts) = hasMark parens cases ts := by
  have hskip : ¬(parens = 0 ∧ cases = 0 ∧ marksCondition t = true) := by
    rintro ⟨rfl, rfl, hmark⟩
    simp [hmark] at h
  have hleft : t ≠ .symbol .leftParen := by rintro rfl; simp [Token.isBracket] at ht
  have hright : t ≠ .symbol .rightParen := by rintro rfl; simp [Token.isBracket] at ht
  have hcase : t ≠ .keyword .case := by rintro rfl; simp [Token.isBracket] at ht
  have hend : t ≠ .keyword .end := by rintro rfl; simp [Token.isBracket] at ht
  rw [hasMark, if_neg hleft, if_neg hright, if_neg hcase, if_neg hend, if_neg hskip]

theorem hasMark_mark {t : Token} (ht : marksCondition t = true) (ts : List Token) :
    hasMark 0 0 (t :: ts) = true := by
  unfold marksCondition at ht
  split at ht <;> simp_all [hasMark, marksCondition]

/-- The search for a mark passes over the tokens, at the outermost level only if they are
`unmarked`. -/
def Passed (unmarked : Bool) (ts : List Token) : Prop :=
  ∀ parens cases rest, unmarked = true ∨ 0 < parens + cases →
    hasMark parens cases (ts ++ rest) = hasMark parens cases rest

/-- The search for a mark passes over the tokens inside a case distinction, and they end it. -/
def Closes (ts : List Token) : Prop :=
  ∀ parens cases rest, hasMark parens (cases + 1) (ts ++ rest) = hasMark parens cases rest

theorem passed_nil (unmarked : Bool) : Passed unmarked [] := by
  intro parens cases rest _
  rfl

theorem Passed.weaken {unmarked : Bool} {ts : List Token} (h : Passed true ts) :
    Passed unmarked ts := by
  intro parens cases rest _
  exact h parens cases rest (.inl rfl)

theorem Passed.append {unmarked : Bool} {a b : List Token} (ha : Passed unmarked a)
    (hb : Passed unmarked b) : Passed unmarked (a ++ b) := by
  intro parens cases rest h
  rw [List.append_assoc, ha _ _ _ h, hb _ _ _ h]

theorem Passed.cons {unmarked : Bool} {t : Token} {ts : List Token} (hts : Passed unmarked ts)
    (ht : t.isBracket = false) (hmark : marksCondition t = false ∨ unmarked = false) :
    Passed unmarked (t :: ts) := by
  intro parens cases rest h
  have hpass : marksCondition t = false ∨ 0 < parens + cases := by
    rcases hmark with hmark | rfl
    · exact .inl hmark
    · exact .inr (by simpa using h)
  rw [List.cons_append, hasMark_other ht hpass, hts _ _ _ h]

theorem Passed.parenthesised {unmarked : Bool} {ts : List Token} (h : Passed false ts) :
    Passed unmarked (parenthesised ts) := by
  intro parens cases rest _
  simp only [Expr.parenthesised, List.cons_append, List.append_assoc, List.nil_append]
  rw [hasMark_leftParen, h _ _ _ (.inr (by omega)), hasMark_rightParen]

theorem Passed.closes {a b : List Token} (ha : Passed false a) (hb : Closes b) :
    Closes (a ++ b) := by
  intro parens cases rest
  rw [List.append_assoc, ha _ _ _ (.inr (by omega)), hb]

theorem Closes.cons {t : Token} {ts : List Token} (hts : Closes ts)
    (ht : t.isBracket = false) : Closes (t :: ts) := by
  intro parens cases rest
  rw [List.cons_append, hasMark_other ht (.inr (by omega)), hts]

theorem closes_end : Closes [.keyword .end] := by
  intro parens cases rest
  exact hasMark_end parens cases rest

theorem Closes.case {unmarked : Bool} {ts : List Token} (h : Closes ts) :
    Passed unmarked (.keyword .case :: ts) := by
  intro parens cases rest _
  rw [List.cons_append, hasMark_case, h]

theorem passed_nullTest (negated : Bool) : Passed false (nullTest negated) := by
  have hnull : Passed false [.keyword .null] :=
    (passed_nil false).cons (by decide) (by decide)
  cases negated with
  | false => exact hnull.cons (by decide) (by decide)
  | true => exact (hnull.cons (by decide) (by decide)).cons (by decide) (by decide)

/-- What the search for a mark makes of the phrases of a rule: an operand has no mark of its own, a
condition may have one, and arms end their case distinction. -/
def Rule.Searched : Rule → List Token → Prop
  | .arms => Closes
  | .arm => Closes
  | .branches => Closes
  | .condition => Passed false
  | .disjuncts => Passed false
  | .conjunction => Passed false
  | .conjuncts => Passed false
  | .atom => Passed false
  | .comparison => Passed false
  | _ => Passed true

theorem Phrase.searched {n : Rule} (d : Phrase n) : n.Searched d.tokens := by
  induction d with
  | arith _ _ hfirst hrest => exact Passed.append hfirst hrest
  | sumsEnd => exact passed_nil true
  | sumsMore sign _ _ hnext hrest =>
      cases sign <;> exact (Passed.append hnext hrest).cons (by decide) (by decide)
  | term _ _ hfirst hrest => exact Passed.append hfirst hrest
  | productsEnd => exact passed_nil true
  | productsMore sign _ _ hnext hrest =>
      cases sign <;> exact (Passed.append hnext hrest).cons (by decide) (by decide)
  | signed sign _ hinner =>
      cases sign <;> exact Passed.cons hinner (by decide) (by decide)
  | unsigned _ hinner => exact hinner
  | plain _ hbase => exact hbase
  | raised _ _ hbase hexponent =>
      exact Passed.append hbase (Passed.cons hexponent (by decide) (by decide))
  | number => exact (passed_nil true).cons (by rfl) (.inl (by rfl))
  | string => exact (passed_nil true).cons (by rfl) (.inl (by rfl))
  | field => exact (passed_nil true).cons (by rfl) (.inl (by rfl))
  | null => exact (passed_nil true).cons (by decide) (by decide)
  | group _ hinner => exact (Passed.weaken hinner).parenthesised
  | case _ hall => exact Closes.case hall
  | arms _ hfirst => exact Closes.cons hfirst (by decide)
  | arm _ value rest htest hvalue hrest =>
      have hthen : Closes (value.tokens ++ rest.tokens) := (Passed.weaken hvalue).closes hrest
      exact Passed.closes htest (hthen.cons (by decide))
  | further _ hnext => exact Closes.cons hnext (by decide)
  | otherwise _ hvalue =>
      exact ((Passed.weaken hvalue).closes closes_end).cons (by decide)
  | done => exact closes_end
  | condition _ _ hfirst hrest => exact Passed.append hfirst hrest
  | disjunctsEnd => exact passed_nil false
  | disjunctsMore _ _ hnext hrest =>
      exact (Passed.append hnext hrest).cons (by decide) (by decide)
  | conjunction _ _ hfirst hrest => exact Passed.append hfirst hrest
  | conjunctsEnd => exact passed_nil false
  | conjunctsMore _ _ hnext hrest =>
      exact (Passed.append hnext hrest).cons (by decide) (by decide)
  | not _ hinner => exact Passed.cons hinner (by decide) (by decide)
  | grouped _ hinner => exact Passed.parenthesised hinner
  | compared _ hinner => exact hinner
  | compare _ op _ hlhs hrhs =>
      cases op <;>
        exact (Passed.weaken hlhs).append
          ((Passed.weaken hrhs).cons (by decide) (by decide))
  | isNull _ negated hoperand =>
      exact (Passed.weaken hoperand).append (passed_nullTest negated)

/-! ### What stands in the parentheses -/

/-- A group is found at once if the search stands before the partner; else a token is passed over,
and the group of the tokens after it goes on. -/
theorem group?_cons_eq_some {depth : Nat} {t : Token} {ts inner : List Token}
    (h : group? depth (t :: ts) = some inner) :
    (t = .symbol .rightParen ∧ depth = 0 ∧ inner = []) ∨
      ∃ tail, inner = t :: tail ∧
        ((t = .symbol .leftParen ∧ group? (depth + 1) ts = some tail) ∨
          (t = .symbol .rightParen ∧ ∃ outer, depth = outer + 1 ∧ group? outer ts = some tail) ∨
          (t ≠ .symbol .leftParen ∧ t ≠ .symbol .rightParen ∧ group? depth ts = some tail)) := by
  by_cases hleft : t = .symbol .leftParen
  · subst hleft
    rw [group?_leftParen, Option.map_eq_some_iff] at h
    obtain ⟨tail, htail, rfl⟩ := h
    exact .inr ⟨tail, rfl, .inl ⟨rfl, htail⟩⟩
  by_cases hright : t = .symbol .rightParen
  · subst hright
    cases depth with
    | zero => exact .inl ⟨rfl, rfl, by simpa using h.symm⟩
    | succ outer =>
        rw [group?_rightParen, Option.map_eq_some_iff] at h
        obtain ⟨tail, htail, rfl⟩ := h
        exact .inr ⟨tail, rfl, .inr (.inl ⟨rfl, outer, rfl, htail⟩)⟩
  · rw [group?_other hleft hright, Option.map_eq_some_iff] at h
    obtain ⟨tail, htail, rfl⟩ := h
    exact .inr ⟨tail, rfl, .inr (.inr ⟨hleft, hright, htail⟩)⟩

/-- A group found is followed by the partner of its parenthesis. -/
theorem eq_of_group? {depth : Nat} {ts inner : List Token} (h : group? depth ts = some inner) :
    ∃ rest, ts = inner ++ .symbol .rightParen :: rest := by
  induction ts generalizing depth inner with
  | nil => simp [group?] at h
  | cons t ts ih =>
      rcases group?_cons_eq_some h with ⟨rfl, rfl, rfl⟩ | ⟨tail, rfl, htail⟩
      · exact ⟨ts, rfl⟩
      · obtain ⟨rest, rfl⟩ : ∃ rest, ts = tail ++ .symbol .rightParen :: rest := by
          rcases htail with ⟨-, htail⟩ | ⟨-, outer, -, htail⟩ | ⟨-, -, htail⟩ <;> exact ih htail
        exact ⟨rest, rfl⟩

/-- No mark stands outside the parentheses of a group. -/
theorem hasMark_of_group? {depth : Nat} {ts inner : List Token}
    (h : group? depth ts = some inner) (cases : Nat) :
    hasMark (depth + 1) cases (inner ++ [.symbol .rightParen]) = false := by
  induction ts generalizing depth inner cases with
  | nil => simp [group?] at h
  | cons t ts ih =>
      rcases group?_cons_eq_some h with ⟨rfl, rfl, rfl⟩ | ⟨tail, rfl, htail⟩
      · rw [List.nil_append, hasMark_rightParen, hasMark]
      · rcases htail with ⟨rfl, htail⟩ | ⟨rfl, outer, rfl, htail⟩ | ⟨hleft, hright, htail⟩
        · rw [List.cons_append, hasMark_leftParen, ih htail]
        · rw [List.cons_append, hasMark_rightParen, ih htail]
        · -- A mark at this depth is none, and a case distinction only changes the other count.
          simp only [List.cons_append, hasMark, hleft, hright, if_false, ih htail]
          simp

theorem eq_parenthesised_of_unwrap? {ts inner : List Token} (h : unwrap? ts = some inner) :
    ts = parenthesised inner ∧ group? 0 (inner ++ [.symbol .rightParen]) = some inner := by
  unfold unwrap? at h
  split at h
  · rename_i r
    split at h
    · rename_i found hfound
      split at h
      · rename_i hlength
        obtain rfl : found = inner := by simpa using h
        obtain ⟨rest, rfl⟩ := eq_of_group? hfound
        obtain rfl : rest = [] := by
          rw [List.length_append, List.length_cons] at hlength
          exact List.eq_nil_of_length_eq_zero (by omega)
        exact ⟨rfl, hfound⟩
      · simp at h
    · simp at h
  · simp at h

theorem hasMark_of_unwrap? {ts inner : List Token} (h : unwrap? ts = some inner) :
    hasMark 0 0 ts = false := by
  obtain ⟨rfl, hgroup⟩ := eq_parenthesised_of_unwrap? h
  rw [parenthesised, hasMark_leftParen]
  exact hasMark_of_group? hgroup 0

theorem Phrase.group?_tokens {n : Rule} (d : Phrase n) (rest : List Token) :
    group? 0 (d.tokens ++ .symbol .rightParen :: rest) = some d.tokens := by
  rw [d.balanced, group?_close]
  simp

theorem Phrase.unwrap?_parenthesised {n : Rule} (d : Phrase n) :
    unwrap? (parenthesised d.tokens) = some d.tokens := by
  simp [parenthesised, unwrap?, d.group?_tokens]

def Rule.isOperand : Rule → Bool
  | .arith => true
  | .term => true
  | .unary => true
  | .power => true
  | .primary => true
  | _ => false

/-- A parenthesis at the start of an operand is around an operand. -/
theorem Phrase.operand_in_parentheses {n : Rule} (d : Phrase n) (hn : n.isOperand = true)
    {rest ts : List Token} (h : d.tokens ++ rest = .symbol .leftParen :: ts) :
    ∃ (a : Phrase .arith) (after : List Token),
      ts = a.tokens ++ .symbol .rightParen :: after := by
  induction d generalizing rest with
  | arith _ _ hfirst _ => exact hfirst rfl (by rw [← h, Phrase.tokens, List.append_assoc])
  | term _ _ hfirst _ => exact hfirst rfl (by rw [← h, Phrase.tokens, List.append_assoc])
  | signed sign => cases sign <;> simp [Phrase.tokens, SumSign.token] at h
  | unsigned _ hinner => exact hinner rfl h
  | plain _ hbase => exact hbase rfl h
  | raised _ _ hbase _ => exact hbase rfl (by rw [← h, Phrase.tokens, List.append_assoc])
  | group inner =>
      refine ⟨inner, rest, ?_⟩
      simpa [Phrase.tokens, parenthesised] using h.symm
  | number | string | field | null | case => simp [Phrase.tokens] at h
  | _ => simp [Rule.isOperand] at hn

/-- The look ahead does not take an operand for a condition. -/
theorem isConditionGroup_arith (fuel : Nat) (a : Phrase .arith) :
    isConditionGroup fuel a.tokens = false := by
  have hmark (a : Phrase .arith) : hasMark 0 0 a.tokens = false := by
    simpa [hasMark] using a.searched 0 0 [] (.inl rfl)
  induction fuel generalizing a with
  | zero => exact hmark a
  | succ fuel ih =>
      rw [isConditionGroup]
      cases hunwrap : unwrap? a.tokens with
      | none => exact hmark a
      | some inner =>
          obtain ⟨htokens, hinner⟩ := eq_parenthesised_of_unwrap? hunwrap
          obtain ⟨a', after, htail⟩ :=
            a.operand_in_parentheses rfl ((List.append_nil _).trans htokens)
          rw [htail, a'.group?_tokens, Option.some.injEq] at hinner
          rw [← hinner]
          exact ih a'

/-- The rules of conditions, words between them left out. -/
def Rule.isTest : Rule → Bool
  | .condition => true
  | .conjunction => true
  | .atom => true
  | .comparison => true
  | _ => false

theorem hasMark_nullTest (negated : Bool) (rest : List Token) :
    hasMark 0 0 (nullTest negated ++ rest) = true := by
  cases negated <;> exact hasMark_mark rfl _

theorem CompareOp.hasMark_token (op : CompareOp) (ts : List Token) :
    hasMark 0 0 (op.token :: ts) = true := by
  cases op <;> exact hasMark_mark rfl _

/-- A word between two tests is a mark of both together, also where the first has none. -/
theorem hasMark_of_marked_or_parenthesised {ts : List Token}
    (h : (∀ rest, hasMark 0 0 (ts ++ rest) = true) ∨
      ∃ c : Phrase .condition, ts = parenthesised c.tokens)
    {t : Token} (ht : marksCondition t = true) (rest : List Token) :
    hasMark 0 0 (ts ++ t :: rest) = true := by
  rcases h with hmark | ⟨c, rfl⟩
  · exact hmark _
  · rw [c.searched.parenthesised 0 0 _ (.inl rfl)]
    exact hasMark_mark ht rest

/-- A condition has a mark of its own, unless it is nothing but a condition in parentheses. -/
theorem Phrase.marked_or_parenthesised {n : Rule} (d : Phrase n) (hn : n.isTest = true) :
    (∀ rest, hasMark 0 0 (d.tokens ++ rest) = true) ∨
      ∃ c : Phrase .condition, d.tokens = parenthesised c.tokens := by
  induction d with
  | condition _ rest hfirst _ =>
      cases rest with
      | disjunctsEnd => simpa [Phrase.tokens] using hfirst rfl
      | disjunctsMore next more =>
          left
          intro after
          rw [Phrase.tokens, List.append_assoc]
          exact hasMark_of_marked_or_parenthesised (hfirst rfl) rfl _
  | conjunction _ rest hfirst _ =>
      cases rest with
      | conjunctsEnd => simpa [Phrase.tokens] using hfirst rfl
      | conjunctsMore next more =>
          left
          intro after
          rw [Phrase.tokens, List.append_assoc]
          exact hasMark_of_marked_or_parenthesised (hfirst rfl) rfl _
  | not => exact .inl fun _ => hasMark_mark rfl _
  | grouped inner => exact .inr ⟨inner, rfl⟩
  | compared _ hinner => exact hinner rfl
  | compare lhs op rhs =>
      left
      intro after
      rw [Phrase.tokens, List.append_assoc, lhs.searched _ _ _ (.inl rfl)]
      exact op.hasMark_token _
  | isNull operand negated =>
      left
      intro after
      rw [Phrase.tokens, List.append_assoc, operand.searched _ _ _ (.inl rfl)]
      exact hasMark_nullTest negated after
  | _ => simp [Rule.isTest] at hn

/-- The look ahead takes a condition for a condition. -/
theorem isConditionGroup_condition {fuel : Nat} {c : Phrase .condition}
    (h : c.tokens.length ≤ fuel) : isConditionGroup fuel c.tokens = true := by
  induction fuel generalizing c with
  | zero =>
      rcases c.marked_or_parenthesised rfl with hmark | ⟨c', hc⟩
      · simpa [isConditionGroup] using hmark []
      · simp [hc, parenthesised] at h
  | succ fuel ih =>
      -- Each pair of parentheses that is taken off leaves fewer tokens, so the bound suffices.
      rw [isConditionGroup]
      rcases c.marked_or_parenthesised rfl with hmark | ⟨c', hc⟩
      · have hc : hasMark 0 0 c.tokens = true := by simpa using hmark []
        cases hunwrap : unwrap? c.tokens with
        | none => exact hc
        | some inner => simp [hasMark_of_unwrap? hunwrap] at hc
      · rw [hc, c'.unwrap?_parenthesised]
        rw [hc, parenthesised, List.length_cons, List.length_append] at h
        exact ih (by omega)

theorem groupsCondition_condition (c : Phrase .condition) (rest : List Token) :
    groupsCondition (c.tokens ++ .symbol .rightParen :: rest) = true := by
  rw [groupsCondition, c.group?_tokens]
  exact isConditionGroup_condition (Nat.le_refl _)

theorem groupsCondition_arith (a : Phrase .arith) (rest : List Token) :
    groupsCondition (a.tokens ++ .symbol .rightParen :: rest) = false := by
  rw [groupsCondition, a.group?_tokens]
  exact isConditionGroup_arith _ a

end RowContract.Expr
