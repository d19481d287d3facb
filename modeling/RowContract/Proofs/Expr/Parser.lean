import RowContract.Proofs.Expr.Parser.Completeness

/-!
The parser and the grammar agree on all lists of tokens.
-/

namespace RowContract.Expr

theorem parse_of_tokens (d : Phrase .arith) : parse d.tokens = .ok d.tree := by
  obtain ⟨t, ts, htokens, -⟩ := d.beginsOperand rfl
  have harith : arith (depthBound d.tokens) (d.tokens ++ []) = .ok (d.result (), []) :=
    d.accepted () (depthBound d.tokens) []
      (by simp only [List.append_nil, depthBound, Rule.calls]; omega) (stops_nil _)
  rw [List.append_nil] at harith
  rw [parse, if_neg (by simp [htokens]), harith]
  rfl

theorem tokens_of_parse {ts : List Token} {tree : Tree} (h : parse ts = .ok tree) :
    ∃ d : Phrase .arith, d.tokens = ts ∧ d.tree = tree := by
  rw [parse] at h
  split at h
  · cases h
  · obtain ⟨⟨t, r⟩, harith, hrest⟩ := bind_eq_ok h
    obtain ⟨d, rfl, rfl⟩ := (sound _).arith harith
    cases r with
    | nil =>
        cases hrest
        exact ⟨d, (List.append_nil _).symm, rfl⟩
    | cons t r => cases hrest

theorem parse_ne_nestingLimit (ts : List Token) : parse ts ≠ .error .nestingLimit := by
  rw [parse]
  split
  · simp
  · have hbound : 16 * ts.length + Rule.arith.calls ≤ depthBound ts := by
      simp only [depthBound, Rule.calls]
      omega
    refine (bounded (depthBound ts)).bind .arith () hbound fun tree r _ => ?_
    cases r <;> simp

/-- An atom that begins with a parenthesis is a condition in parentheses where these enclose a
condition, and a comparison where they enclose an operand; the look ahead tells which. -/
theorem Phrase.atom_in_parentheses (d : Phrase .atom) {rest ts : List Token}
    (h : d.tokens ++ rest = .symbol .leftParen :: ts) :
    ((∃ c, d = .grouped c) ↔
        ∃ (c : Phrase .condition) (after : List Token),
          ts = c.tokens ++ .symbol .rightParen :: after) ∧
      ((∃ e, d = .compared e) ↔
        ∃ (a : Phrase .arith) (after : List Token),
          ts = a.tokens ++ .symbol .rightParen :: after) ∧
      ((∃ c, d = .grouped c) ↔ groupsCondition ts = true) := by
  have hcondition (c : Phrase .condition) (a : Phrase .arith) (after after' : List Token) :
      c.tokens ++ .symbol .rightParen :: after ≠ a.tokens ++ .symbol .rightParen :: after' := by
    intro heq
    have htrue := groupsCondition_condition c after
    rw [heq, groupsCondition_arith] at htrue
    cases htrue
  cases d with
  | not => simp [Phrase.tokens] at h
  | grouped c =>
      obtain rfl : c.tokens ++ .symbol .rightParen :: rest = ts := by
        simpa [Phrase.tokens, parenthesised] using h
      refine ⟨⟨fun _ => ⟨c, rest, rfl⟩, fun _ => ⟨c, rfl⟩⟩, ⟨?_, ?_⟩, ?_⟩
      · rintro ⟨e, he⟩
        cases he
      · rintro ⟨a, after, heq⟩
        exact absurd heq (hcondition c a rest after)
      · exact ⟨fun _ => groupsCondition_condition c rest, fun _ => ⟨c, rfl⟩⟩
  | compared e =>
      have hoperand := e.groupsCondition_of_comparison h
      obtain ⟨a, more, hmore⟩ := e.comparison_tokens
      rw [Phrase.tokens, hmore, List.append_assoc] at h
      obtain ⟨a', after, rfl⟩ := a.operand_in_parentheses rfl h
      refine ⟨⟨?_, ?_⟩, ⟨fun _ => ⟨a', after, rfl⟩, fun _ => ⟨e, rfl⟩⟩, ?_⟩
      · rintro ⟨c, hc⟩
        cases hc
      · rintro ⟨c, after', heq⟩
        exact absurd heq.symm (hcondition c a' after' after)
      · rw [hoperand]
        constructor
        · rintro ⟨c, hc⟩
          cases hc
        · intro hfalse
          cases hfalse

/-- A list of tokens parses to a tree exactly if it has a derivation that stands for the tree.  It
has at most one, and without one it is refused for its syntax.  In a derivation a parenthesis at the
start of an atom is read for what it encloses. -/
theorem parse_eq_ok_iff_derivation (ts : List Token) :
    (∀ tree, parse ts = .ok tree ↔ ∃ d : Phrase .arith, d.tokens = ts ∧ d.tree = tree) ∧
      (∀ d d' : Phrase .arith, d.tokens = ts → d'.tokens = ts → d = d') ∧
      ((∀ d : Phrase .arith, d.tokens ≠ ts) →
        ∃ fault, parse ts = .error fault ∧ fault ≠ .nestingLimit) ∧
      (∀ (d : Phrase .atom) (rest inside : List Token),
        d.tokens ++ rest = .symbol .leftParen :: inside →
          ((∃ c, d = .grouped c) ↔
              ∃ (c : Phrase .condition) (after : List Token),
                inside = c.tokens ++ .symbol .rightParen :: after) ∧
            ((∃ e, d = .compared e) ↔
              ∃ (a : Phrase .arith) (after : List Token),
                inside = a.tokens ++ .symbol .rightParen :: after) ∧
            ((∃ c, d = .grouped c) ↔ groupsCondition inside = true)) := by
  refine ⟨fun tree => ⟨tokens_of_parse, ?_⟩, ?_, ?_, ?_⟩
  · rintro ⟨d, rfl, rfl⟩
    exact parse_of_tokens d
  · rintro d d' rfl h
    exact Phrase.tokens_injective h.symm
  · intro hnone
    cases hparse : parse ts with
    | ok tree =>
        obtain ⟨d, hd, -⟩ := tokens_of_parse hparse
        exact absurd hd (hnone d)
    | error fault =>
        refine ⟨fault, rfl, ?_⟩
        rintro rfl
        exact parse_ne_nestingLimit ts hparse
  · intro d rest inside h
    exact d.atom_in_parentheses h

/-- Differences group to the left, powers to the right and tighter than a sign. -/
example :
    parse [.symbol .minus, .identifier "a", .symbol .doubleStar, .identifier "b",
        .symbol .doubleStar, .identifier "c", .symbol .minus, .identifier "d", .symbol .minus,
        .identifier "e"] =
      .ok (.binary .sub
        (.binary .sub
          (.neg (.binary .pow (.field "a") (.binary .pow (.field "b") (.field "c"))))
          (.field "d"))
        (.field "e")) := by
  rfl

end RowContract.Expr
