import RowContract.Expr.Expression
import RowContract.Proofs.Expr.Positions.Lexer
import RowContract.Proofs.Expr.Positions.Parser

/-!
Expressions by places: the text, its tokens and the tree.  What is compiled so is what is compiled
else, or it is refused for the same fault, and nothing else ends the reading.  So no number is taken
below zero, no part of the text or of the tokens is out of reach, and every numeral is a number,
whatever the text is.
-/

namespace RowContract.Expr.Positions

open RowContract.Text

/-! ### Texts -/

/-- The text begins with the word that opens a case distinction; what is behind it is looked at only
then. -/
def startsWithCase (cs : List Char) : Except Stop Bool :=
  if sameIgnoringCase (String.ofList (cs.take 4)) "case" then
    (part cs 4 cs.length).map fun after => after.head?.any isBlank
  else .ok false

def characterFault? (cs : List Char) : Except Stop (Option Fault) := do
  if ← startsWithCase cs then return none
  else return (cs.find? fun c => !Expression.isArithmeticChar c).map .disallowedCharacter

def compile (text : String) : Except Stop Expression := do
  let cs := trimChars text.toList
  match ← characterFault? cs with
  | some fault => .error (.refused fault)
  | none =>
    let ts ← tokensFrom cs 0
    let root ← parse ts
    return { source := String.ofList cs, root := root }

theorem startsWithCase_eq (cs : List Char) :
    startsWithCase cs = .ok (Expression.startsWithCase cs) := by
  rw [startsWithCase, Expression.startsWithCase]
  by_cases hword : sameIgnoringCase (String.ofList (cs.take 4)) "case" = true
  · have hletters := congrArg List.length (sameIgnoringCase_iff.mp hword)
    rw [List.length_map, List.length_map, String.toList_ofList, List.length_take] at hletters
    have hcase : "case".toList.length = 4 := rfl
    have hlength : 4 ≤ cs.length := by omega
    have hafter : part cs 4 cs.length = .ok (cs.drop 4) := by
      rw [part, if_pos ⟨hlength, Nat.le_refl _⟩, List.take_length]
    rw [if_pos hword, hafter, hword]
    rfl
  · rw [if_neg hword, Bool.eq_false_iff.mpr hword]
    rfl

theorem characterFault?_eq (cs : List Char) :
    characterFault? cs = .ok (Expression.characterFault? cs) := by
  rw [characterFault?, startsWithCase_eq, ok_bind, Expression.characterFault?]
  cases Expression.startsWithCase cs <;> rfl

/-- What is compiled by places is what is compiled. -/
theorem compile_eq (text : String) : compile text = (Expression.ofText text).mapError .refused := by
  rw [compile, characterFault?_eq, ok_bind, Expression.ofText]
  cases Expression.characterFault? (trimChars text.toList) with
  | some fault => rfl
  | none =>
      dsimp only
      rw [tokensFrom_eq, List.drop_zero]
      cases tokenize (trimChars text.toList) with
      | error fault => rfl
      | ok ts =>
          have htokens : (.ok ts : Except Fault _).mapError Stop.refused = .ok ts := rfl
          rw [htokens, ok_bind, ok_bind, parse_eq]
          cases Expr.parse ts <;> rfl

/-! ### Every step is possible -/

/-- A token leaves less of the text than there was. -/
theorem length_lt_of_nextToken {c : Char} {r rest : List Char} {t : Token}
    (h : nextToken c r = .ok (t, rest)) : rest.length < (c :: r).length :=
  Nat.lt_succ_of_le (suffix_of_nextToken h).length_le

/-- A numeral among the tokens of a text names a number. -/
theorem exists_numeral_of_mem {cs : List Char} {ts : List Token} {lexeme : String}
    (h : tokenize cs = .ok ts) (hlexeme : .number lexeme ∈ ts) :
    ∃ n, Binary64.Numeral.ofChars? lexeme.toList = some n := by
  obtain ⟨c, r, rest, -, htoken⟩ := exists_nextToken_of_mem h hlexeme
  cases nextToken_eq_ok_iff.mp htoken with
  | word hname hword =>
      rcases classifyWord_eq_ok hword with ⟨k, hk⟩ | hk
      · cases hk
      · cases hk
  | number hname hnumber =>
      rw [String.toList_ofList]
      exact exists_numeral_of_startsNumber hnumber

/-- The search that begins at an opening parenthesis finds a closing one behind it, or none. -/
theorem partner_of_leftParen {ts : List Token} {start : Nat}
    (h : ts[start]? = some (.symbol .leftParen)) :
    ∃ found, partner ts start = .ok found ∧ ∀ close ∈ found,
      start < close ∧ ts[close]? = some (.symbol .rightParen) ∧
        before close = .ok (close - 1) ∧ ∃ inner, part ts (start + 1) close = .ok inner := by
  have hdrop := drop_eq_cons_of_getElem? h
  refine ⟨_, partner_eq hdrop, fun close hclose => ?_⟩
  obtain ⟨inner, hinner, rfl⟩ := Option.map_eq_some_iff.mp hclose
  obtain ⟨after, hafter⟩ := eq_of_group? hinner
  refine ⟨by omega, ?_, ?_, inner, part_of_group? hdrop hinner⟩
  · rw [← List.getElem?_drop, hafter, List.getElem?_append_right (Nat.le_refl _), Nat.sub_self]
    rfl
  · rw [Nat.add_right_comm]
    rfl

/-- Compilation ends for every text, and each step it takes is possible.  Each token uses up a part
of the text and each numeral is a number; the parser gives a tree or a refusal of every list of
tokens, without a bound on the depth of its calls; and the look ahead begun at an opening
parenthesis takes nothing from zero, finds the partner behind the place where it began, and can
take the tokens in between. -/
theorem every_step_possible :
    (∀ text, compile text = (Expression.ofText text).mapError .refused) ∧
    (∀ cs, tokensFrom cs 0 = (tokenize cs).mapError .refused) ∧
    (∀ c r t rest, nextToken c r = .ok (t, rest) → rest.length < (c :: r).length) ∧
    (∀ cs ts lexeme, tokenize cs = .ok ts → .number lexeme ∈ ts →
      ∃ n, Binary64.Numeral.ofChars? lexeme.toList = some n) ∧
    (∀ ts, parse ts = (Expr.parse ts).mapError (.refused ∘ .malformed)) ∧
    (∀ (n : Rule) (s : n.Seed) (ts : List Token) (fuel : Nat), 16 * ts.length + n.calls ≤ fuel →
      n.parser fuel s ts ≠ .error .nestingLimit ∧
        ∀ x r, n.parser fuel s ts = .ok (x, r) → r <:+ ts) ∧
    (∀ ts start, ts[start]? = some (.symbol .leftParen) →
      groupsCondition ts start = .ok (Expr.groupsCondition (ts.drop (start + 1))) ∧
        ∃ found, partner ts start = .ok found ∧ ∀ close ∈ found,
          start < close ∧ ts[close]? = some (.symbol .rightParen) ∧
            before close = .ok (close - 1) ∧ ∃ inner, part ts (start + 1) close = .ok inner) := by
  refine ⟨compile_eq, ?_, ?_, ?_, parse_eq, ?_, ?_⟩
  · exact fun cs => tokensFrom_eq cs 0
  · exact fun c r t rest => length_lt_of_nextToken
  · exact fun cs ts lexeme => exists_numeral_of_mem
  · intro n s ts fuel hfuel
    refine ⟨bounded fuel n s ts hfuel, fun x r h => ?_⟩
    obtain ⟨d, rfl, -⟩ := sound fuel n s h
    exact List.suffix_append d.tokens r
  · intro ts start h
    exact ⟨groupsCondition_eq (drop_eq_cons_of_getElem? h), partner_of_leftParen h⟩

end RowContract.Expr.Positions
