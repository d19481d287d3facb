import RowContract.Load.Session
import RowContract.Text.Search

/-!
Rehearsals: a cursor that answers by rules, and keeps nothing but how often each
rule has matched.  Any sequence of answers can be had from it.
-/

namespace RowContract

inductive CallKind where
  | one
  | many
  deriving DecidableEq, Repr

structure AnswerRule where
  kind : Option CallKind := none
  /-- A part of the statement. -/
  part : Option String := none
  /-- A value among the parameters. -/
  value : Option Value := none
  /-- Which of its matches it answers, counted from zero; all of them if this is missing. -/
  nth : Option Nat := none
  answer : Except DbError Nat
  /-- How often it has matched. -/
  matched : Nat := 0

structure RehearsedCall where
  kind : CallKind
  text : String
  values : List Value

def AnswerRule.covers (r : AnswerRule) (call : RehearsedCall) : Bool :=
  (r.kind.all fun k => k == call.kind) &&
    (r.part.all fun part => Text.occursIn part.toList call.text.toList) &&
    r.value.all fun v => call.values.any fun w => v.same w

def AnswerRule.applies (r : AnswerRule) : Bool := r.nth.all fun n => n == r.matched

namespace Rehearsal

/-- The answer to a call: that of the first rule that applies, else one row.  Rules behind it do not
see the call. -/
def answer (call : RehearsedCall) : List AnswerRule → Except DbError Nat × List AnswerRule
  | [] => (.ok 1, [])
  | r :: rest =>
    if r.covers call then
      let counted := { r with matched := r.matched + 1 }
      if r.applies then (r.answer, counted :: rest)
      else
        let (a, rest) := answer call rest
        (a, counted :: rest)
    else
      let (a, rest) := answer call rest
      (a, r :: rest)

def cursor : Cursor (List AnswerRule) where
  execute command rules := answer ⟨.one, command.text, command.params⟩ rules
  executeMany text rows rules :=
    let (a, rules) := answer ⟨.many, text, rows.flatten⟩ rules
    (a.map fun _ => (), rules)
  setFast _ rules := rules

end Rehearsal

end RowContract
