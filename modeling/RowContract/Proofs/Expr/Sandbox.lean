import RowContract.Expr.Expression
import RowContract.Proofs.Expr.Names

/-!
What an expression may read.  Its value over the fields of a record depends on the fields it
names and on no others, wherever in the expression a name stands; the names are those of the
identifiers in its text, and each of them is a word that may be a name.
-/

namespace RowContract

namespace Expr

/-! ### Values over agreeing fields -/

/-- Both give the same value, or none, for each of the names. -/
def AgreeOn (names : List String) (ctx₁ ctx₂ : Context) : Prop :=
  ∀ name ∈ names, ctx₁.get? name = ctx₂.get? name

theorem agreeOn_append_iff {a b : List String} {ctx₁ ctx₂ : Context} :
    AgreeOn (a ++ b) ctx₁ ctx₂ ↔ AgreeOn a ctx₁ ctx₂ ∧ AgreeOn b ctx₁ ctx₂ :=
  List.forall_mem_append

/-- A tree has one value over both, as it stands, in arithmetic and as a text. -/
structure Tree.SameOver (ctx₁ ctx₂ : Context) (t : Tree) : Prop where
  eval : t.eval ctx₁ = t.eval ctx₂
  evalNumber : t.evalNumber ctx₁ = t.evalNumber ctx₂
  evalText : t.evalText ctx₁ = t.evalText ctx₂

variable {ctx₁ ctx₂ : Context}

mutual

theorem Tree.sameOver : (t : Tree) → AgreeOn t.fieldNames ctx₁ ctx₂ → t.SameOver ctx₁ ctx₂
  | .number _, _ => ⟨rfl, rfl, rfl⟩
  | .text _, _ => ⟨rfl, rfl, rfl⟩
  | .null, _ => ⟨rfl, rfl, rfl⟩
  | .field name, h => by
      have hname : ctx₁.get? name = ctx₂.get? name := h name (List.mem_singleton.mpr rfl)
      constructor
      · rw [Tree.eval, Tree.eval, hname]
      · rw [Tree.evalNumber, Tree.evalNumber, hname]
      · rw [Tree.evalText, Tree.evalText, hname]
  | .neg inner, h => by
      have hinner := inner.sameOver h
      constructor
      · rw [Tree.eval, Tree.eval, hinner.evalNumber]
      · rw [Tree.evalNumber, Tree.evalNumber, hinner.evalNumber]
      · rw [Tree.evalText, Tree.evalText, hinner.evalNumber]
  | .binary op lhs rhs, h => by
      obtain ⟨hl, hr⟩ := agreeOn_append_iff.mp h
      have hlhs := lhs.sameOver hl
      have hrhs := rhs.sameOver hr
      constructor
      · rw [Tree.eval, Tree.eval, hlhs.evalNumber, hrhs.evalNumber]
      · rw [Tree.evalNumber, Tree.evalNumber, hlhs.evalNumber, hrhs.evalNumber]
      · rw [Tree.evalText, Tree.evalText, hlhs.evalNumber, hrhs.evalNumber]
  | .case branches, h => by
      have hbranches := branches.eval_eq h
      constructor
      · rw [Tree.eval, Tree.eval, hbranches]
      · rw [Tree.evalNumber, Tree.evalNumber, hbranches]
      · rw [Tree.evalText, Tree.evalText, hbranches]

theorem Branches.eval_eq : (b : Branches) → AgreeOn b.fieldNames ctx₁ ctx₂ →
    b.eval ctx₁ = b.eval ctx₂
  | .arm condition value rest, h => by
      obtain ⟨hboth, hrest⟩ := agreeOn_append_iff.mp h
      obtain ⟨hcondition, hvalue⟩ := agreeOn_append_iff.mp hboth
      rw [Branches.eval, Branches.eval, condition.eval_eq hcondition,
        (value.sameOver hvalue).eval, rest.eval_eq hrest]
  | .otherwise value, h => (value.sameOver h).eval
  | .done, _ => rfl

theorem Condition.eval_eq : (c : Condition) → AgreeOn c.fieldNames ctx₁ ctx₂ →
    c.eval ctx₁ = c.eval ctx₂
  | .not inner, h => by
      rw [Condition.eval, Condition.eval, inner.eval_eq h]
  | .and a b, h => by
      obtain ⟨ha, hb⟩ := agreeOn_append_iff.mp h
      rw [Condition.eval, Condition.eval, a.eval_eq ha, b.eval_eq hb]
  | .or a b, h => by
      obtain ⟨ha, hb⟩ := agreeOn_append_iff.mp h
      rw [Condition.eval, Condition.eval, a.eval_eq ha, b.eval_eq hb]
  | .isNull operand negated, h => by
      rw [Condition.eval, Condition.eval, (operand.sameOver h).eval]
  | .compare op lhs rhs, h => by
      obtain ⟨hl, hr⟩ := agreeOn_append_iff.mp h
      have hlhs := lhs.sameOver hl
      have hrhs := rhs.sameOver hr
      cases op with
      | eq => rw [Condition.eval, Condition.eval, hlhs.evalText, hrhs.evalText]
      | notEq => rw [Condition.eval, Condition.eval, hlhs.evalText, hrhs.evalText]
      | lt | le | gt | ge => simp only [Condition.eval, hlhs.eval, hrhs.eval]

end

end Expr

namespace Expression

open RowContract.Expr

/-- What the text of an expression passed: the check of its characters, the lexer and the parser. -/
theorem ofText_eq_ok {text : String} {e : Expression} (h : ofText text = .ok e) :
    characterFault? (Text.trimChars text.toList) = none ∧
      ∃ ts, tokenize (Text.trimChars text.toList) = .ok ts ∧ parse ts = .ok e.root := by
  rw [ofText] at h
  cases hfault : characterFault? (Text.trimChars text.toList) with
  | some fault => rw [hfault] at h; cases h
  | none =>
      rw [hfault] at h
      obtain ⟨ts, htokens, hparse⟩ := bind_eq_ok h
      refine ⟨rfl, ts, htokens, ?_⟩
      split at hparse
      next hroot =>
        cases hparse
        exact hroot
      next => cases hparse

theorem parse_of_ofText {text : String} {e : Expression} (h : ofText text = .ok e) :
    ∃ ts, tokenize text.toList = .ok ts ∧ parse ts = .ok e.root := by
  obtain ⟨-, ts, htokens, hparse⟩ := ofText_eq_ok h
  exact ⟨ts, tokenize_of_trimChars htokens, hparse⟩

theorem ofText_of_compile {field text : String} {e : Expression}
    (h : compile field text = .ok e) : ofText text = .ok e := by
  unfold compile at h
  cases hof : ofText text with
  | error fault => rw [hof] at h; cases h
  | ok e' =>
      rw [hof] at h
      exact congrArg _ (Except.ok.inj h)

/-- What a compiled expression reads: the names its text is written with, ascending and each once,
all of them words that may be names.  It has one outcome over any two records that agree on
these. -/
theorem compile_sandboxed {field text : String} {e : Expression}
    (h : compile field text = .ok e) :
    ∃ ts, tokenize text.toList = .ok ts ∧
      e.root.fields.Pairwise (· < ·) ∧
      (∀ name, name ∈ e.root.fields ↔ .identifier name ∈ ts) ∧
      (∀ name ∈ e.root.fields, IsFieldName name) ∧
      ∀ ctx₁ ctx₂ : Expr.Context, AgreeOn e.root.fields ctx₁ ctx₂ →
        ∀ column, e.evaluate column ctx₁ = e.evaluate column ctx₂ := by
  obtain ⟨ts, htokens, hparse⟩ := parse_of_ofText (ofText_of_compile h)
  have hmem (name : String) : name ∈ e.root.fields ↔ .identifier name ∈ ts := by
    rw [Tree.fields, mem_sortNames_iff, fieldNames_of_parse hparse, mem_names_iff]
  refine ⟨ts, htokens, pairwise_sortNames _, hmem, ?_, ?_⟩
  · intro name hname
    exact isFieldName_of_tokenize htokens ((hmem name).mp hname)
  · intro ctx₁ ctx₂ hagree column
    have hnames : AgreeOn e.root.fieldNames ctx₁ ctx₂ := fun name hname =>
      hagree name (mem_sortNames_iff.mpr hname)
    rw [evaluate, evaluate, (e.root.sameOver hnames).eval]

theorem compile_sandboxed_rate :
    ∃ e, compile "total" "rate * (rate + fee)" = .ok e ∧ e.root.fields = ["fee", "rate"] ∧
      ∀ ctx₁ ctx₂ : Expr.Context, AgreeOn ["fee", "rate"] ctx₁ ctx₂ →
        ∀ column, e.evaluate column ctx₁ = e.evaluate column ctx₂ := by
  have hcompile : ((compile "total" "rate * (rate + fee)").toOption.any fun e =>
      e.root.fields == ["fee", "rate"]) = true := by
    decide +kernel
  obtain ⟨e, he, hfields⟩ := any_toOption_iff.mp hcompile
  obtain ⟨_, _, _, _, _, hsame⟩ := compile_sandboxed he
  rw [beq_iff_eq.mp hfields] at hsame
  exact ⟨e, he, beq_iff_eq.mp hfields, hsame⟩

end Expression

end RowContract
