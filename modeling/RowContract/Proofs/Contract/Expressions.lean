import RowContract.Proofs.Contract.Acceptance
import RowContract.Proofs.Expr.Sandbox
import RowContract.Proofs.Text.Trim

/-!
The expressions that a contract keeps compiled.  Each is what its text compiles to, every mapping's
text is among them, and blanks around a text bear on nothing: looking a text up gives what compiling
it anew would give.
-/

namespace RowContract

namespace Expression

/-- Blanks around a text are no part of its expression. -/
theorem ofText_trim (text : String) : ofText (Text.trim text) = ofText text := by
  rw [ofText, ofText, Text.toList_trim, (Text.trimmed_trimChars _).trimChars_eq]

theorem compile_of_ofText {text : String} {e : Expression} (h : ofText text = .ok e)
    (field : String) : compile field text = .ok e := by
  rw [compile, h]
  rfl

end Expression

namespace Contract

def CompiledTexts (expressions : Fields Expression) : Prop :=
  ∀ text e, expressions.get? text = some e → Expression.ofText text = .ok e

variable {done expressions : Fields Expression}

theorem CompiledTexts.append (h : CompiledTexts done) {text : String} {e : Expression}
    (he : Expression.ofText text = .ok e) : CompiledTexts (done ++ [(text, e)]) := by
  intro text' e' hget
  rw [Fields.get?_append, Option.or_eq_some_iff] at hget
  rcases hget with hget | ⟨-, hget⟩
  · exact h text' e' hget
  · rw [Fields.get?_cons] at hget
    split at hget
    next htext =>
      obtain rfl := Option.some.inj hget
      rw [← htext, he]
    next => cases hget

theorem contains_append_of_contains {text other : String} {e : Expression}
    (h : done.contains text = true) : Fields.contains (done ++ [(other, e)]) text = true := by
  rw [Fields.contains] at h ⊢
  rw [Fields.get?_append, Option.isSome_or, h, Bool.true_or]

/-- The texts of the mappings are compiled, each as it stands, and what was compiled before stays.
-/
theorem compileAll_eq_ok {mappings : List FieldMapping} (hdone : CompiledTexts done)
    (h : compileAll done mappings = .ok expressions) :
    CompiledTexts expressions ∧
      (∀ text, done.contains text = true → expressions.contains text = true) ∧
      ∀ m ∈ mappings, ∀ text ∈ m.expression, expressions.contains text = true := by
  induction mappings generalizing done with
  | nil =>
      obtain rfl : done = expressions := Except.ok.inj h
      exact ⟨hdone, fun _ => id, List.forall_mem_nil _⟩
  | cons m rest ih =>
      rw [compileAll] at h
      split at h
      next hnone =>
        obtain ⟨hcompiled, hkept, hrest⟩ := ih hdone h
        refine ⟨hcompiled, hkept, List.forall_mem_cons.mpr ⟨fun text htext => ?_, hrest⟩⟩
        rw [hnone] at htext
        cases htext
      next text hsome =>
        split at h
        next hthere =>
          obtain ⟨hcompiled, hkept, hrest⟩ := ih hdone h
          refine ⟨hcompiled, hkept, List.forall_mem_cons.mpr ⟨fun text' htext => ?_, hrest⟩⟩
          rw [hsome] at htext
          obtain rfl := Option.some.inj htext
          exact hkept text hthere
        next =>
          split at h
          next e he =>
            obtain ⟨hcompiled, hkept, hrest⟩ :=
              ih (hdone.append (Expression.ofText_of_compile he)) h
            refine ⟨hcompiled, fun text' hthere => hkept text' (contains_append_of_contains hthere),
              List.forall_mem_cons.mpr ⟨fun text' htext => ?_, hrest⟩⟩
            rw [hsome] at htext
            obtain rfl := Option.some.inj htext
            refine hkept text ?_
            rw [Fields.contains, Fields.get?_append, Option.isSome_or, Fields.get?_cons, if_pos rfl,
              Option.isSome_some, Bool.or_true]
          next => cases h

/-- No text is compiled twice. -/
theorem nodup_compileAll {mappings : List FieldMapping} (hdone : done.names.Nodup)
    (h : compileAll done mappings = .ok expressions) : expressions.names.Nodup := by
  induction mappings generalizing done with
  | nil =>
      obtain rfl : done = expressions := Except.ok.inj h
      exact hdone
  | cons m rest ih =>
      rw [compileAll] at h
      split at h
      next => exact ih hdone h
      next text _ =>
        split at h
        next => exact ih hdone h
        next hnew =>
          split at h
          next e _ =>
            have hnotMem : text ∉ done.names := mt (Fields.mem_names_iff done text).mp hnew
            refine ih ?_ h
            rw [← Fields.set_of_notMem hnotMem]
            exact Fields.nodup_names_set hdone text e
          next => cases h

variable {document : Json} {c : Contract}

theorem nodup_expressions (h : ofDocument document = .ok c) : c.expressions.names.Nodup := by
  obtain ⟨_, -, -, hprepare⟩ := prepare_of_ofDocument h
  obtain ⟨-, hcompile, -⟩ := prepare_eq_ok hprepare
  have hnil : (Fields.names ([] : Fields Expression)).Nodup := List.nodup_nil
  exact nodup_compileAll hnil hcompile

theorem expressions_of_ofDocument (h : ofDocument document = .ok c) :
    CompiledTexts c.expressions ∧
      ∀ m ∈ c.mappings, ∀ text ∈ m.expression, c.expressions.contains text = true := by
  obtain ⟨read, -, -, hprepare⟩ := prepare_of_ofDocument h
  obtain ⟨-, hcompile, hc⟩ := prepare_eq_ok hprepare
  have hmappings : c.mappings = read.mappings := by rw [hc]
  have hnil : CompiledTexts [] := nofun
  obtain ⟨hcompiled, -, htexts⟩ := compileAll_eq_ok hnil hcompile
  rw [hmappings]
  exact ⟨hcompiled, htexts⟩

/-- What an accepted contract has compiled for a text is what the text compiles to. -/
theorem ofText_of_compiled? (h : ofDocument document = .ok c) {text : String} {e : Expression}
    (he : c.compiled? text = some e) : Expression.ofText text = .ok e := by
  obtain ⟨hcompiled, -⟩ := expressions_of_ofDocument h
  rw [compiled?, Option.or_eq_some_iff] at he
  rcases he with he | ⟨-, he⟩
  · -- The expression found may be that of another text with other blanks around it.
    rw [← Expression.ofText_trim]
    exact hcompiled _ e he
  · exact hcompiled _ e he

/-- The text of a mapping of an accepted contract is compiled. -/
theorem exists_compiled? (h : ofDocument document = .ok c) {m : FieldMapping} (hm : m ∈ c.mappings)
    {text : String} (htext : m.expression = some text) : ∃ e, c.compiled? text = some e := by
  obtain ⟨-, htexts⟩ := expressions_of_ofDocument h
  have hthere := htexts m hm text htext
  rw [Fields.contains] at hthere
  rw [← Option.isSome_iff_exists, compiled?, Option.isSome_or, hthere, Bool.or_true]

/-- A calculation of an accepted contract has an expression. -/
theorem exists_expression (h : ofDocument document = .ok c) {m : FieldMapping} (hm : m ∈ c.mappings)
    (hop : Operation.calculatedField ∈ m.chain) : ∃ text, m.expression = some text := by
  obtain ⟨read, expressions, -, -, hcheck, rfl⟩ := ofDocument_eq_ok h
  obtain ⟨_, -, hchain⟩ := bind_eq_ok (forM_eq_ok hcheck m hm)
  have hoperation := forM_eq_ok hchain .calculatedField hop
  cases hexpression : m.expression with
  | some text => exact ⟨text, rfl⟩
  | none =>
      rw [checkOperation, hexpression] at hoperation
      cases hoperation

end Contract

end RowContract
