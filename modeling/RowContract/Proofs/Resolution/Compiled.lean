import RowContract.Proofs.Contract.Expressions
import RowContract.Proofs.Expr.Division
import RowContract.Proofs.Resolution.Chain

/-!
Resolution with compiled expressions.  What an accepted contract keeps compiled bears on the time a
resolution takes and on nothing else: without it every resolution has the same outcome and writes
the same lines.  And as the contract has compiled the expressions of its mappings, an expression can
go wrong in one way only, by a division by zero.
-/

namespace RowContract

namespace ChainContext

variable {ctx : ChainContext} {document : Json}

/-! ### Resolution without compiled expressions -/

def uncompiled (ctx : ChainContext) : ChainContext :=
  { ctx with contract := { ctx.contract with expressions := [] } }

theorem expression_eq_compile (hc : Contract.ofDocument document = .ok ctx.contract) :
    ctx.expression =
      Expression.compile ctx.mapping.label (ctx.mapping.expression.getD "") := by
  rw [expression]
  split
  next e he => rw [Expression.compile_of_ofText (Contract.ofText_of_compiled? hc he)]
  next => rfl

theorem evaluate_uncompiled (hc : Contract.ofDocument document = .ok ctx.contract) :
    ctx.uncompiled.evaluate = ctx.evaluate := by
  have hexpression : ctx.uncompiled.expression = ctx.expression := by
    rw [expression_eq_compile hc]
    rfl
  rw [evaluate, evaluate, hexpression]
  rfl

theorem applyOperation_uncompiled (hc : Contract.ofDocument document = .ok ctx.contract)
    (op : Operation) (v : Value) :
    ctx.uncompiled.applyOperation op v = ctx.applyOperation op v := by
  cases op with
  | calculatedField =>
      change ctx.uncompiled.calculate = ctx.calculate
      rw [calculate, calculate, evaluate_uncompiled hc]
      rfl
  | _ => rfl

/-- Nothing that is resolved depends on what is compiled. -/
theorem resolve_uncompiled (hc : Contract.ofDocument document = .ok ctx.contract) (raw : Value) :
    ctx.uncompiled.resolve raw = ctx.resolve raw :=
  resolve_congr rfl fun _ => applyOperation_uncompiled hc _ _

/-! ### Faults and lines -/

/-- The lines that a resolution writes where the only fault of an expression is a division by
zero. -/
inductive Reports (ctx : ChainContext) : LogEntry → Prop where
  /-- A word is not in the table of codes. -/
  | unknownWord (word : String) :
      Reports ctx ⟨.warning, ctx.mapping.label ++ ": value '" ++ word ++ "' not in enum '" ++
        ctx.mapping.codeTable ++ "'", some ctx.mapping.targetTable⟩
  /-- A value cannot be converted to the type of the column. -/
  | inconvertible (v : Value) :
      Reports ctx ⟨.warning, ctx.mapping.label ++ ": cannot convert '" ++ v.display ++ "' to " ++
        ctx.mapping.dataType.display, some ctx.mapping.targetTable⟩
  /-- An expression divides by zero. -/
  | division (e : ExpressionError) (hevaluate : ctx.evaluate = .error e)
      (hreason : e.reason = .divisionByZero) :
      Reports ctx ⟨.warning, ctx.mapping.label ++ " set to NULL: " ++ e.message,
        some ctx.mapping.targetTable⟩

/-- The computation writes such lines only, and if it fails for an expression, that divides by
zero. -/
structure DividesOnly (ctx : ChainContext) {α : Type} (x : Transform α) : Prop where
  lines : ∀ line ∈ x.run.lines, ctx.Reports line
  error : ∀ e, x.run.value = .error (.expression e) → e.reason = .divisionByZero

namespace DividesOnly

variable {α β : Type}

theorem pure (a : α) : ctx.DividesOnly (Pure.pure a : Transform α) := by
  refine ⟨List.forall_mem_nil _, fun e he => ?_⟩
  cases he

theorem bind {x : Transform α} {f : α → Transform β} (hx : ctx.DividesOnly x)
    (hf : ∀ a, ctx.DividesOnly (f a)) : ctx.DividesOnly (x >>= f) := by
  obtain ⟨value, lines⟩ := x
  cases value with
  | error err =>
      refine ⟨fun line hline => hx.lines line ?_, fun e he => hx.error e ?_⟩
      · rcases List.mem_append.mp hline with hline | hline
        · exact hline
        · cases hline
      · exact congrArg _ (Except.error.inj he)
  | ok a =>
      refine ⟨fun line hline => ?_, (hf a).error⟩
      rcases List.mem_append.mp hline with hline | hline
      · exact hx.lines line hline
      · exact (hf a).lines line hline

/-- What only writes lines does not fail. -/
theorem lift {x : Logged α} (h : ∀ line ∈ x.lines, ctx.Reports line) :
    ctx.DividesOnly (liftM x : Transform α) := by
  refine ⟨fun line hline => ?_, fun e he => by cases he⟩
  rcases List.mem_append.mp hline with hline | hline
  · exact h line hline
  · cases hline

theorem warn {table message : String} (h : ctx.Reports ⟨.warning, message, some table⟩) :
    ctx.DividesOnly (liftM (Logged.warn table message) : Transform Unit) :=
  lift (List.forall_mem_singleton.mpr h)

end DividesOnly

theorem dividesOnly_lookUp (v : Value) : ctx.DividesOnly (ctx.lookUp v) := by
  unfold lookUp
  split
  · exact .pure _
  next s _ =>
    dsimp only
    -- How the word is trimmed must not be unfolded to compare the lines.
    generalize Text.trim s = word
    split
    · exact .pure _
    · split
      · exact .pure _
      · exact .bind (.warn (.unknownWord word)) fun _ => .pure _

theorem dividesOnly_calculate
    (h : ∀ e, ctx.evaluate = .error e → e.reason = .divisionByZero) :
    ctx.DividesOnly ctx.calculate := by
  unfold calculate
  split
  · exact .pure _
  next e he =>
    dsimp only
    split
    · refine ⟨List.forall_mem_nil _, fun e' he' => ?_⟩
      obtain rfl := TransformError.expression.inj (Except.error.inj he')
      exact h e he
    · exact .bind (.warn (.division e he (h e he))) fun _ => .pure _

theorem dividesOnly_applyOperation {op : Operation} (v : Value)
    (h : op = .calculatedField → ∀ e, ctx.evaluate = .error e → e.reason = .divisionByZero) :
    ctx.DividesOnly (ctx.applyOperation op v) := by
  cases op with
  | enum => exact dividesOnly_lookUp v
  | calculatedField => exact dividesOnly_calculate (h rfl)
  | _ => exact .pure _

theorem dividesOnly_applyChain (raw : Value) (calculated : Bool) {ops : List Operation} (v : Value)
    (h : .calculatedField ∈ ops → ∀ e, ctx.evaluate = .error e → e.reason = .divisionByZero) :
    ctx.DividesOnly (ctx.applyChain raw calculated ops v) := by
  induction ops generalizing calculated v with
  | nil => exact .pure _
  | cons op rest ih =>
      have hrest (calculated : Bool) (v : Value) :=
        ih calculated v fun hmem => h (List.mem_cons_of_mem _ hmem)
      rw [applyChain]
      split
      · exact hrest _ _
      · refine .bind (dividesOnly_applyOperation v fun hop => h (hop ▸ List.mem_cons_self))
          fun w => ?_
        dsimp only
        -- After nothing the chain ends, or goes on from the raw value; else it goes on from `w`.
        split
        · split
          · exact hrest _ _
          · exact .pure _
        · exact hrest _ _

theorem dividesOnly_finish (v : Value) : ctx.DividesOnly (ctx.finish v) := by
  have hconvert : ∀ line ∈ (convert ctx.mapping v).lines, ctx.Reports line := by
    unfold convert
    split
    · exact List.forall_mem_nil _
    · exact List.forall_mem_singleton.mpr (.inconvertible v)
  refine .bind (.lift hconvert) fun w => ?_
  split
  · exact .pure _
  · split
    · exact .pure _
    · split
      · exact ⟨List.forall_mem_nil _, fun e he => by cases he⟩
      · exact .pure _

theorem dividesOnly_resolve (raw : Value)
    (h : .calculatedField ∈ ctx.mapping.chain →
      ∀ e, ctx.evaluate = .error e → e.reason = .divisionByZero) :
    ctx.DividesOnly (ctx.resolve raw) :=
  .bind (dividesOnly_applyChain _ _ _ h) fun v => .bind (dividesOnly_finish v) fun _ => .pure _

/-- The expression of a mapping that the contract has compiled fails by a division only. -/
theorem reason_of_evaluate (hc : Contract.ofDocument document = .ok ctx.contract)
    (hmapping : ctx.mapping ∈ ctx.contract.mappings)
    (hop : .calculatedField ∈ ctx.mapping.chain) {e : ExpressionError}
    (he : ctx.evaluate = .error e) : e.reason = .divisionByZero := by
  obtain ⟨text, htext⟩ := Contract.exists_expression hc hmapping hop
  obtain ⟨compiled, hcompiled⟩ := Contract.exists_compiled? hc hmapping htext
  have hexpression : ctx.expression = .ok compiled := by
    rw [expression, htext, Option.getD_some, hcompiled]
  rw [evaluate, hexpression, ok_bind] at he
  cases heval : compiled.root.eval ctx.fields with
  | ok outcome =>
      rw [Expression.evaluate, heval] at he
      cases he
  | error fault =>
      rw [Expression.evaluate, heval] at he
      obtain rfl := Except.error.inj he
      exact (compiled.root.dividesOnly ctx.fields).eval fault heval

end ChainContext

namespace Contract

/-- The expressions that an accepted contract keeps are those that its texts compile to, and each
text of a mapping has one.  So a resolution over the contract is the same, lines included, as one
over a contract that keeps none, and through a mapping of the contract it neither fails for an
expression nor reports one but for a division by zero. -/
theorem compiled_coherent {document : Json} {c : Contract}
    (hc : ofDocument document = .ok c) :
    (∀ m ∈ c.mappings, ∀ text, m.expression = some text →
      ∃ e, c.compiled? text = some e ∧
        ∀ label, Expression.compile label text = .ok e) ∧
      ∀ ctx : ChainContext, ctx.contract = c → ∀ raw,
        ctx.uncompiled.resolve raw = ctx.resolve raw ∧
          (ctx.mapping ∈ c.mappings →
            (∀ e, (ctx.resolve raw).run.value = .error (.expression e) →
              e.reason = .divisionByZero) ∧
            ∀ line ∈ (ctx.resolve raw).run.lines, ctx.Reports line) := by
  refine ⟨fun m hm text htext => ?_, ?_⟩
  · obtain ⟨e, he⟩ := exists_compiled? hc hm htext
    exact ⟨e, he, Expression.compile_of_ofText (ofText_of_compiled? hc he)⟩
  · rintro ctx rfl raw
    refine ⟨ChainContext.resolve_uncompiled hc raw, fun hmapping => ?_⟩
    have hdivides : ctx.DividesOnly (ctx.resolve raw) :=
      ChainContext.dividesOnly_resolve raw fun hop _ =>
        ChainContext.reason_of_evaluate hc hmapping hop
    exact ⟨hdivides.error, hdivides.lines⟩

def quotients : Json :=
  .object
    [("mappings", .array
       [.object [("source_path", .string "/app/@share"), ("target_table", .string "app_base"),
          ("target_column", .string "share"), ("mapping_type", .string "calculated_field"),
          ("expression", .string "1 / 0")],
        .object [("source_path", .string "/app/@ratio"), ("target_table", .string "app_base"),
          ("target_column", .string "ratio"), ("mapping_type", .string "calculated_field"),
          ("expression", .string " 1 / 0 ")]])]

/-- Both columns have a compiled expression, and both divide by zero. -/
theorem quotients_compiled_coherent :
    ∃ c, ofDocument quotients = .ok c ∧
      c.mappings.map FieldMapping.expression = [some "1 / 0", some " 1 / 0 "] ∧
      ∀ m ∈ c.mappings, (∃ e, c.compiled? (m.expression.getD "") = some e) ∧
        let ctx : ChainContext := ⟨c, m, [], none⟩
        (ctx.resolve .null).run.lines.length = 1 ∧
          ctx.uncompiled.resolve .null = ctx.resolve .null ∧
          ∀ line ∈ (ctx.resolve .null).run.lines, ctx.Reports line := by
  have hrun : ((ofDocument quotients).toOption.any fun c =>
      decide (c.mappings.map FieldMapping.expression = [some "1 / 0", some " 1 / 0 "]) &&
        c.mappings.all fun m =>
          m.expression.isSome &&
            decide (((⟨c, m, [], none⟩ : ChainContext).resolve .null).run.lines.length = 1)) =
      true := by
    decide +kernel
  obtain ⟨c, hc, hrun⟩ := any_toOption_iff.mp hrun
  obtain ⟨htexts, hrun⟩ := (Bool.and_eq_true _ _).mp hrun
  obtain ⟨hcompiled, hresolve⟩ := compiled_coherent hc
  refine ⟨c, hc, of_decide_eq_true htexts, fun m hm => ?_⟩
  obtain ⟨hsome, hline⟩ := (Bool.and_eq_true _ _).mp (List.all_eq_true.mp hrun m hm)
  obtain ⟨text, htext⟩ := Option.isSome_iff_exists.mp hsome
  obtain ⟨e, he, -⟩ := hcompiled m hm text htext
  obtain ⟨huncompiled, hlines⟩ := hresolve ⟨c, m, [], none⟩ rfl .null
  refine ⟨⟨e, ?_⟩, of_decide_eq_true hline, huncompiled, (hlines hm).2⟩
  rw [htext]
  exact he

end Contract

end RowContract
