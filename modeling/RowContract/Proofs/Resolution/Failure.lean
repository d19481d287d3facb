import RowContract.Proofs.Contract.DataType
import RowContract.Proofs.Resolution.Chain

/-!
When a field cannot be resolved.  Only a required field can fail, and only where no default
stands in: for its expression, if the chain comes to a calculation that fails, and else for the
value that is missing at the end of the chain or that its type cannot hold.  Where it does not
fail, that the field is required makes no difference.
-/

namespace RowContract

/-- Nothing is left for the column if there is no default, and the value is missing or cannot be
converted. -/
theorem FieldMapping.settled?_eq_none_iff {m : FieldMapping} {v : Value} :
    m.settled? v = none ↔ m.defaultColumnValue? = none ∧ (v = .null ∨ m.convert v = none) := by
  have hnull : ((m.convert v).getD .null).isNull = true ↔ v = .null ∨ m.convert v = none := by
    cases hv : v.isNull with
    | true =>
        obtain rfl := Value.isNull_iff.mp hv
        exact iff_of_true rfl (.inl rfl)
    | false =>
        have hne : v ≠ .null := Value.isNull_eq_false_iff.mp hv
        cases hconvert : m.convert v with
        | none => exact iff_of_true rfl (.inr rfl)
        | some w => simp [hne, DataType.isNull_of_coerce hv hconvert]
  unfold settled?
  dsimp only
  split
  next h => rw [and_iff_left (hnull.mp h)]
  next h => exact iff_of_false nofun fun hnone => h (hnull.mpr hnone.2)

namespace ChainContext

variable {ctx : ChainContext} {raw v : Value} {err : TransformError} {r : Resolved}

/-! ### Failures -/

/-- The chain comes to a calculation, and its expression fails although the column has to have a
value and no default is given. -/
def CalculationFails (ctx : ChainContext) (raw : Value) (e : ExpressionError) : Prop :=
  ctx.mapping.required = true ∧ ctx.mapping.defaultValue = none ∧ ctx.Calculates raw ∧
    ctx.evaluate = .error e

theorem calculationFails_iff {e : ExpressionError} :
    ctx.CalculationFails raw e ↔
      ∃ p, ctx.Reaches (entry raw) (ctx.start raw) p ∧ ctx.FailsAt e p := by
  constructor
  · rintro ⟨hrequired, hdefault, ⟨p, hreach, hcalculates⟩, hfails⟩
    exact ⟨p, hreach, hcalculates, hfails, hrequired, hdefault⟩
  · rintro ⟨p, hreach, hcalculates, hfails, hrequired, hdefault⟩
    exact ⟨hrequired, hdefault, ⟨p, hreach, hcalculates⟩, hfails⟩

/-- A chain fails for its expression only. -/
theorem restValue_start_eq_error_iff :
    ctx.restValue (entry raw) (ctx.start raw) = .error err ↔
      ∃ e, err = .expression e ∧ ctx.CalculationFails raw e := by
  rw [restValue_eq_error_iff]
  constructor
  · rintro ⟨p, e, hreach, hfails, rfl⟩
    exact ⟨e, rfl, calculationFails_iff.mpr ⟨p, hreach, hfails⟩⟩
  · rintro ⟨e, rfl, hfails⟩
    obtain ⟨p, hreach, hp⟩ := calculationFails_iff.mp hfails
    exact ⟨p, e, hreach, hp, rfl⟩

theorem restValue_start_eq_ok_iff :
    ctx.restValue (entry raw) (ctx.start raw) = .ok v ↔
      (∀ e, ¬ctx.CalculationFails raw e) ∧ ctx.Makes raw v := by
  rw [restValue_eq_ok_iff]
  refine and_congr_left' ?_
  simp only [calculationFails_iff, not_exists, not_and]
  exact forall_comm

theorem finish_eq_error_iff :
    (ctx.finish v).run.value = .error err ↔
      err = .requiredField ctx.mapping.targetTable ctx.mapping.targetColumn
          (sourceLabel ctx.mapping) ∧
        ctx.mapping.required = true ∧ ctx.mapping.settled? v = none := by
  rw [finish_value]
  cases ctx.mapping.settled? v with
  | some w => simp
  | none =>
      cases ctx.mapping.required with
      | true => simp [eq_comm]
      | false => simp

/-- A resolution fails in its chain, or else at the end of it. -/
theorem resolve_eq_error_iff :
    (ctx.resolve raw).run.value = .error err ↔
      (∃ e, err = .expression e ∧ ctx.CalculationFails raw e) ∨
        ∃ v, ((∀ e, ¬ctx.CalculationFails raw e) ∧ ctx.Makes raw v) ∧
          (ctx.finish v).run.value = .error err := by
  simp only [← restValue_start_eq_error_iff, ← restValue_start_eq_ok_iff]
  rw [resolve_value]
  cases ctx.restValue (entry raw) (ctx.start raw) with
  | error e => simp [bind, Except.bind]
  | ok v =>
      cases hfinish : (ctx.finish v).run.value with
      | error e => simp [bind, Except.bind, hfinish]
      | ok w => simp [bind, Except.bind, hfinish]

theorem resolve_eq_expression_iff {e : ExpressionError} :
    (ctx.resolve raw).run.value = .error (.expression e) ↔ ctx.CalculationFails raw e := by
  simp [resolve_eq_error_iff, finish_eq_error_iff]

theorem resolve_eq_requiredField_iff {table column path : String} :
    (ctx.resolve raw).run.value = .error (.requiredField table column path) ↔
      (table = ctx.mapping.targetTable ∧ column = ctx.mapping.targetColumn ∧
          path = sourceLabel ctx.mapping) ∧
        (∀ e, ¬ctx.CalculationFails raw e) ∧
        ctx.mapping.required = true ∧ ctx.mapping.defaultColumnValue? = none ∧
        ∃ v, ctx.Makes raw v ∧ (v = .null ∨ ctx.mapping.convert v = none) := by
  rw [resolve_eq_error_iff]
  simp only [finish_eq_error_iff, FieldMapping.settled?_eq_none_iff,
    TransformError.requiredField.injEq]
  constructor
  · rintro (⟨e, he, -⟩ | ⟨v, ⟨hnone, hv⟩, hnames, hrequired, hdefault, hleft⟩)
    · cases he
    · exact ⟨hnames, hnone, hrequired, hdefault, v, hv, hleft⟩
  · rintro ⟨hnames, hnone, hrequired, hdefault, v, hv, hleft⟩
    exact .inr ⟨v, ⟨hnone, hv⟩, hnames, hrequired, hdefault, hleft⟩

theorem required_of_resolve_eq_error (h : (ctx.resolve raw).run.value = .error err) :
    ctx.mapping.required = true ∧ ctx.mapping.defaultColumnValue? = none := by
  rcases resolve_eq_error_iff.mp h with ⟨e, -, hfails⟩ | ⟨v, -, hfinish⟩
  · refine ⟨hfails.1, ?_⟩
    rw [FieldMapping.defaultColumnValue?, hfails.2.1]
    rfl
  · obtain ⟨-, hrequired, hnone⟩ := finish_eq_error_iff.mp hfinish
    exact ⟨hrequired, (FieldMapping.settled?_eq_none_iff.mp hnone).1⟩

/-! ### Required fields -/

/-- A required column ends with a value. -/
theorem isNull_of_finish {w : Value} (hrequired : ctx.mapping.required = true)
    (h : (ctx.finish v).run.value = .ok w) : w.isNull = false := by
  rw [finish_value, hrequired, if_pos rfl] at h
  cases hsettled : ctx.mapping.settled? v with
  | some u =>
      rw [hsettled] at h
      obtain rfl := Except.ok.inj h
      exact FieldMapping.isNull_of_settled? hsettled
  | none =>
      rw [hsettled] at h
      cases h

/-- A required field resolves to no missing column and to no missing row. -/
theorem resolved_of_required (hrequired : ctx.mapping.required = true)
    (h : (ctx.resolve raw).run.value = .ok r) : r ≠ .column .null ∧ r ≠ .noRow := by
  obtain ⟨v, w, -, hfinish, rfl⟩ := finish_of_resolve h
  have hnull := isNull_of_finish hrequired hfinish
  unfold deliver
  cases ctx.mapping.rowOperation?.bind Operation.row? with
  | none =>
      refine ⟨fun hcolumn => ?_, nofun⟩
      obtain rfl := Resolved.column.inj hcolumn
      cases hnull
  | some row =>
      simp only [hnull]
      exact ⟨nofun, nofun⟩

def optional (ctx : ChainContext) : ChainContext :=
  { ctx with mapping := { ctx.mapping with required := false } }

theorem optional_of_required_eq_false (h : ctx.mapping.required = false) : ctx.optional = ctx := by
  unfold optional
  rw [← h]

theorem applyOperation_optional {op : Operation} {w : Value}
    (h : (ctx.applyOperation op v).run.value = .ok w) :
    ctx.optional.applyOperation op v = ctx.applyOperation op v := by
  cases op with
  | calculatedField =>
      change ctx.optional.calculate = ctx.calculate
      change ctx.calculate.run.value = .ok w at h
      have heval : ctx.optional.evaluate = ctx.evaluate := rfl
      cases hcase : ctx.evaluate with
      | ok u => rw [calculate_of_ok hcase, calculate_of_ok (heval.trans hcase)]
      | error e =>
          have hmay : ¬ctx.MayNotFail := fun hstrict => by
            rw [calculate_of_mayNotFail hcase hstrict] at h
            cases h
          simp only [calculate, heval, hcase, if_neg (mt mayNotFail_iff.mp hmay)]
          rfl
  | _ => rfl

theorem applyChain_optional {ops : List Operation} {calculated : Bool} {w : Value}
    (h : (ctx.applyChain raw calculated ops v).run.value = .ok w) :
    ctx.optional.applyChain raw calculated ops v = ctx.applyChain raw calculated ops v := by
  have hrest : ctx.restValue raw ⟨ops, v, calculated⟩ = .ok w := h
  obtain ⟨hfails, -⟩ := restValue_eq_ok_iff.mp hrest
  refine applyChain_congr fun hreach => ?_
  exact applyOperation_optional (applyOperation_value_of_not_failsAt fun e => hfails _ e hreach)

theorem finish_optional {w : Value} (hrequired : ctx.mapping.required = true)
    (h : (ctx.finish v).run.value = .ok w) : ctx.optional.finish v = ctx.finish v := by
  rw [finish, Transform.value_bind] at h
  obtain ⟨u, hu, h⟩ := bind_eq_ok h
  rw [finish, finish]
  refine Transform.bind_congr hu ?_
  split at h
  next hthere => rw [if_pos hthere, if_pos hthere]
  next hnull =>
    rw [if_neg hnull, if_neg hnull]
    have hdefault : ctx.optional.mapping.defaultColumnValue? = ctx.mapping.defaultColumnValue? :=
      rfl
    rw [hdefault]
    cases hd : ctx.mapping.defaultColumnValue? with
    | some d => rfl
    | none =>
        rw [hd] at h
        cases h

/-- Where a resolution succeeds it is the same, log lines included, with a rule that is not
required. -/
theorem resolve_optional (h : (ctx.resolve raw).run.value = .ok r) :
    ctx.optional.resolve raw = ctx.resolve raw := by
  cases hrequired : ctx.mapping.required with
  | false => rw [optional_of_required_eq_false hrequired]
  | true =>
      rw [resolve, Transform.value_bind] at h
      obtain ⟨v, hv, h⟩ := bind_eq_ok h
      rw [Transform.value_bind] at h
      obtain ⟨w, hw, -⟩ := bind_eq_ok h
      have hchain : ctx.optional.applyChain (entry raw) false ctx.mapping.chain (entry raw) =
          ctx.applyChain (entry raw) false ctx.mapping.chain (entry raw) := applyChain_optional hv
      have hfinish : ctx.optional.finish v = ctx.finish v := finish_optional hrequired hw
      rw [resolve, resolve]
      change ctx.optional.applyChain (entry raw) false ctx.mapping.chain (entry raw) >>= _ = _
      rw [hchain]
      refine Transform.bind_congr hv ?_
      rw [hfinish]
      rfl

/-- When a field resolves and when it does not.  Only a required field without a default that its
column can take fails: for its expression where the chain comes to a calculation, it fails, and no
default is given at all; and otherwise for a missing value where the value of the chain is missing
or cannot be converted.  A required field that resolves has a value, and resolves in the same way if
it is not required. -/
theorem resolve_fails_iff (ctx : ChainContext) (raw : Value) :
    (∃! v, ctx.Makes raw v) ∧
      (∀ err, (ctx.resolve raw).run.value = .error err →
        ctx.mapping.required = true ∧ ctx.mapping.defaultColumnValue? = none) ∧
      (∀ e, (ctx.resolve raw).run.value = .error (.expression e) ↔
        ctx.mapping.required = true ∧ ctx.mapping.defaultValue = none ∧ ctx.Calculates raw ∧
          ctx.evaluate = .error e) ∧
      (∀ table column path,
        (ctx.resolve raw).run.value = .error (.requiredField table column path) ↔
          (table = ctx.mapping.targetTable ∧ column = ctx.mapping.targetColumn ∧
              path = sourceLabel ctx.mapping) ∧
            (∀ e, (ctx.resolve raw).run.value ≠ .error (.expression e)) ∧
            ctx.mapping.required = true ∧ ctx.mapping.defaultColumnValue? = none ∧
            ∃ v, ctx.Makes raw v ∧ (v = .null ∨ ctx.mapping.convert v = none)) ∧
      (ctx.mapping.required = true → ∀ r, (ctx.resolve raw).run.value = .ok r →
        r ≠ .column .null ∧ r ≠ .noRow) ∧
      ∀ r, (ctx.resolve raw).run.value = .ok r → ctx.optional.resolve raw = ctx.resolve raw := by
  refine ⟨?_, fun _ => required_of_resolve_eq_error, fun _ => resolve_eq_expression_iff, ?_,
    fun hrequired _ => resolved_of_required hrequired, fun _ => resolve_optional⟩
  · obtain ⟨v, hv⟩ := ctx.exists_endsWith (entry raw) (ctx.start raw)
    exact ⟨v, hv, fun _ hw => hw.unique hv⟩
  · intro table column path
    simp only [ne_eq, resolve_eq_expression_iff]
    exact resolve_eq_requiredField_iff

end ChainContext

end RowContract
