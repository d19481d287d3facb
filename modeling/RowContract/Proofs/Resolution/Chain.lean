import Mathlib.Logic.Relation
import RowContract.Proofs.Outcome
import RowContract.Resolution

/-!
A chain of operations as steps from point to point.  A point tells which operations are
ahead and what has come of the raw value so far; a step applies one operation, passes over
one, or ends the chain.  Every point short of the end has exactly one step, and the steps lead
to an end.  The value of a chain is the one at its end, and the chain fails where the steps come
to a calculation that fails and may not.
-/

namespace RowContract

theorem Transform.value_bind {α β : Type} (x : Transform α) (f : α → Transform β) :
    (x >>= f).run.value = x.run.value >>= fun a => (f a).run.value := by
  rw [ExceptT.run_bind, Logged.value_bind]
  cases x.run.value <;> rfl

/-- Two continuations of a step agree if they do on the value of the step. -/
theorem Transform.bind_congr {α β : Type} {x : Transform α} {f g : α → Transform β} {a : α}
    (hx : x.run.value = .ok a) (h : f a = g a) : x >>= f = x >>= g := by
  obtain ⟨value, lines⟩ := x
  obtain rfl : value = .ok a := hx
  exact congrArg (fun y : Transform β => (⟨y.run.value, lines ++ y.run.lines⟩ : Logged _)) h

theorem Transform.bind_congr_of_ok {α β : Type} {x : Transform α} {f g : α → Transform β}
    (h : ∀ a, x.run.value = .ok a → f a = g a) : x >>= f = x >>= g := by
  cases hx : x.run.value with
  | ok a => exact bind_congr hx (h a hx)
  | error e =>
      obtain ⟨value, lines⟩ := x
      obtain rfl : value = .error e := hx
      rfl

theorem Value.isNull_iff {v : Value} : v.isNull = true ↔ v = .null := by
  cases v <;> simp [isNull]

theorem Value.isNull_eq_false_iff {v : Value} : v.isNull = false ↔ v ≠ .null := by
  cases v <;> simp [isNull]

structure ChainPoint where
  /-- The operations that are not applied yet. -/
  ahead : List Operation
  value : Value
  /-- A calculation just before the lookup that is next has given the value. -/
  calculated : Bool

namespace ChainContext

/-! ### Single operations -/

/-- What an operation makes of a value; a calculation that fails makes nothing of it. -/
def given (ctx : ChainContext) (op : Operation) (v : Value) : Value :=
  (ctx.applyOperation op v).run.value.toOption.getD .null

/-- The column has to have a value, and nothing stands in for one. -/
def MayNotFail (ctx : ChainContext) : Prop :=
  ctx.mapping.required = true ∧ ctx.mapping.defaultValue = none

variable {ctx : ChainContext} {raw v : Value} {op : Operation}

theorem lookUp_value (ctx : ChainContext) (v : Value) :
    (ctx.lookUp v).run.value =
      .ok ((v.text?.bind fun s =>
        ctx.contract.enumCode? ctx.mapping.codeTable (Text.trim s)).getD .null) := by
  unfold lookUp
  cases v.text? with
  | none => rfl
  | some s =>
      dsimp only [Option.bind_some]
      cases ctx.contract.enumCode? ctx.mapping.codeTable (Text.trim s) with
      | some code => rfl
      | none => dsimp only; split <;> rfl

theorem applyOperation_value (h : op ≠ .calculatedField) (v : Value) :
    (ctx.applyOperation op v).run.value = .ok (ctx.given op v) := by
  have hok : ∃ w, (ctx.applyOperation op v).run.value = .ok w := by
    cases op with
    | enum => exact ⟨_, ctx.lookUp_value v⟩
    | calculatedField => exact absurd rfl h
    | _ => exact ⟨_, rfl⟩
  obtain ⟨w, hw⟩ := hok
  rw [given, hw]
  rfl

theorem calculate_of_ok {w : Value} (h : ctx.evaluate = .ok w) : ctx.calculate = pure w := by
  rw [calculate, h]

theorem calculate_of_mayNotFail {e : ExpressionError} (h : ctx.evaluate = .error e)
    (hstrict : ctx.MayNotFail) : ctx.calculate.run.value = .error (.expression e) := by
  obtain ⟨hrequired, hdefault⟩ := hstrict
  simp only [calculate, h, hrequired, hdefault]
  rfl

theorem mayNotFail_iff :
    (ctx.mapping.required && ctx.mapping.defaultValue.isNone) = true ↔ ctx.MayNotFail := by
  rw [Bool.and_eq_true, Option.isNone_iff_eq_none, MayNotFail]

theorem calculate_of_mayFail {e : ExpressionError} (h : ctx.evaluate = .error e)
    (hstrict : ¬ctx.MayNotFail) : ctx.calculate.run.value = .ok .null := by
  simp only [calculate, h, if_neg (mt mayNotFail_iff.mp hstrict)]
  rfl

theorem given_enum (ctx : ChainContext) (v : Value) :
    ctx.given .enum v =
      (v.text?.bind fun s =>
        ctx.contract.enumCode? ctx.mapping.codeTable (Text.trim s)).getD .null := by
  change (ctx.lookUp v).run.value.toOption.getD .null = _
  rw [lookUp_value]
  rfl

/-- A calculation gives the value of the expression, or nothing where the expression fails. -/
theorem given_calculatedField (ctx : ChainContext) (v : Value) :
    ctx.given .calculatedField v = ctx.evaluate.toOption.getD .null := by
  change ctx.calculate.run.value.toOption.getD .null = _
  cases heval : ctx.evaluate with
  | ok w => rw [calculate_of_ok heval]; rfl
  | error e =>
      by_cases hstrict : ctx.MayNotFail
      · rw [calculate_of_mayNotFail heval hstrict]; rfl
      · rw [calculate_of_mayFail heval hstrict]; rfl

/-! ### Steps -/

def feedsLookUp (op : Operation) (rest : List Operation) : Bool :=
  op == .calculatedField && rest.head? == some .enum

inductive Step (ctx : ChainContext) (raw : Value) : ChainPoint → ChainPoint → Prop where
  /-- A lookup is passed over after a calculation that gave a value. -/
  | pass {rest : List Operation} {v : Value} :
      Step ctx raw ⟨.enum :: rest, v, true⟩ ⟨rest, v, false⟩
  /-- What an operation gives goes on to the next one. -/
  | apply {op : Operation} {rest : List Operation} {v : Value} {calculated : Bool}
      (hop : ¬(calculated = true ∧ op = .enum)) (hgiven : (ctx.given op v).isNull = false) :
      Step ctx raw ⟨op :: rest, v, calculated⟩ ⟨rest, ctx.given op v, feedsLookUp op rest⟩
  /-- A calculation that gives nothing hands the raw value on to the lookup after it. -/
  | handOn {op : Operation} {rest : List Operation} {v : Value} {calculated : Bool}
      (hfeeds : feedsLookUp op rest = true) (hgiven : (ctx.given op v).isNull = true) :
      Step ctx raw ⟨op :: rest, v, calculated⟩ ⟨rest, raw, false⟩
  /-- Any other operation that gives nothing ends the chain. -/
  | stop {op : Operation} {rest : List Operation} {v : Value} {calculated : Bool}
      (hop : ¬(calculated = true ∧ op = .enum)) (hfeeds : feedsLookUp op rest = false)
      (hgiven : (ctx.given op v).isNull = true) :
      Step ctx raw ⟨op :: rest, v, calculated⟩ ⟨[], .null, false⟩

def Reaches (ctx : ChainContext) (raw : Value) : ChainPoint → ChainPoint → Prop :=
  Relation.ReflTransGen (ctx.Step raw)

/-- A calculation comes next, and its expression fails although it may not. -/
structure FailsAt (ctx : ChainContext) (e : ExpressionError) (p : ChainPoint) : Prop where
  calculates : p.ahead.head? = some .calculatedField
  fails : ctx.evaluate = .error e
  mayNotFail : ctx.MayNotFail

def restValue (ctx : ChainContext) (raw : Value) (p : ChainPoint) : Except TransformError Value :=
  (ctx.applyChain raw p.calculated p.ahead p.value).run.value

theorem eq_calculatedField_of_feedsLookUp {rest : List Operation}
    (h : feedsLookUp op rest = true) : op = .calculatedField := by
  unfold feedsLookUp at h
  rw [Bool.and_eq_true, beq_iff_eq] at h
  exact h.1

theorem not_skipped {calculated : Bool} (hop : ¬(calculated = true ∧ op = .enum)) :
    (calculated && op == .enum) = false := by
  rw [Bool.eq_false_iff]
  intro htrue
  rw [Bool.and_eq_true, beq_iff_eq] at htrue
  exact hop htrue

theorem restValue_cons {rest : List Operation} {calculated : Bool}
    (hop : ¬(calculated = true ∧ op = .enum)) :
    ctx.restValue raw ⟨op :: rest, v, calculated⟩ =
      (ctx.applyOperation op v).run.value >>= fun w =>
        if w.isNull then
          if feedsLookUp op rest then ctx.restValue raw ⟨rest, raw, false⟩ else .ok .null
        else ctx.restValue raw ⟨rest, w, feedsLookUp op rest⟩ := by
  rw [restValue, applyChain, not_skipped hop, if_neg Bool.false_ne_true, Transform.value_bind]
  refine congrArg _ (funext fun w => ?_)
  change (if w.isNull = true then
    if feedsLookUp op rest = true then ctx.applyChain raw false rest raw else pure w
    else ctx.applyChain raw (feedsLookUp op rest) rest w : Transform Value).run.value = _
  cases hnull : w.isNull with
  | false => rfl
  | true =>
      obtain rfl := Value.isNull_iff.mp hnull
      cases feedsLookUp op rest <;> rfl

theorem restValue_of_failsAt {e : ExpressionError} {p : ChainPoint} (h : ctx.FailsAt e p) :
    ctx.restValue raw p = .error (.expression e) := by
  obtain ⟨ahead, v, calculated⟩ := p
  cases ahead with
  | nil => cases h.calculates
  | cons op rest =>
      obtain rfl : op = .calculatedField := Option.some.inj h.calculates
      rw [restValue_cons (by simp), applyOperation, calculate_of_mayNotFail h.fails h.mayNotFail]
      rfl

/-- Where no calculation fails that may not, an operation gives what it gives. -/
theorem applyOperation_value_of_not_failsAt {rest : List Operation} {calculated : Bool}
    (h : ∀ e, ¬ctx.FailsAt e ⟨op :: rest, v, calculated⟩) :
    (ctx.applyOperation op v).run.value = .ok (ctx.given op v) := by
  by_cases hop : op = .calculatedField
  · subst hop
    rw [given_calculatedField]
    change ctx.calculate.run.value = _
    cases heval : ctx.evaluate with
    | ok w => rw [calculate_of_ok heval]; rfl
    | error e =>
        have hstrict : ¬ctx.MayNotFail := fun hstrict => h e ⟨rfl, heval, hstrict⟩
        rw [calculate_of_mayFail heval hstrict]
        rfl
  · exact applyOperation_value hop v

/-- A step leaves the value of the chain as it is, unless it is over a calculation that fails. -/
theorem Step.restValue_eq {p q : ChainPoint} (h : ctx.Step raw p q)
    (hfails : ∀ e, ¬ctx.FailsAt e p) : ctx.restValue raw p = ctx.restValue raw q := by
  cases h with
  | pass => rfl
  | apply hop hgiven =>
      rw [restValue_cons hop, applyOperation_value_of_not_failsAt hfails, ok_bind, hgiven]
      rfl
  | handOn hfeeds hgiven =>
      obtain rfl := eq_calculatedField_of_feedsLookUp hfeeds
      rw [restValue_cons (by simp), applyOperation_value_of_not_failsAt hfails, ok_bind,
        if_pos hgiven, if_pos hfeeds]
  | stop hop hfeeds hgiven =>
      rw [restValue_cons hop, applyOperation_value_of_not_failsAt hfails, ok_bind,
        if_pos hgiven, hfeeds]
      rfl

theorem Step.shortens {p q : ChainPoint} (h : ctx.Step raw p q) :
    q.ahead.length < p.ahead.length := by
  cases h <;> simp

/-- A chain that is not at its end goes on. -/
theorem exists_step (ctx : ChainContext) (raw : Value) {p : ChainPoint} (h : p.ahead ≠ []) :
    ∃ q, ctx.Step raw p q := by
  obtain ⟨ahead, v, calculated⟩ := p
  cases ahead with
  | nil => exact absurd rfl h
  | cons op rest =>
      by_cases hop : calculated = true ∧ op = .enum
      · obtain ⟨rfl, rfl⟩ := hop
        exact ⟨_, .pass⟩
      · cases hgiven : (ctx.given op v).isNull with
        | false => exact ⟨_, .apply hop hgiven⟩
        | true =>
            cases hfeeds : feedsLookUp op rest with
            | true => exact ⟨_, .handOn hfeeds hgiven⟩
            | false => exact ⟨_, .stop hop hfeeds hgiven⟩

/-- A chain has one way to go. -/
theorem Step.unique {p q q' : ChainPoint} (h : ctx.Step raw p q) (h' : ctx.Step raw p q') :
    q = q' := by
  cases h <;> cases h' <;> simp_all [feedsLookUp]

/-! ### Runs -/

theorem Reaches.restValue_eq {p q : ChainPoint} (h : ctx.Reaches raw p q)
    (hfails : ∀ r e, ctx.Reaches raw p r → ¬ctx.FailsAt e r) :
    ctx.restValue raw p = ctx.restValue raw q := by
  induction h using Relation.ReflTransGen.head_induction_on with
  | refl => rfl
  | head hstep _ ih =>
      rw [hstep.restValue_eq fun e => hfails _ e .refl]
      exact ih fun r e hr => hfails r e (.head hstep hr)

/-- A chain fails if its steps come to a calculation that fails. -/
theorem Reaches.restValue_of_failsAt {p q : ChainPoint} {e : ExpressionError}
    (h : ctx.Reaches raw p q) (hfails : ctx.FailsAt e q) :
    ctx.restValue raw p = .error (.expression e) := by
  induction h using Relation.ReflTransGen.head_induction_on with
  | refl => exact ChainContext.restValue_of_failsAt hfails
  | @head p p' hstep _ ih =>
      by_cases hp : ∃ e', ctx.FailsAt e' p
      · obtain ⟨e', hp⟩ := hp
        obtain rfl : e = e' := Except.error.inj (hfails.fails.symm.trans hp.fails)
        exact ChainContext.restValue_of_failsAt hp
      · rw [hstep.restValue_eq (not_exists.mp hp), ih]

/-- What all operations keep of a value is kept along a chain. -/
theorem Reaches.preserves {P : Value → Prop} (hgiven : ∀ op v, P v → P (ctx.given op v))
    (hraw : P raw) (hnull : P .null) {p q : ChainPoint} (h : ctx.Reaches raw p q)
    (hp : P p.value) : P q.value := by
  induction h with
  | refl => exact hp
  | tail _ hstep ih =>
      cases hstep with
      | pass => exact ih
      | apply => exact hgiven _ _ ih
      | handOn => exact hraw
      | stop => exact hnull

theorem Step.ahead_suffix {p q : ChainPoint} (h : ctx.Step raw p q) : q.ahead <:+ p.ahead := by
  cases h with
  | stop => exact List.nil_suffix
  | _ => exact List.suffix_cons _ _

theorem Reaches.ahead_suffix {p q : ChainPoint} (h : ctx.Reaches raw p q) :
    q.ahead <:+ p.ahead := by
  induction h with
  | refl => exact List.suffix_rfl
  | tail _ hstep ih => exact hstep.ahead_suffix.trans ih

/-- In another context a chain gives the same, and writes the same lines, if each operation that it
comes to does. -/
theorem applyChain_congr {ctx' : ChainContext} {ops : List Operation} {calculated : Bool}
    (h : ∀ {op rest w marked}, ctx.Reaches raw ⟨ops, v, calculated⟩ ⟨op :: rest, w, marked⟩ →
      ctx'.applyOperation op w = ctx.applyOperation op w) :
    ctx'.applyChain raw calculated ops v = ctx.applyChain raw calculated ops v := by
  induction ops generalizing calculated v with
  | nil => rfl
  | cons op rest ih =>
      have hrest {w : Value} {marked : Bool}
          (hstep : ctx.Step raw ⟨op :: rest, v, calculated⟩ ⟨rest, w, marked⟩) :
          ctx'.applyChain raw marked rest w = ctx.applyChain raw marked rest w :=
        ih fun hreach => h (.head hstep hreach)
      rw [applyChain, applyChain, h .refl]
      by_cases hop : calculated = true ∧ op = .enum
      · obtain ⟨rfl, rfl⟩ := hop
        have hskip : (true && Operation.enum == Operation.enum) = true := rfl
        rw [if_pos hskip, if_pos hskip]
        exact hrest .pass
      · rw [not_skipped hop, if_neg Bool.false_ne_true, if_neg Bool.false_ne_true]
        refine Transform.bind_congr_of_ok fun w hw => ?_
        obtain rfl : ctx.given op v = w := by
          rw [given, hw]
          rfl
        dsimp only
        rw [← feedsLookUp]
        cases hnull : (ctx.given op v).isNull with
        | false =>
            rw [if_neg Bool.false_ne_true, if_neg Bool.false_ne_true]
            exact hrest (.apply hop hnull)
        | true =>
            rw [if_pos rfl, if_pos rfl]
            cases hfeeds : feedsLookUp op rest with
            | true => rw [if_pos rfl, if_pos rfl, hrest (.handOn hfeeds hnull)]
            | false => rw [if_neg Bool.false_ne_true, if_neg Bool.false_ne_true]

def EndsWith (ctx : ChainContext) (raw : Value) (p : ChainPoint) (v : Value) : Prop :=
  ∃ calculated, ctx.Reaches raw p ⟨[], v, calculated⟩

theorem exists_endsWith (ctx : ChainContext) (raw : Value) (p : ChainPoint) :
    ∃ v, ctx.EndsWith raw p v := by
  -- Every step leaves fewer operations ahead.
  induction hn : p.ahead.length using Nat.strongRecOn generalizing p with
  | ind n ih =>
      by_cases hend : p.ahead = []
      · obtain ⟨ahead, v, calculated⟩ := p
        obtain rfl : ahead = [] := hend
        exact ⟨v, calculated, .refl⟩
      · obtain ⟨q, hstep⟩ := ctx.exists_step raw hend
        obtain ⟨v, calculated, hreach⟩ := ih _ (hn ▸ hstep.shortens) q rfl
        exact ⟨v, calculated, .head hstep hreach⟩

theorem not_step_of_end {w : Value} {calculated : Bool} {q : ChainPoint} :
    ¬ctx.Step raw ⟨[], w, calculated⟩ q := by
  intro h
  cases h

theorem EndsWith.unique {p : ChainPoint} {w : Value} (hv : ctx.EndsWith raw p v)
    (hw : ctx.EndsWith raw p w) : v = w := by
  obtain ⟨c, hv⟩ := hv
  obtain ⟨c', hw⟩ := hw
  have hend {a b : Value} {c c' : Bool} (h : ctx.Reaches raw ⟨[], a, c⟩ ⟨[], b, c'⟩) :
      a = b := by
    rcases h.cases_head with heq | ⟨q, hstep, -⟩
    · exact congrArg ChainPoint.value heq
    · exact absurd hstep not_step_of_end
  have hunique : Relator.RightUnique (ctx.Step raw) := fun _ _ _ => Step.unique
  rcases Relation.ReflTransGen.total_of_right_unique hunique hv hw with h | h
  · exact hend h
  · exact (hend h).symm

/-- What a chain comes to: its value at the end, unless it comes to a calculation that fails. -/
theorem restValue_eq_ok_iff {p : ChainPoint} :
    ctx.restValue raw p = .ok v ↔
      (∀ q e, ctx.Reaches raw p q → ¬ctx.FailsAt e q) ∧ ctx.EndsWith raw p v := by
  have hvalue {w : Value} (hnone : ∀ q e, ctx.Reaches raw p q → ¬ctx.FailsAt e q)
      (hw : ctx.EndsWith raw p w) : ctx.restValue raw p = .ok w := by
    obtain ⟨calculated, hreach⟩ := hw
    exact hreach.restValue_eq hnone
  constructor
  · intro h
    have hnone : ∀ q e, ctx.Reaches raw p q → ¬ctx.FailsAt e q := by
      intro q e hreach hfails
      rw [hreach.restValue_of_failsAt hfails] at h
      cases h
    obtain ⟨w, hw⟩ := ctx.exists_endsWith raw p
    obtain rfl : v = w := Except.ok.inj (h.symm.trans (hvalue hnone hw))
    exact ⟨hnone, hw⟩
  · rintro ⟨hnone, hv⟩
    exact hvalue hnone hv

theorem restValue_eq_error_iff {p : ChainPoint} {err : TransformError} :
    ctx.restValue raw p = .error err ↔
      ∃ q e, ctx.Reaches raw p q ∧ ctx.FailsAt e q ∧ err = .expression e := by
  constructor
  · intro h
    by_cases hsome : ∃ q e, ctx.Reaches raw p q ∧ ctx.FailsAt e q
    · obtain ⟨q, e, hreach, hfails⟩ := hsome
      rw [hreach.restValue_of_failsAt hfails] at h
      exact ⟨q, e, hreach, hfails, (Except.error.inj h).symm⟩
    · obtain ⟨v, hv⟩ := ctx.exists_endsWith raw p
      have hok := restValue_eq_ok_iff.mpr ⟨fun q e hq hfails => hsome ⟨q, e, hq, hfails⟩, hv⟩
      rw [hok] at h
      cases h
  · rintro ⟨q, e, hreach, hfails, rfl⟩
    exact hreach.restValue_of_failsAt hfails

/-! ### The result -/

def entry (raw : Value) : Value := if raw.isBlank then .null else raw

def start (ctx : ChainContext) (raw : Value) : ChainPoint := ⟨ctx.mapping.chain, entry raw, false⟩

/-- A rule resolves alike in another context if each operation that its chain comes to does alike
there. -/
theorem resolve_congr {ctx' : ChainContext} (hmapping : ctx'.mapping = ctx.mapping)
    (h : ∀ {op rest v marked}, ctx.Reaches (entry raw) (ctx.start raw) ⟨op :: rest, v, marked⟩ →
      ctx'.applyOperation op v = ctx.applyOperation op v) :
    ctx'.resolve raw = ctx.resolve raw := by
  have hchain := applyChain_congr h
  have hfinish : ctx'.finish = ctx.finish := by
    funext v
    rw [finish, finish, hmapping]
  rw [resolve, resolve, hmapping, hfinish]
  exact congrArg (fun x : Transform Value => x >>= _) hchain

def Makes (ctx : ChainContext) (raw v : Value) : Prop :=
  ctx.EndsWith (entry raw) (ctx.start raw) v

def Calculates (ctx : ChainContext) (raw : Value) : Prop :=
  ∃ p, ctx.Reaches (entry raw) (ctx.start raw) p ∧ p.ahead.head? = some .calculatedField

theorem convert_value (m : FieldMapping) (v : Value) :
    (convert m v).value = (m.convert v).getD .null := by
  unfold convert
  cases m.convert v <;> rfl

end ChainContext

/-- The value that a rule puts in its column: what can be converted and is there, else the
default. -/
def FieldMapping.settled? (m : FieldMapping) (v : Value) : Option Value :=
  let w := (m.convert v).getD .null
  if w.isNull then m.defaultColumnValue? else some w

theorem FieldMapping.isNull_of_defaultColumnValue? {m : FieldMapping} {w : Value}
    (h : m.defaultColumnValue? = some w) : w.isNull = false := by
  unfold defaultColumnValue? at h
  simp only [Option.bind_eq_bind, Option.bind_eq_some_iff] at h
  obtain ⟨_, -, d, -, hd⟩ := h
  cases hnull : d.isNull with
  | true =>
      rw [hnull] at hd
      cases hd
  | false =>
      rw [hnull] at hd
      obtain rfl := Option.some.inj hd
      exact hnull

theorem FieldMapping.isNull_of_settled? {m : FieldMapping} {v w : Value}
    (h : m.settled? v = some w) : w.isNull = false := by
  rw [settled?] at h
  split at h
  next => exact isNull_of_defaultColumnValue? h
  next hnull =>
    obtain rfl := Option.some.inj h
    exact Bool.eq_false_iff.mpr hnull

namespace ChainContext

variable {ctx : ChainContext} {raw : Value} {r : Resolved}

theorem finish_value (ctx : ChainContext) (v : Value) :
    (ctx.finish v).run.value =
      match ctx.mapping.settled? v with
      | some w => .ok w
      | none =>
        if ctx.mapping.required then
          .error (.requiredField ctx.mapping.targetTable ctx.mapping.targetColumn
            (sourceLabel ctx.mapping))
        else .ok .null := by
  have hlift : (liftM (convert ctx.mapping v) : Transform Value).run.value =
      .ok ((ctx.mapping.convert v).getD .null) := by
    rw [← convert_value]
    rfl
  rw [finish, Transform.value_bind, hlift, ok_bind, FieldMapping.settled?]
  cases hnull : ((ctx.mapping.convert v).getD .null).isNull with
  | false => simp only [Bool.not_false, if_true]; rfl
  | true =>
      simp only [Bool.not_true, Bool.false_eq_true, if_false]
      cases ctx.mapping.defaultColumnValue? with
      | some d => rfl
      | none => cases ctx.mapping.required <;> rfl

theorem resolve_value (ctx : ChainContext) (raw : Value) :
    (ctx.resolve raw).run.value =
      ctx.restValue (entry raw) (ctx.start raw) >>= fun v =>
        (ctx.finish v).run.value >>= fun w => .ok (deliver ctx.mapping w) := by
  unfold resolve
  simp only [Transform.value_bind]
  rfl

/-- A resolution that succeeds gives what the rule makes of the value at the end of its chain. -/
theorem finish_of_resolve (h : (ctx.resolve raw).run.value = .ok r) :
    ∃ v w, ctx.Makes raw v ∧ (ctx.finish v).run.value = .ok w ∧ deliver ctx.mapping w = r := by
  rw [resolve_value] at h
  obtain ⟨v, hv, h⟩ := bind_eq_ok h
  obtain ⟨w, hw, h⟩ := bind_eq_ok h
  exact ⟨v, w, (restValue_eq_ok_iff.mp hv).2, hw, Except.ok.inj h⟩

end ChainContext

end RowContract
