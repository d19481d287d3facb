import RowContract.Proofs.Resolution.Failure

/-!
A chain read link by link.  A calculation and the lookup right after it make one link, any other
operation is a link by itself.  The links apply from left to right, and the first that gives
nothing ends the chain.  The pair gives the value of the calculation, or else what the lookup makes
of the raw value, whatever came before it.  The loop that carries a value and a mark from operation
to operation comes to the same.
-/

namespace RowContract

inductive ChainLink where
  /-- A calculation and the lookup right after it. -/
  | codedCalculation
  | single (op : Operation)

def links : List Operation → List ChainLink
  | [] => []
  | .calculatedField :: .enum :: rest => .codedCalculation :: links rest
  | op :: rest => .single op :: links rest

namespace ChainContext

variable {ctx : ChainContext} {raw v : Value} {op : Operation}

/-- What a calculation gives.  One that fails gives nothing, unless the column has to have a value
and no default is given. -/
def calculated (ctx : ChainContext) : Except TransformError Value :=
  match ctx.evaluate with
  | .ok v => .ok v
  | .error e =>
    if ctx.mapping.required && ctx.mapping.defaultValue.isNone then .error (.expression e)
    else .ok .null

def contribution (ctx : ChainContext) (raw : Value) :
    ChainLink → Value → Except TransformError Value
  | .codedCalculation, _ =>
    ctx.calculated.map fun v => if v.isNull then ctx.given .enum raw else v
  | .single .calculatedField, _ => ctx.calculated
  | .single op, v => .ok (ctx.given op v)

/-- The value of links from left to right; one that gives nothing is the last. -/
def reading (ctx : ChainContext) (raw : Value) :
    List ChainLink → Value → Except TransformError Value
  | [], v => .ok v
  | link :: rest, v => do
    let w ← ctx.contribution raw link v
    if w.isNull then .ok .null else ctx.reading raw rest w

/-! ### The loop and the reading -/

theorem links_cons {rest : List Operation} (h : feedsLookUp op rest = false) :
    links (op :: rest) = .single op :: links rest := by
  rw [links]
  rintro rest' rfl rfl
  cases h

theorem calculate_value (ctx : ChainContext) : ctx.calculate.run.value = ctx.calculated := by
  unfold calculate calculated
  cases ctx.evaluate with
  | ok v => rfl
  | error e => dsimp only; split <;> rfl

theorem applyOperation_eq_contribution (ctx : ChainContext) (raw : Value) (op : Operation)
    (v : Value) : (ctx.applyOperation op v).run.value = ctx.contribution raw (.single op) v := by
  by_cases hop : op = .calculatedField
  · subst hop
    exact ctx.calculate_value
  · rw [applyOperation_value hop, contribution]
    exact hop

theorem restValue_single {rest : List Operation} (h : feedsLookUp op rest = false) :
    ctx.restValue raw ⟨op :: rest, v, false⟩ =
      ctx.contribution raw (.single op) v >>= fun w =>
        if w.isNull then .ok .null else ctx.restValue raw ⟨rest, w, false⟩ := by
  rw [restValue_cons (by simp), applyOperation_eq_contribution ctx raw, h]
  rfl

/-- The mark is set and taken back within the link. -/
theorem restValue_codedCalculation (rest : List Operation) :
    ctx.restValue raw ⟨.calculatedField :: .enum :: rest, v, false⟩ =
      ctx.contribution raw .codedCalculation v >>= fun w =>
        if w.isNull then .ok .null else ctx.restValue raw ⟨rest, w, false⟩ := by
  have hlookUp : ctx.restValue raw ⟨.enum :: rest, raw, false⟩ =
      if (ctx.given .enum raw).isNull then .ok .null
      else ctx.restValue raw ⟨rest, ctx.given .enum raw, false⟩ := restValue_single rfl
  have hpass : ∀ w, ctx.restValue raw ⟨.enum :: rest, w, true⟩ =
      ctx.restValue raw ⟨rest, w, false⟩ := fun _ => rfl
  rw [restValue_cons (by simp), applyOperation, calculate_value, contribution]
  cases ctx.calculated with
  | error e => rfl
  | ok w =>
      rw [ok_bind, Except.map, ok_bind]
      cases hnull : w.isNull with
      | true => exact hlookUp
      | false =>
          rw [if_neg Bool.false_ne_true, if_neg Bool.false_ne_true, hnull]
          exact hpass w

/-- The value of a chain is that of its links. -/
theorem restValue_eq_reading (ctx : ChainContext) (raw : Value) (ops : List Operation)
    (v : Value) : ctx.restValue raw ⟨ops, v, false⟩ = ctx.reading raw (links ops) v := by
  induction ops using links.induct generalizing v with
  | case1 => rfl
  | case2 rest ih =>
      rw [restValue_codedCalculation, links, reading]
      simp only [ih]
  | case3 op rest hpair ih =>
      have hfeeds : feedsLookUp op rest = false := by
        unfold feedsLookUp
        rw [Bool.and_eq_false_iff, beq_eq_false_iff_ne, beq_eq_false_iff_ne]
        by_cases hop : op = .calculatedField
        · right
          intro hhead
          obtain ⟨rest', rfl⟩ := List.head?_eq_some_iff.mp hhead
          exact hpair rest' hop rfl
        · exact .inl hop
      rw [restValue_single hfeeds, links_cons hfeeds, reading]
      simp only [ih]

/-! ### After the last link

Where nothing is left of a value, the operations that come after make no difference, not even for
what is logged. -/

theorem feedsLookUp_append {rest : List Operation} (h : rest ≠ [] ∨ op ≠ .calculatedField)
    (later : List Operation) : feedsLookUp op (rest ++ later) = feedsLookUp op rest := by
  unfold feedsLookUp
  cases rest with
  | nil =>
      have hop : op ≠ .calculatedField := h.resolve_left fun h => h rfl
      rw [beq_eq_false_iff_ne.mpr hop, Bool.false_and, Bool.false_and]
  | cons next rest => rfl

/-- A calculation at the end would have to look at what comes next. -/
theorem applyChain_append {ops : List Operation} (hne : ops ≠ [])
    (hlast : ops.getLast? ≠ some .calculatedField) {marked : Bool}
    (hmarked : marked = true → v ≠ .null)
    (h : (ctx.applyChain raw marked ops v).run.value = .ok .null) (later : List Operation) :
    ctx.applyChain raw marked (ops ++ later) v = ctx.applyChain raw marked ops v := by
  induction ops generalizing marked v with
  | nil => exact absurd rfl hne
  | cons op rest ih =>
      have hfeeds : feedsLookUp op (rest ++ later) = feedsLookUp op rest := by
        refine feedsLookUp_append ?_ later
        by_contra hnone
        rw [not_or, not_not, not_not] at hnone
        obtain ⟨rfl, rfl⟩ := hnone
        exact hlast rfl
      have hlast' (hrest : rest ≠ []) : rest.getLast? ≠ some .calculatedField := by
        rwa [List.getLast?_cons_of_ne_nil hrest] at hlast
      -- A value that is there is lost only to an operation.
      have hrest {marked : Bool} {w : Value} (hw : w ≠ .null)
          (h : (ctx.applyChain raw marked rest w).run.value = .ok .null) : rest ≠ [] := by
        rintro rfl
        exact hw (Except.ok.inj h)
      rw [List.cons_append, applyChain, applyChain]
      rw [applyChain] at h
      split at h
      next hskip =>
        have hv := hmarked (Bool.and_eq_true_iff.mp hskip).1
        rw [if_pos hskip, if_pos hskip]
        exact ih (hrest hv h) (hlast' (hrest hv h)) (absurd · Bool.false_ne_true) h
      next hskip =>
        rw [if_neg hskip, if_neg hskip]
        rw [Transform.value_bind] at h
        obtain ⟨w, hw, h⟩ := bind_eq_ok h
        refine Transform.bind_congr hw ?_
        change (if w.isNull = true then if feedsLookUp op (rest ++ later) = true then _ else _
          else ctx.applyChain raw (feedsLookUp op (rest ++ later)) (rest ++ later) w) =
          if w.isNull = true then if feedsLookUp op rest = true then _ else _
          else ctx.applyChain raw (feedsLookUp op rest) rest w
        change (if w.isNull = true then if feedsLookUp op rest = true then
            ctx.applyChain raw false rest raw else pure w
          else ctx.applyChain raw (feedsLookUp op rest) rest w).run.value = _ at h
        rw [hfeeds]
        cases hnull : w.isNull with
        | false =>
            rw [hnull] at h
            have hw := Value.isNull_eq_false_iff.mp hnull
            exact ih (hrest hw h) (hlast' (hrest hw h)) (fun _ => hw) h
        | true =>
            rw [hnull] at h
            cases hlookUp : feedsLookUp op rest with
            | false => rfl
            | true =>
                rw [hlookUp] at h
                have hne : rest ≠ [] := by
                  rintro rfl
                  rw [feedsLookUp, List.head?_nil, Bool.and_eq_true] at hlookUp
                  exact absurd hlookUp.2 (by decide)
                exact ih hne (hlast' hne) (absurd · Bool.false_ne_true) h

/-! ### Another chain -/

def withChain (ctx : ChainContext) (ops : List Operation) : ChainContext :=
  { ctx with mapping := { ctx.mapping with chain := ops } }

section
variable {ops : List Operation}
  (hrow : (ctx.withChain ops).mapping.rowOperation? = ctx.mapping.rowOperation?)
include hrow

theorem label_withChain : (ctx.withChain ops).mapping.label = ctx.mapping.label := by
  unfold FieldMapping.label
  rw [hrow]
  rfl

theorem evaluate_withChain : (ctx.withChain ops).evaluate = ctx.evaluate := by
  unfold evaluate expression
  rw [label_withChain hrow]
  rfl

theorem applyOperation_withChain (op : Operation) (v : Value) :
    (ctx.withChain ops).applyOperation op v = ctx.applyOperation op v := by
  cases op with
  | enum =>
      change (ctx.withChain ops).lookUp v = ctx.lookUp v
      unfold lookUp
      dsimp only
      rw [label_withChain hrow]
      rfl
  | calculatedField =>
      change (ctx.withChain ops).calculate = ctx.calculate
      unfold calculate
      dsimp only
      rw [label_withChain hrow, evaluate_withChain hrow]
      rfl
  | _ => rfl

theorem applyChain_withChain (raw : Value) (marked : Bool) (chain : List Operation) (v : Value) :
    (ctx.withChain ops).applyChain raw marked chain v = ctx.applyChain raw marked chain v :=
  applyChain_congr fun _ => applyOperation_withChain hrow _ _

theorem finish_withChain (v : Value) : (ctx.withChain ops).finish v = ctx.finish v := by
  unfold finish convert
  dsimp only
  rw [label_withChain hrow]
  rfl

theorem deliver_withChain (v : Value) :
    deliver (ctx.withChain ops).mapping v = deliver ctx.mapping v := by
  unfold deliver
  rw [hrow]
  rfl

end

/-- An operation that gives nothing, and is no calculation, is the last that counts. -/
theorem resolve_withChain {before after after' : List Operation}
    (hchain : ctx.mapping.chain = before ++ op :: after) (hop : op ≠ .calculatedField)
    (hnull : ctx.reading (entry raw) (links (before ++ [op])) (entry raw) = .ok .null)
    (hrow : (ctx.withChain (before ++ op :: after')).mapping.rowOperation? =
      ctx.mapping.rowOperation?) :
    (ctx.withChain (before ++ op :: after')).resolve raw = ctx.resolve raw := by
  have hlast : (before ++ [op]).getLast? ≠ some .calculatedField := by
    rw [List.getLast?_concat]
    exact fun h => hop (Option.some.inj h)
  have hend (later : List Operation) :
      ctx.applyChain (entry raw) false (before ++ op :: later) (entry raw) =
        ctx.applyChain (entry raw) false (before ++ [op]) (entry raw) := by
    have hvalue : (ctx.applyChain (entry raw) false (before ++ [op]) (entry raw)).run.value =
        .ok .null := (restValue_eq_reading ctx _ _ _).trans hnull
    have happend := applyChain_append (by simp) hlast (by simp) hvalue later
    rwa [List.append_assoc] at happend
  have hsame : (ctx.withChain (before ++ op :: after')).applyChain (entry raw) false
      (before ++ op :: after') (entry raw) =
        ctx.applyChain (entry raw) false ctx.mapping.chain (entry raw) := by
    rw [applyChain_withChain hrow, hchain, hend after', hend after]
  unfold resolve
  dsimp only
  change ((ctx.withChain (before ++ op :: after')).applyChain (entry raw) false
    (before ++ op :: after') (entry raw) >>= _) =
      ctx.applyChain (entry raw) false ctx.mapping.chain (entry raw) >>= _
  rw [hsame]
  simp only [finish_withChain hrow, deliver_withChain hrow]

/-- The value of a rule's chain is that of its links, read from left to right from the raw value,
and the rule finishes it.  Once an operation that is no calculation gives nothing, any others may
come after it that append the same row: the field resolves, or fails, and is reported in the same
way. -/
theorem resolve_reads_links (ctx : ChainContext) (raw : Value) :
    (ctx.applyChain (entry raw) false ctx.mapping.chain (entry raw)).run.value =
        ctx.reading (entry raw) (links ctx.mapping.chain) (entry raw) ∧
      (ctx.resolve raw).run.value =
        (ctx.reading (entry raw) (links ctx.mapping.chain) (entry raw) >>= fun v =>
          (ctx.finish v).run.value >>= fun w => .ok (deliver ctx.mapping w)) ∧
      ∀ before op after after', ctx.mapping.chain = before ++ op :: after →
        op ≠ .calculatedField →
        ctx.reading (entry raw) (links (before ++ [op])) (entry raw) = .ok .null →
        (ctx.withChain (before ++ op :: after')).mapping.rowOperation? =
          ctx.mapping.rowOperation? →
        (ctx.withChain (before ++ op :: after')).resolve raw = ctx.resolve raw := by
  have hreading := restValue_eq_reading ctx (entry raw) ctx.mapping.chain (entry raw)
  refine ⟨hreading, ?_, fun _ _ _ _ => resolve_withChain⟩
  rw [resolve_value, start, hreading]

end ChainContext

def gradeRule : FieldMapping where
  sourcePath := "/Pupils/Pupil/@grade"
  targetTable := "pupils"
  targetColumn := "grade"
  chain := [.extractNumeric, .enum]
  expression := some "1 + 1"

def gradeContext : ChainContext := ⟨{ mappings := [gradeRule] }, gradeRule, [], none⟩

namespace ChainContext

/-- A grade without a digit comes to nothing, also if a calculation would come next. -/
theorem resolve_reads_links_grade :
    gradeContext.reading (entry (.text "none")) (links [.extractNumeric])
        (entry (.text "none")) = .ok .null ∧
      (gradeContext.withChain [.extractNumeric, .calculatedField, .enum]).resolve (.text "none") =
        gradeContext.resolve (.text "none") := by
  have hnull : gradeContext.reading (entry (.text "none")) (links [.extractNumeric])
      (entry (.text "none")) = .ok .null := rfl
  refine ⟨hnull, ?_⟩
  exact (resolve_reads_links gradeContext (.text "none")).2.2 [] .extractNumeric [.enum]
    [.calculatedField, .enum] rfl (by decide) hnull rfl

end ChainContext

end RowContract
