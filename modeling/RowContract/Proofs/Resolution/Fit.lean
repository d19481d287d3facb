import RowContract.Proofs.Contract.DataType
import RowContract.Proofs.Resolution.Chain

/-!
A resolved value fits the type of its column.  No operation makes a moment of anything else, so
that the value at the end of a chain over a text is none; and all other values, defaults among them,
are converted to values of the type.
-/

namespace RowContract

def Value.isDateTime : Value → Bool
  | .dateTime _ => true
  | _ => false

theorem Value.isDateTime_ofJson (j : Json) : (ofJson j).isDateTime = false := by
  unfold ofJson
  repeat' split
  all_goals rfl

theorem Value.isDateTime_getD {x : Option Value} (h : ∀ v, x = some v → v.isDateTime = false) :
    (x.getD .null).isDateTime = false := by
  cases x with
  | none => rfl
  | some v => exact h v rfl

theorem Code.isDateTime_toValue (c : Code) : c.toValue.isDateTime = false := by
  cases c <;> rfl

theorem Expr.Outcome.isDateTime_toValue (o : Outcome) : o.toValue.isDateTime = false := by
  unfold toValue
  repeat' split
  all_goals rfl

theorem Contract.isDateTime_of_enumCode? {c : Contract} {table word : String} {v : Value}
    (h : c.enumCode? table word = some v) : v.isDateTime = false := by
  unfold enumCode? at h
  obtain ⟨codes, -, h⟩ := Option.bind_eq_some_iff.mp h
  obtain ⟨code, -, rfl⟩ := Option.map_eq_some_iff.mp h
  exact code.isDateTime_toValue

theorem Contract.isDateTime_of_codeIgnoringCase? {codes : CodeTable} {word : String} {v : Value}
    (h : codeIgnoringCase? codes word = some v) : v.isDateTime = false := by
  obtain ⟨code, -, rfl⟩ := Option.map_eq_some_iff.mp h
  exact code.isDateTime_toValue

/-- What is converted and there is a value of the type. -/
theorem FieldMapping.holds_of_convert {m : FieldMapping} {v w : Value} (hv : v.isDateTime = false)
    (h : m.convert v = some w) (hw : w.isNull = false) : m.dataType.Holds m.dataLength w := by
  cases hnull : v.isNull with
  | true =>
      rw [convert, DataType.coerce_of_isNull hnull] at h
      obtain rfl := Option.some.inj h
      cases hw
  | false =>
      rcases DataType.holds_of_coerce hnull h with hholds | ⟨t, rfl, -⟩
      · exact hholds
      · cases hv

theorem FieldMapping.holds_of_defaultColumnValue? {m : FieldMapping} {w : Value}
    (h : m.defaultColumnValue? = some w) : m.dataType.Holds m.dataLength w := by
  have hw := isNull_of_defaultColumnValue? h
  unfold defaultColumnValue? at h
  simp only [Option.bind_eq_bind, Option.bind_eq_some_iff] at h
  obtain ⟨j, -, d, hd, h⟩ := h
  split at h
  · cases h
  · obtain rfl := Option.some.inj h
    exact holds_of_convert (Value.isDateTime_ofJson j) hd hw

theorem FieldMapping.holds_of_settled? {m : FieldMapping} {v w : Value} (hv : v.isDateTime = false)
    (h : m.settled? v = some w) : m.dataType.Holds m.dataLength w := by
  have hw := isNull_of_settled? h
  unfold settled? at h
  dsimp only at h
  split at h
  next => exact holds_of_defaultColumnValue? h
  next =>
    obtain rfl := Option.some.inj h
    cases hconvert : m.convert v with
    | none =>
        rw [hconvert] at hw
        cases hw
    | some u =>
        rw [hconvert] at hw
        exact holds_of_convert hv hconvert hw

/-- The value that a field resolves to, of a column or of a row. -/
def Resolved.value? : Resolved → Option Value
  | .column v => some v
  | .row r => some r.value
  | .noRow => none

namespace ChainContext

variable {ctx : ChainContext} {raw v : Value}

theorem isDateTime_convertWord {bit? : String → Option Value}
    (h : ∀ s w, bit? s = some w → w.isDateTime = false) (v : Value) :
    (convertWord bit? v).isDateTime = false := by
  unfold convertWord
  split
  next s _ => exact Value.isDateTime_getD (h s)
  next => rfl

theorem isDateTime_of_evaluate (h : ctx.evaluate = .ok v) : v.isDateTime = false := by
  obtain ⟨e, -, h⟩ := bind_eq_ok h
  obtain ⟨o, -, h⟩ := bind_eq_ok h
  obtain rfl := Except.ok.inj h
  exact o.isDateTime_toValue

/-- No operation makes a moment of another value. -/
theorem isDateTime_given (ctx : ChainContext) (op : Operation) (v : Value)
    (hv : v.isDateTime = false) : (ctx.given op v).isDateTime = false := by
  cases op with
  | enum =>
      rw [given_enum]
      refine Value.isDateTime_getD fun w hw => ?_
      obtain ⟨s, -, hcode⟩ := Option.bind_eq_some_iff.mp hw
      exact Contract.isDateTime_of_enumCode? hcode
  | charToBit =>
      exact isDateTime_convertWord (fun _ _ => Contract.isDateTime_of_codeIgnoringCase?) v
  | booleanToBit =>
      exact isDateTime_convertWord (fun _ _ => Contract.isDateTime_of_codeIgnoringCase?) v
  | extractNumeric =>
      change (extractDigits v).isDateTime = false
      unfold extractDigits
      dsimp only
      repeat' split
      all_goals rfl
  | calculatedField =>
      rw [given_calculatedField]
      refine Value.isDateTime_getD fun w hw => ?_
      cases heval : ctx.evaluate with
      | error e =>
          rw [heval] at hw
          cases hw
      | ok u =>
          rw [heval] at hw
          obtain rfl := Option.some.inj hw
          exact isDateTime_of_evaluate heval
  | lastValidContact role =>
      change (ctx.fromContact role v).isDateTime = false
      unfold fromContact
      repeat' split
      · rfl
      · rfl
      · exact hv
  | _ => exact hv

theorem isDateTime_of_makes (hraw : raw.isDateTime = false) (h : ctx.Makes raw v) :
    v.isDateTime = false := by
  have hentry : (entry raw).isDateTime = false := by
    unfold entry
    split
    · rfl
    · exact hraw
  obtain ⟨calculated, hreach⟩ := h
  exact hreach.preserves (P := fun v => v.isDateTime = false) ctx.isDateTime_given hentry rfl hentry

theorem value?_deliver {m : FieldMapping} {v w : Value} (h : (deliver m v).value? = some w) :
    w = v := by
  unfold deliver at h
  split at h
  · exact (Option.some.inj h).symm
  · split at h
    · cases h
    · exact (Option.some.inj h).symm

/-- Over a raw value that is a text or missing, a field resolves to nothing or to a value of its
type, and its default is such a value too. -/
theorem resolve_fits (ctx : ChainContext) {raw : Value} (hraw : raw = .null ∨ ∃ s, raw = .text s) :
    (∀ r v, (ctx.resolve raw).run.value = .ok r → r.value? = some v →
        v = .null ∨ ctx.mapping.dataType.Holds ctx.mapping.dataLength v) ∧
      ∀ v, ctx.mapping.defaultColumnValue? = some v →
        ctx.mapping.dataType.Holds ctx.mapping.dataLength v := by
  have hkind : raw.isDateTime = false := by
    rcases hraw with rfl | ⟨s, rfl⟩ <;> rfl
  refine ⟨fun r v hr hv => ?_, fun v => FieldMapping.holds_of_defaultColumnValue?⟩
  obtain ⟨u, w, hmakes, hfinish, rfl⟩ := finish_of_resolve hr
  obtain rfl := value?_deliver hv
  rw [finish_value] at hfinish
  cases hsettled : ctx.mapping.settled? u with
  | some x =>
      rw [hsettled] at hfinish
      obtain rfl := Except.ok.inj hfinish
      exact .inr (FieldMapping.holds_of_settled? (isDateTime_of_makes hkind hmakes) hsettled)
  | none =>
      rw [hsettled] at hfinish
      cases hrequired : ctx.mapping.required with
      | true =>
          rw [hrequired] at hfinish
          cases hfinish
      | false =>
          rw [hrequired] at hfinish
          exact .inl (Except.ok.inj hfinish).symm

end ChainContext

def priceRule : FieldMapping where
  sourcePath := "/Orders/Order/@price"
  targetTable := "orders"
  targetColumn := "price"
  dataType := .decimal 9 (some 2)

def priceContext : ChainContext := ⟨{ mappings := [priceRule] }, priceRule, [], none⟩

namespace ChainContext

theorem resolve_fits_price :
    ∃ r v, (priceContext.resolve (.text "$1,012.345")).run.value = .ok r ∧ r.value? = some v ∧
      v.display = "1012.35" ∧ (DataType.decimal 9 (some 2)).Holds none v := by
  have hrun : ((priceContext.resolve (.text "$1,012.345")).run.value.toOption.any fun r =>
      r.value?.map Value.display == some "1012.35") = true := by
    decide +kernel
  obtain ⟨r, hr, hdisplay⟩ := any_toOption_iff.mp hrun
  obtain ⟨v, hv, hdisplay⟩ := Option.map_eq_some_iff.mp (beq_iff_eq.mp hdisplay)
  refine ⟨r, v, hr, hv, hdisplay, ?_⟩
  rcases (resolve_fits priceContext (.inr ⟨_, rfl⟩)).1 r v hr hv with rfl | hfits
  · -- A missing value is shown as a word.
    exact absurd hdisplay (by decide)
  · exact hfits

end ChainContext

end RowContract
