import Mathlib.Data.List.DropRight
import RowContract.Contract.DataType

/-!
The values of a type.  A conversion to a type gives one of its values: integers within the range
of the type, texts and decimals no longer than it says, and moments not before the first year.
Only a moment that is already there is taken as it is.  A type converts each of its values to
itself, so that a second conversion changes nothing.
-/

namespace RowContract

open RowContract.Text

def Calendar.firstMoment : DateTime :=
  ⟨firstYear, 1, 1, 0, 0, 0, 0, by decide, by decide⟩

theorem DateTime.pos_of_date_exists (t : DateTime) : 1 ≤ t.month ∧ 1 ≤ t.day := by
  have h := t.date_exists
  simp only [Calendar.isDate, Bool.and_eq_true, decide_eq_true_eq] at h
  obtain ⟨⟨-, hday⟩, hdays⟩ := h
  refine ⟨Nat.one_le_iff_ne_zero.mpr fun hmonth => ?_, hday⟩
  have hnone : Calendar.daysInMonth t.year 0 = 0 := rfl
  rw [hmonth, hnone] at hdays
  omega

theorem DateTime.isBefore_firstMoment {t : DateTime} (h : Calendar.firstYear ≤ t.year) :
    t.isBefore Calendar.firstMoment = false := by
  obtain ⟨hmonth, hday⟩ := t.pos_of_date_exists
  rw [Bool.eq_false_iff]
  intro hbefore
  simp only [isBefore, parts, Calendar.firstMoment, earlierParts, Bool.or_eq_true,
    Bool.and_eq_true, decide_eq_true_eq, beq_iff_eq, Bool.false_eq_true, and_false,
    or_false] at hbefore
  omega

namespace DataType

/-- A type has the value, with texts bounded by `maxLength` before the length that the type
declares. -/
inductive Holds (maxLength : Option Nat) : DataType → Value → Prop where
  | text {length : Option Nat} {s : String}
      (hlength : ∀ n, maxLength.or length = some n → s.length ≤ n) :
      Holds maxLength (.text length) (.text s)
  | tinyInt {n : Int} (hn : 0 ≤ n ∧ n ≤ 255) : Holds maxLength .tinyInt (.int n)
  | smallInt {n : Int} (hn : -32768 ≤ n ∧ n ≤ 32767) : Holds maxLength .smallInt (.int n)
  | int {n : Int} (hn : -2147483648 ≤ n ∧ n ≤ 2147483647) : Holds maxLength .int (.int n)
  | bigInt {n : Int} (hn : -9223372036854775808 ≤ n ∧ n ≤ 9223372036854775807) :
      Holds maxLength .bigInt (.int n)
  | decimal {precision : Nat} {scale : Option Nat} {d : Decimal}
      (hscale : ∀ s, scale = some s → d.scale ≤ s) :
      Holds maxLength (.decimal precision scale) (.decimal d)
  | dateTime {t : DateTime} (ht : t.isBefore Calendar.firstMoment = false) :
      Holds maxLength .dateTime (.dateTime t)
  | bit {b : Bool} : Holds maxLength .bit (.bit b)

variable {type : DataType} {v w : Value} {maxLength : Option Nat}

theorem Holds.isNull (h : type.Holds maxLength v) : v.isNull = false := by
  cases h <;> rfl

theorem length_cutText_le {limit : Option Nat} {n : Nat} (h : limit = some n) (s : String) :
    (cutText limit s).length ≤ n := by
  subst h
  rw [cutText]
  split
  · have hprefix : dropTrailingBlanks (s.toList.take n) <+: s.toList.take n :=
      List.rdropWhile_prefix isBlank _
    rw [String.length_ofList]
    exact hprefix.length_le.trans (List.length_take_le _ _)
  next hle =>
    rw [← String.length_toList]
    exact Nat.le_of_not_lt hle

theorem isBefore_firstMoment_of_parse? {s : String} {t : DateTime}
    (h : Calendar.parse? s = some t) : t.isBefore Calendar.firstMoment = false := by
  unfold Calendar.parse? at h
  obtain ⟨u, -, hu⟩ := Option.bind_eq_some_iff.mp h
  split at hu
  next hyear =>
    obtain rfl := Option.some.inj hu
    exact DateTime.isBefore_firstMoment hyear
  next => cases hu

theorem coerce_of_isNull (hv : v.isNull = true) : type.coerce v maxLength = some .null := by
  unfold coerce
  rw [if_pos hv]

theorem coerce_of_integerRange? {low high : Int} (hrange : type.integerRange? = some (low, high))
    (hv : v.isNull = false) (h : type.coerce v maxLength = some w) :
    ∃ n, w = .int n ∧ low ≤ n ∧ n ≤ high := by
  have hinteger : type.coerce v maxLength =
      (toInteger? v).bind fun n => if low ≤ n ∧ n ≤ high then some (.int n) else none := by
    cases type <;> cases hrange <;> simp only [coerce, hv] <;> rfl
  rw [hinteger] at h
  obtain ⟨n, -, hn⟩ := Option.bind_eq_some_iff.mp h
  split at hn
  next hwithin =>
    obtain rfl := Option.some.inj hn
    exact ⟨n, rfl, hwithin⟩
  next => cases hn

/-- A value that is there is converted to a value of the type, unless it is a moment that a type of
moments takes as it is. -/
theorem holds_of_coerce (hv : v.isNull = false) (h : type.coerce v maxLength = some w) :
    type.Holds maxLength w ∨ ∃ t, v = .dateTime t ∧ w = .dateTime t := by
  cases type with
  | text length =>
      rw [coerce, hv, if_neg Bool.false_ne_true] at h
      obtain rfl := Option.some.inj h
      exact .inl (.text fun n hn => length_cutText_le hn _)
  | decimal precision scale =>
      rw [coerce, hv, if_neg Bool.false_ne_true] at h
      obtain ⟨d, -, rfl⟩ := Option.map_eq_some_iff.mp h
      cases scale with
      | none => exact .inl (.decimal fun s hs => nomatch hs)
      | some s =>
          refine .inl (.decimal fun s' hs => ?_)
          obtain rfl := Option.some.inj hs
          exact Decimal.scale_round_le d s
  | dateTime =>
      cases v with
      | dateTime t => exact .inr ⟨t, rfl, (Option.some.inj h).symm⟩
      | text s =>
          obtain ⟨t, ht, rfl⟩ := Option.map_eq_some_iff.mp h
          exact .inl (.dateTime (isBefore_firstMoment_of_parse? ht))
      | null => cases hv
      | _ => cases h
  | bit =>
      rw [coerce, hv, if_neg Bool.false_ne_true] at h
      obtain ⟨b, -, rfl⟩ := Option.map_eq_some_iff.mp h
      exact .inl .bit
  | tinyInt =>
      obtain ⟨n, rfl, hn⟩ := coerce_of_integerRange? rfl hv h
      exact .inl (.tinyInt hn)
  | smallInt =>
      obtain ⟨n, rfl, hn⟩ := coerce_of_integerRange? rfl hv h
      exact .inl (.smallInt hn)
  | int =>
      obtain ⟨n, rfl, hn⟩ := coerce_of_integerRange? rfl hv h
      exact .inl (.int hn)
  | bigInt =>
      obtain ⟨n, rfl, hn⟩ := coerce_of_integerRange? rfl hv h
      exact .inl (.bigInt hn)

/-- A value that is there is converted to one that is there. -/
theorem isNull_of_coerce (hv : v.isNull = false) (h : type.coerce v maxLength = some w) :
    w.isNull = false := by
  rcases holds_of_coerce hv h with hholds | ⟨t, -, rfl⟩
  · exact hholds.isNull
  · rfl

/-! ### A second conversion -/

theorem cutText_of_length_le {limit : Option Nat} {s : String}
    (h : ∀ n, limit = some n → s.length ≤ n) : cutText limit s = s := by
  cases limit with
  | none => rfl
  | some n =>
      have hle : s.toList.length ≤ n := String.length_toList ▸ h n rfl
      rw [cutText, if_neg (Nat.not_lt_of_le hle)]

/-- A type converts its values to themselves: texts and decimals are short enough already, and
integers within the range. -/
theorem coerce_of_holds (h : type.Holds maxLength v) : type.coerce v maxLength = some v := by
  cases h with
  | text hlength => exact congrArg (some ∘ Value.text) (cutText_of_length_le hlength)
  | tinyInt hn => exact if_pos hn
  | smallInt hn => exact if_pos hn
  | int hn => exact if_pos hn
  | bigInt hn => exact if_pos hn
  | @decimal _ scale d hscale =>
      cases scale with
      | none => rfl
      | some s => exact congrArg (some ∘ Value.decimal) (Decimal.round_of_scale_le (hscale s rfl))
  | dateTime => rfl
  | bit => rfl

/-- What a type gives for a value it converts to itself, with a text as it is and a decimal in its
places. -/
theorem coerce_coerce (h : type.coerce v maxLength = some w) :
    type.coerce w maxLength = some w := by
  cases hv : v.isNull with
  | true =>
      rw [coerce_of_isNull hv] at h
      obtain rfl := Option.some.inj h
      exact coerce_of_isNull rfl
  | false =>
      rcases holds_of_coerce hv h with hholds | ⟨t, rfl, rfl⟩
      · exact coerce_of_holds hholds
      · exact h

/-- An overdraft in cents at most, with a half cent to be rounded. -/
theorem coerce_coerce_overdraft :
    ∃ w, (DataType.decimal 9 (some 2)).coerce (.text "-$1,012.345") none = some w ∧
      w.display = "-1012.35" ∧ (DataType.decimal 9 (some 2)).coerce w none = some w := by
  have hrun : (DataType.decimal 9 (some 2)).coerce (.text "-$1,012.345") none =
      some (.decimal ⟨true, 101235, 2, by decide, by decide⟩) := by decide +kernel
  exact ⟨_, hrun, by decide +kernel, coerce_coerce hrun⟩

end DataType

end RowContract
