import Mathlib.Data.List.Basic
import Mathlib.Data.List.Induction
import RowContract.Text.Blank
import RowContract.Text.Digits

/-!
The digits that a number is written with are read as that number, also in a fixed width, and digits
that are read are written again without the zeros in front of them.
-/

namespace RowContract.Text

theorem isDigit_iff {c : Char} : isDigit c = true ↔ c.isDigit = true := by
  simp only [isDigit, Char.isDigit, Bool.and_eq_true, decide_eq_true_eq]
  exact Iff.rfl

theorem toNat_of_isDigit {c : Char} (h : isDigit c = true) : 0x30 ≤ c.toNat ∧ c.toNat ≤ 0x39 := by
  simp only [isDigit, Bool.and_eq_true, decide_eq_true_eq] at h
  exact h

theorem isBlank_of_isDigit {c : Char} (h : isDigit c = true) : isBlank c = false := by
  have hrange := toNat_of_isDigit h
  simp only [isBlank, Bool.or_eq_false_iff, Bool.and_eq_false_iff, decide_eq_false_iff_not,
    beq_eq_false_iff_ne]
  omega

theorem digits_eq_toDigits (n : Nat) : digits n = Nat.toDigits 10 n := by
  rw [digits, Nat.toString_eq_ofList_toDigits, String.toList_ofList]

theorem isDigit_of_mem_digits {n : Nat} {c : Char} (h : c ∈ digits n) : isDigit c = true := by
  rw [digits_eq_toDigits] at h
  exact isDigit_iff.mpr (Nat.isDigit_of_mem_toDigits (by decide) (by decide) h)

theorem digits_ne_nil (n : Nat) : digits n ≠ [] := by
  rw [digits_eq_toDigits]
  exact Nat.toDigits_ne_nil

theorem digitsValue_eq_ofDigitChars {cs : List Char} (h : ∀ c ∈ cs, isDigit c = true) :
    digitsValue cs = Nat.ofDigitChars 10 cs 0 := by
  unfold digitsValue
  generalize 0 = start
  induction cs generalizing start with
  | nil => rfl
  | cons c rest ih =>
      obtain ⟨hc, hrest⟩ := List.forall_mem_cons.mp h
      have hvalue : digitValue? c = some (c.toNat - '0'.toNat) := if_pos hc
      rw [List.foldl_cons, hvalue, Nat.ofDigitChars_cons]
      exact ih hrest _

theorem natural?_digits (n : Nat) : natural? (digits n) = some n := by
  have hall : (digits n).all isDigit = true :=
    List.all_eq_true.mpr fun _ => isDigit_of_mem_digits
  rw [natural?, if_pos ⟨digits_ne_nil n, hall⟩,
    digitsValue_eq_ofDigitChars fun _ => isDigit_of_mem_digits, digits_eq_toDigits,
    Nat.ofDigitChars_ten_toDigits]

theorem unsigned?_digits {bound n : Nat} (h : n ≤ bound) :
    unsigned? bound (digits n) = some n := by
  have hnatural := natural?_digits n
  obtain ⟨c, rest, heq⟩ := List.exists_cons_of_ne_nil (digits_ne_nil n)
  have hplus : c ≠ '+' := by
    rintro rfl
    have hdigit : isDigit '+' = true := isDigit_of_mem_digits (heq ▸ List.mem_cons_self)
    exact absurd hdigit (by decide)
  unfold unsigned?
  rw [heq] at hnatural ⊢
  split
  · next hcs => exact absurd (List.cons.inj hcs).1 hplus
  · rw [hnatural]
    exact if_pos h

theorem le_of_unsigned? {bound n : Nat} {cs : List Char} (h : unsigned? bound cs = some n) :
    n ≤ bound := by
  obtain ⟨k, -, hk⟩ := Option.bind_eq_some_iff.mp h
  split at hk
  · next hle =>
      obtain rfl := Option.some.inj hk
      exact hle
  · cases hk

/-! ### Texts of digits -/

section
variable {ds : List Char}

theorem natural?_of_isDigit (h : ∀ c ∈ ds, isDigit c = true) (hsome : ds ≠ []) :
    natural? ds = some (digitsValue ds) :=
  if_pos ⟨hsome, List.all_eq_true.mpr h⟩

/-- Digits are a signed number if the number that they make fits. -/
theorem signed?_of_isDigit (h : ∀ c ∈ ds, isDigit c = true) (hsome : ds ≠ []) :
    signed? ds = if fitsSigned (digitsValue ds) then some (digitsValue ds : Int) else none := by
  have hsign {c : Char} {rest : List Char} (heq : ds = c :: rest) : isDigit c = true :=
    h c (heq ▸ List.mem_cons_self)
  have hbind : signed? ds =
      (natural? ds).bind fun n => if fitsSigned n then some (n : Int) else none := by
    unfold signed?
    split
    · exact absurd (hsign rfl) (by decide)
    · exact absurd (hsign rfl) (by decide)
    · cases natural? ds <;> rfl
  rw [hbind, natural?_of_isDigit h hsome, Option.bind_some]

end

/-! ### Zeros in front -/

/-- The digits of a number without the zeros in front of them; of zeros only, one is left. -/
def significant (ds : List Char) : List Char :=
  match ds.dropWhile (fun c => c == '0') with
  | [] => ['0']
  | rest => rest

variable {ds : List Char}

theorem significant_cons_zero (ds : List Char) : significant ('0' :: ds) = significant ds := rfl

theorem significant_cons_of_ne {c : Char} (h : c ≠ '0') (rest : List Char) :
    significant (c :: rest) = c :: rest := by
  rw [significant, List.dropWhile_cons_of_neg (by simpa using h)]

theorem digitsValue_cons_zero (ds : List Char) : digitsValue ('0' :: ds) = digitsValue ds := rfl

theorem digit_lt_ten {c : Char} (h : isDigit c = true) : c.toNat - '0'.toNat < 10 := by
  have hhigh := (toNat_of_isDigit h).2
  have hzero : '0'.toNat = 0x30 := rfl
  omega

theorem digits_of_isDigit {c : Char} (h : isDigit c = true) :
    digits (c.toNat - '0'.toNat) = [c] := by
  have hlow := (toNat_of_isDigit h).1
  have hzero : '0'.toNat = 0x30 := rfl
  have hchar : (c.toNat - '0'.toNat).digitChar = c := by
    rw [← Char.toNat_inj, Nat.toNat_digitChar_of_lt_ten (digit_lt_ten h)]
    omega
  rw [digits_eq_toDigits, Nat.toDigits_of_lt_base (digit_lt_ten h), hchar]

theorem digitsValue_nil : digitsValue [] = 0 := rfl

theorem digitsValue_concat {c : Char} (h : ∀ a ∈ ds ++ [c], isDigit a = true) :
    digitsValue (ds ++ [c]) = 10 * digitsValue ds + (c.toNat - '0'.toNat) := by
  rw [digitsValue_eq_ofDigitChars h,
    digitsValue_eq_ofDigitChars fun a ha => h a (List.mem_append_left _ ha),
    Nat.ofDigitChars_append, Nat.ofDigitChars_cons, Nat.ofDigitChars_nil]

theorem digits_digitsValue_of_head (hdigits : ∀ c ∈ ds, isDigit c = true) (hsome : ds ≠ [])
    (hhead : ds.head? ≠ some '0') : digits (digitsValue ds) = ds := by
  induction ds using List.reverseRecOn with
  | nil => exact absurd rfl hsome
  | append_singleton init c ih =>
      obtain ⟨hinitial, hlast⟩ := List.forall_mem_append.mp hdigits
      have hc : isDigit c = true := hlast c List.mem_cons_self
      rw [digitsValue_concat hdigits]
      by_cases hne : init = []
      · subst hne
        rw [digitsValue_nil, Nat.mul_zero, Nat.zero_add, digits_of_isDigit hc, List.nil_append]
      · rw [List.head?_append_of_ne_nil _ hne] at hhead
        have hinit := ih hinitial hne hhead
        have hpos : 0 < digitsValue init := by
          refine Nat.pos_of_ne_zero fun hzero => hhead ?_
          rw [← hinit, hzero]
          rfl
        have hsingle := digits_of_isDigit hc
        rw [digits_eq_toDigits] at hinit hsingle ⊢
        rw [← Nat.toDigits_append_toDigits (by decide) hpos (digit_lt_ten hc), hinit, hsingle]

/-- The number that digits make is written without the zeros in front of them. -/
theorem digits_digitsValue (h : ∀ c ∈ ds, isDigit c = true) :
    digits (digitsValue ds) = significant ds := by
  induction ds with
  | nil => rfl
  | cons c rest ih =>
      obtain ⟨hc, hrest⟩ := List.forall_mem_cons.mp h
      by_cases hzero : c = '0'
      · subst hzero
        rw [digitsValue_cons_zero, significant_cons_zero]
        exact ih hrest
      · rw [significant_cons_of_ne hzero]
        exact digits_digitsValue_of_head h (List.cons_ne_nil c rest) (by simpa using hzero)

theorem length_significant_le (h : ds ≠ []) : (significant ds).length ≤ ds.length := by
  have hsome : 0 < ds.length := List.length_pos_iff.mpr h
  have hdrop := (List.dropWhile_suffix (l := ds) fun c => c == '0').length_le
  unfold significant
  split
  · exact hsome
  · exact hdrop

/-- Nothing is lost of a single digit, and of digits that do not begin with a zero. -/
theorem significant_eq_self_iff (h : ds ≠ []) :
    significant ds = ds ↔ ds.length = 1 ∨ ds.head? ≠ some '0' := by
  obtain ⟨c, rest, rfl⟩ := List.exists_cons_of_ne_nil h
  by_cases hzero : c = '0'
  · subst hzero
    by_cases hrest : rest = []
    · subst hrest
      exact iff_of_true rfl (.inl rfl)
    · have hle := length_significant_le hrest
      have hpos : 0 < rest.length := List.length_pos_iff.mpr hrest
      refine iff_of_false (fun heq => ?_) (by simp [hrest])
      rw [significant_cons_zero] at heq
      rw [heq, List.length_cons] at hle
      omega
  · exact iff_of_true (significant_cons_of_ne hzero rest) (.inr (by simpa using hzero))

/-! ### Numbers of a fixed width -/

variable {width n : Nat}

theorem isDigit_of_mem_padded {c : Char} (h : c ∈ padded width n) : isDigit c = true := by
  rcases List.mem_append.mp h with hzero | hdigit
  · rw [List.eq_of_mem_replicate hzero]
    decide
  · exact isDigit_of_mem_digits hdigit

theorem length_padded (hwidth : 0 < width) (h : n < Nat.pow 10 width) :
    (padded width n).length = width := by
  have hle : (digits n).length ≤ width := by
    rw [digits_eq_toDigits]
    exact (Nat.length_toDigits_le_iff (by decide) hwidth).mpr h
  rw [padded, List.length_append, List.length_replicate, Nat.sub_add_cancel hle]

theorem digitsValue_padded (width n : Nat) : digitsValue (padded width n) = n := by
  rw [digitsValue_eq_ofDigitChars fun _ => isDigit_of_mem_padded, padded,
    Nat.ofDigitChars_append, Nat.ofDigitChars_replicate_zero, Nat.mul_zero, digits_eq_toDigits,
    Nat.ofDigitChars_ten_toDigits]

theorem padded_ne_nil (width n : Nat) : padded width n ≠ [] :=
  List.append_ne_nil_of_right_ne_nil _ (digits_ne_nil n)

end RowContract.Text
