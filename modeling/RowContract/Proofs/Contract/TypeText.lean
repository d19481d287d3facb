import Mathlib.Data.Bool.AllAny
import RowContract.Contract.DataType
import RowContract.Proofs.Outcome
import RowContract.Proofs.Text.Digits
import RowContract.Proofs.Text.Trim

/-!
Data types are read back as they are written.  A type that is read has sizes of 32 bits, and a
decimal without a scale has the usual precision; every such type is the one that its own text names.
-/

namespace RowContract.DataType

open RowContract.Text

/-- A type that some text names: its sizes are within bounds, and a precision is written with a
scale only. -/
def WellFormed : DataType → Prop
  | .text (some n) => n ≤ maxHalfWord
  | .decimal precision (some scale) => precision ≤ maxHalfWord ∧ scale ≤ maxHalfWord
  | .decimal precision none => precision = 18
  | _ => True

/-! ### Sizes between parentheses -/

theorem isScriptDigit_of_isDigit {c : Char} (h : isDigit c = true) : isScriptDigit c = true := by
  have hrange := toNat_of_isDigit h
  refine List.any_eq_true.mpr ⟨0x30, List.mem_cons_self, ?_⟩
  simp only [Bool.and_eq_true, decide_eq_true_eq]
  omega

theorem isScriptDigit_of_mem_digits {n : Nat} {c : Char} (h : c ∈ digits n) :
    isScriptDigit c = true :=
  isScriptDigit_of_isDigit (isDigit_of_mem_digits h)

theorem dropBlanks_digits_append (n : Nat) (rest : List Char) :
    dropBlanks (digits n ++ rest) = digits n ++ rest := by
  refine dropBlanks_of_head fun c hc => ?_
  rw [List.head?_append_of_ne_nil _ (digits_ne_nil n)] at hc
  exact isBlank_of_isDigit (isDigit_of_mem_digits (List.mem_of_head? hc))

theorem takeSize_digits_append (n : Nat) (rest : List Char) {stop : Char}
    (hstop : isScriptDigit stop = false) :
    takeSize (digits n ++ stop :: rest) = some (digits n, stop :: rest) := by
  have hrun := run_of_stop (fun _ => isScriptDigit_of_mem_digits (n := n)) rest hstop
  have hsome : (digits n).isEmpty = false := List.isEmpty_eq_false_iff.mpr (digits_ne_nil n)
  unfold takeSize
  split
  next r heq =>
    -- The word for no bound begins with a letter.
    have happend : (digits n ++ stop :: rest).head? = (digits n).head? :=
      List.head?_append_of_ne_nil _ (digits_ne_nil n)
    have hletter : (digits n).head? = some 'm' := by
      rw [← happend, heq]
      rfl
    have hdigit := isDigit_of_mem_digits (List.mem_of_head? hletter)
    exact absurd hdigit (by decide)
  next =>
    dsimp only
    rw [hrun.1, hrun.2, hsome]
    rfl

theorem takeSizes_one (n : Nat) : takeSizes (digits n ++ [')']) = some (digits n, none) := by
  unfold takeSizes
  rw [dropBlanks_digits_append, takeSize_digits_append n [] (by decide)]
  rfl

theorem takeSizes_two (first second : Nat) :
    takeSizes (digits first ++ ',' :: (digits second ++ [')'])) =
      some (digits first, some (digits second)) := by
  have hcomma : dropBlanks (',' :: (digits second ++ [')'])) = ',' :: (digits second ++ [')']) :=
    dropBlanks_of_head (by rintro c hc; obtain rfl := Option.some.inj hc; decide)
  have hrun := run_of_stop (fun _ => isScriptDigit_of_mem_digits (n := second)) []
    (by decide : isScriptDigit ')' = false)
  have hsome : (digits second).isEmpty = false :=
    List.isEmpty_eq_false_iff.mpr (digits_ne_nil second)
  unfold takeSizes
  rw [dropBlanks_digits_append, takeSize_digits_append first _ (by decide)]
  simp only [Option.bind_eq_bind, Option.bind_some, hcomma]
  rw [dropBlanks_digits_append, hrun.1, hrun.2, hsome]
  rfl

/-! ### A type with sizes -/

/-- The word of a type and what stands between the parentheses after it. -/
theorem ofChars?_append {name inner : List Char} {sizes : List Char × Option (List Char)}
    (hname : ∀ c ∈ name, (isSmallLetter c || isDigit c) = true)
    (hfirst : name.head?.any isSmallLetter = true) (hsizes : takeSizes inner = some sizes) :
    Spelling.ofChars? (name ++ '(' :: inner) = some ⟨name, some sizes.1, sizes.2⟩ := by
  have hrun := run_of_stop hname inner
    (by decide : (fun c => isSmallLetter c || isDigit c) '(' = false)
  have hopen : dropBlanks ('(' :: inner) = '(' :: inner :=
    dropBlanks_of_head (by rintro c hc; obtain rfl := Option.some.inj hc; decide)
  unfold Spelling.ofChars?
  dsimp only
  rw [hrun.1, hrun.2, if_pos hfirst, hopen]
  simp only [hsizes, Option.map_some]

/-- A character that small letters, digits and the marks of a type are: it is not blank and has no
other small form. -/
def IsPlain (c : Char) : Prop := isBlank c = false ∧ c.toLower = c

instance : DecidablePred IsPlain := fun _ => instDecidableAnd

theorem isPlain_of_mem_digits {n : Nat} {c : Char} (h : c ∈ digits n) : IsPlain c := by
  have hdigit := isDigit_of_mem_digits h
  have hhigh := (toNat_of_isDigit hdigit).2
  refine ⟨isBlank_of_isDigit hdigit, ?_⟩
  have hsmall : ¬ (c.val ≥ 'A'.val ∧ c.val ≤ 'Z'.val) := by
    rintro ⟨hcapital, -⟩
    have hcapital : 0x41 ≤ c.toNat := hcapital
    omega
  exact dif_neg hsmall

/-- Plain texts are looked at as they are. -/
theorem toLower_trim_of_isPlain {s : String} (h : ∀ c ∈ s.toList, IsPlain c) :
    (trim s).toLower.toList = s.toList := by
  have htrim : trim s = s := trim_of_trimmed
    ⟨fun c hc => (h c (List.mem_of_head? hc)).1, fun c hc => (h c (List.mem_of_getLast? hc)).1⟩
  have hlower : s.toLower.toList = s.toList.map Char.toLower := String.toList_map
  rw [htrim, hlower]
  exact (List.map_congr_left fun c hc => (h c hc).2).trans (List.map_id' _)

/-! ### Reading what is written -/

theorem isPlain_of_mem_sizes {name inner : List Char} (hname : ∀ c ∈ name, IsPlain c)
    (hinner : ∀ c ∈ inner, IsPlain c) : ∀ c ∈ name ++ '(' :: inner, IsPlain c := by
  rw [List.forall_mem_append, List.forall_mem_cons]
  exact ⟨hname, ⟨by decide, by decide⟩, hinner⟩

/-- What is looked at in the text of a type with sizes. -/
theorem ofChars?_sized {name inner : List Char} {sizes : List Char × Option (List Char)}
    {s : String} (htext : s.toList = name ++ '(' :: inner)
    (hname : ∀ c ∈ name, (isSmallLetter c || isDigit c) = true ∧ IsPlain c)
    (hfirst : name.head?.any isSmallLetter = true) (hinner : ∀ c ∈ inner, IsPlain c)
    (hsizes : takeSizes inner = some sizes) :
    Spelling.ofChars? (trim s).toLower.toList = some ⟨name, some sizes.1, sizes.2⟩ := by
  have hplain : ∀ c ∈ s.toList, IsPlain c := by
    rw [htext]
    exact isPlain_of_mem_sizes (fun c hc => (hname c hc).2) hinner
  rw [toLower_trim_of_isPlain hplain, htext]
  exact ofChars?_append (fun c hc => (hname c hc).1) hfirst hsizes

theorem digits_ne_max (n : Nat) : digits n ≠ ['m', 'a', 'x'] := by
  intro heq
  have hdigit : isDigit 'm' = true := isDigit_of_mem_digits (heq ▸ List.mem_cons_self)
  exact absurd hdigit (by decide)

/-- A type that some text names is the one that its own text names. -/
theorem parse_display {type : DataType} (h : type.WellFormed) : parse type.display = .ok type := by
  have hclose : ∀ c ∈ [')'], IsPlain c := List.forall_mem_singleton.mpr (by decide)
  have hcomma : IsPlain ',' := by decide
  cases type with
  | text length =>
      cases length with
      | none => decide +kernel
      | some n =>
          have hlist : (display (.text (some n))).toList =
              "varchar".toList ++ '(' :: (digits n ++ [')']) := by
            simp [display, digits]
          have hspelling := ofChars?_sized hlist (List.all_iff_forall_prop.mp rfl) (by decide)
            (List.forall_mem_append.mpr ⟨fun _ => isPlain_of_mem_digits, hclose⟩) (takeSizes_one n)
          have hfamily : Family.ofName? (String.ofList "varchar".toList) = some .text := rfl
          unfold parse
          rw [hspelling]
          dsimp only
          rw [hfamily]
          dsimp only
          rw [if_neg (digits_ne_max n), unsigned?_digits h]
          rfl
  | decimal precision scale =>
      cases scale with
      | none =>
          obtain rfl : precision = 18 := h
          decide +kernel
      | some scale =>
          have hlist : (display (.decimal precision (some scale))).toList =
              "decimal".toList ++ '(' :: (digits precision ++ ',' :: (digits scale ++ [')'])) := by
            simp [display, digits]
          have hinner : ∀ c ∈ digits precision ++ ',' :: (digits scale ++ [')']), IsPlain c := by
            rw [List.forall_mem_append, List.forall_mem_cons, List.forall_mem_append]
            exact ⟨fun _ => isPlain_of_mem_digits, hcomma, fun _ => isPlain_of_mem_digits, hclose⟩
          have hspelling := ofChars?_sized hlist (List.all_iff_forall_prop.mp rfl) (by decide)
            hinner (takeSizes_two precision scale)
          have hfamily : Family.ofName? (String.ofList "decimal".toList) = some .decimal := rfl
          unfold parse
          rw [hspelling]
          dsimp only
          rw [hfamily]
          dsimp only
          rw [unsigned?_digits h.1, unsigned?_digits h.2]
          rfl
  | _ => decide +kernel

theorem display_ne_empty (type : DataType) : type.display ≠ "" := by
  cases type with
  | text length => cases length <;> simp [display]
  | decimal precision scale => cases scale <;> simp [display]
  | _ => decide

/-- A size is within bounds. -/
theorem le_of_size {cs : List Char} {n : Nat} {e : DataTypeError}
    (h : (match unsigned? maxHalfWord cs with
      | some n => Except.ok n
      | none => .error e) = .ok n) : n ≤ maxHalfWord := by
  split at h
  next hsize =>
    obtain rfl := Except.ok.inj h
    exact le_of_unsigned? hsize
  next => cases h

/-- A type that a text names has sizes within bounds. -/
theorem wellFormed_of_parse {text : String} {type : DataType} (h : parse text = .ok type) :
    type.WellFormed := by
  unfold parse at h
  dsimp only at h
  split at h
  · cases h
  next name first second _ =>
    split at h
    case h_2 n _ =>
      split at h
      · obtain rfl := Except.ok.inj h
        trivial
      · obtain ⟨n, hn, rfl⟩ := map_eq_ok h
        exact le_of_size hn
    case h_4 p _ =>
      obtain ⟨precision, hprecision, h⟩ := bind_eq_ok h
      split at h
      · obtain ⟨scale, hscale, h⟩ := bind_eq_ok h
        obtain rfl := Except.ok.inj h
        exact ⟨le_of_size hprecision, le_of_size hscale⟩
      · obtain rfl := Except.ok.inj h
        exact ⟨le_of_size hprecision, Nat.zero_le _⟩
    case h_11 => cases h
    case h_3 =>
      obtain rfl := Except.ok.inj h
      exact rfl
    all_goals
      obtain rfl := Except.ok.inj h
      trivial

end RowContract.DataType
