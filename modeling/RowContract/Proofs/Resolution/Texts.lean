import Mathlib.Data.List.DropRight
import RowContract.Proofs.Resolution.Chain
import RowContract.Proofs.Text.Digits

/-!
What columns of texts are filled with, where no default stands in.  A rule without operations fills
its column with the text it reads, cut to the limit, unless that text is blank.  The cut itself may
leave nothing of a text that begins with blanks, and then the column holds an empty text.  A rule
that only takes the digits out of a text hands them on as a number if they make one of 64 bits, and
such a number has no zeros in front.
-/

namespace RowContract

open RowContract.Text
open RowContract.DataType (cutText)

variable {ctx : ChainContext} {length : Option Nat} {raw v : Value}

/-- The rule fills a column of texts of the given length and has no default. -/
structure FieldMapping.FillsText (m : FieldMapping) (length : Option Nat) : Prop where
  dataType : m.dataType = .text length
  defaultValue : m.defaultValue = none

def FieldMapping.unfilled (m : FieldMapping) : Except TransformError Resolved :=
  if m.required then
    .error (.requiredField m.targetTable m.targetColumn (ChainContext.sourceLabel m))
  else .ok (.column .null)

theorem FieldMapping.FillsText.settled?_eq {m : FieldMapping} (h : m.FillsText length) (v : Value) :
    m.settled? v =
      if v.isNull then none else some (.text (cutText (m.dataLength.or length) v.display)) := by
  have hdefault : m.defaultColumnValue? = none := by
    rw [defaultColumnValue?, h.defaultValue]
    rfl
  rw [settled?, hdefault, convert, h.dataType, DataType.coerce]
  cases v.isNull <;> rfl

namespace ChainContext

/-- A rule that appends no rows makes a column of the value at the end of its chain: the text of the
value, or nothing if it is missing. -/
theorem resolve_fills (h : ctx.mapping.FillsText length) (hrow : ctx.mapping.rowOperation? = none)
    (hrest : ctx.restValue (entry raw) (ctx.start raw) = .ok v) :
    (ctx.resolve raw).run.value =
      if v.isNull then ctx.mapping.unfilled
      else .ok (.column (.text (cutText (ctx.mapping.dataLength.or length) v.display))) := by
  have hcolumn (w : Value) : deliver ctx.mapping w = .column w := by
    rw [deliver, hrow]
    rfl
  rw [resolve_value, hrest, ok_bind, finish_value, h.settled?_eq, FieldMapping.unfilled]
  simp only [hcolumn]
  cases v.isNull with
  | false => rfl
  | true => cases ctx.mapping.required <;> rfl

end ChainContext

/-! ### Texts as they are -/

/-- The limit leaves only blanks of a text with a visible character. -/
def CutsToBlank (limit : Option Nat) (s : String) : Prop :=
  isBlankText s = false ∧ ∃ n, limit = some n ∧ ∀ c ∈ s.toList.take n, isBlank c = true

theorem Text.dropTrailingBlanks_eq_nil_iff {cs : List Char} :
    dropTrailingBlanks cs = [] ↔ ∀ c ∈ cs, isBlank c = true :=
  List.rdropWhile_eq_nil_iff

/-- The character before the blanks at the end is visible. -/
theorem Text.exists_of_dropTrailingBlanks_ne_nil {cs : List Char} (h : dropTrailingBlanks cs ≠ []) :
    ∃ c ∈ dropTrailingBlanks cs, isBlank c = false :=
  ⟨_, List.getLast_mem h, Bool.eq_false_iff.mpr (List.rdropWhile_last_not isBlank cs h)⟩

theorem Text.isBlankText_eq_false_iff {s : String} :
    isBlankText s = false ↔ ∃ c ∈ s.toList, isBlank c = false := by
  simp [isBlankText]

theorem CutsToBlank.cutText_eq {limit : Option Nat} {s : String} (h : CutsToBlank limit s) :
    cutText limit s = "" := by
  obtain ⟨hvisible, n, rfl, hblank⟩ := h
  have hlong : n < s.toList.length := by
    by_contra hshort
    obtain ⟨c, hc, hc'⟩ := isBlankText_eq_false_iff.mp hvisible
    rw [← List.take_of_length_le (Nat.le_of_not_lt hshort)] at hc
    rw [hblank c hc] at hc'
    cases hc'
  rw [cutText, if_pos hlong, dropTrailingBlanks_eq_nil_iff.mpr hblank, String.ofList_nil]

/-- Of any other text with a visible character the limit leaves one. -/
theorem isBlankText_cutText {limit : Option Nat} {s : String} (hvisible : isBlankText s = false)
    (h : ¬CutsToBlank limit s) : isBlankText (cutText limit s) = false := by
  cases limit with
  | none => exact hvisible
  | some n =>
      rw [cutText]
      split
      · rw [isBlankText_eq_false_iff, String.toList_ofList]
        refine exists_of_dropTrailingBlanks_ne_nil fun hnil => h ⟨hvisible, n, rfl, ?_⟩
        exact dropTrailingBlanks_eq_nil_iff.mp hnil
      · exact hvisible

/-- The rule fills a column of texts with what it reads. -/
structure FieldMapping.CopiesText (m : FieldMapping) (length : Option Nat) : Prop
    extends m.FillsText length where
  chain : m.chain = []

/-- The column has a text with a visible character, or else the rule counts as without a value. -/
def FieldMapping.Shows (m : FieldMapping) (x : Except TransformError Resolved) : Prop :=
  x = m.unfilled ∨ ∃ t, x = .ok (.column (.text t)) ∧ isBlankText t = false

/-- An empty text in a column does not count as missing, and shows nothing. -/
theorem FieldMapping.not_shows_empty (m : FieldMapping) : ¬m.Shows (.ok (.column (.text ""))) := by
  rintro (hmissing | ⟨t, ht, hvisible⟩)
  · rw [unfilled] at hmissing
    split at hmissing <;> cases hmissing
  · cases ht
    cases hvisible

namespace ChainContext

theorem entry_text (s : String) :
    entry (.text s) = if isBlankText s then .null else .text s := rfl

theorem resolve_copied (h : ctx.mapping.CopiesText length) (s : String) :
    (ctx.resolve (.text s)).run.value =
      if isBlankText s then ctx.mapping.unfilled
      else .ok (.column (.text (cutText (ctx.mapping.dataLength.or length) s))) := by
  have hrow : ctx.mapping.rowOperation? = none := by
    rw [FieldMapping.rowOperation?, h.chain]
    rfl
  have hrest : ctx.restValue (entry (.text s)) (ctx.start (.text s)) = .ok (entry (.text s)) := by
    rw [start, h.chain]
    rfl
  rw [resolve_fills h.toFillsText hrow hrest, entry_text]
  cases isBlankText s <;> rfl

/-- A text that is read as it is shows in its column, or counts as missing if it is blank, unless
the limit cuts it down to blanks: then the column has an empty text, required or not. -/
theorem resolve_shows_iff (h : ctx.mapping.CopiesText length) (s : String) :
    (ctx.mapping.Shows (ctx.resolve (.text s)).run.value ↔
        ¬CutsToBlank (ctx.mapping.dataLength.or length) s) ∧
      (CutsToBlank (ctx.mapping.dataLength.or length) s →
        (ctx.resolve (.text s)).run.value = .ok (.column (.text ""))) ∧
      (isBlankText s = true → (ctx.resolve (.text s)).run.value = ctx.mapping.unfilled) := by
  have hvalue := resolve_copied h s
  cases hblank : isBlankText s with
  | true =>
      have hkept : ¬CutsToBlank (ctx.mapping.dataLength.or length) s := fun hcut => by
        rw [hcut.1] at hblank
        cases hblank
      rw [hblank, if_pos rfl] at hvalue
      exact ⟨iff_of_true (.inl hvalue) hkept, fun hcut => absurd hcut hkept, fun _ => hvalue⟩
  | false =>
      rw [hblank, if_neg Bool.false_ne_true] at hvalue
      refine ⟨?_, fun hcut => hcut.cutText_eq ▸ hvalue, fun h => by cases h⟩
      by_cases hcut : CutsToBlank (ctx.mapping.dataLength.or length) s
      · rw [hcut.cutText_eq] at hvalue
        exact iff_of_false (hvalue ▸ FieldMapping.not_shows_empty _) (not_not_intro hcut)
      · exact iff_of_true (.inr ⟨_, hvalue, isBlankText_cutText hblank hcut⟩) hcut

end ChainContext

def nameRule : FieldMapping where
  sourcePath := "/app/@name"
  targetTable := "app_base"
  targetColumn := "name"
  dataType := .text (some 4)
  required := true

def nameContext : ChainContext := ⟨{ mappings := [nameRule] }, nameRule, [], none⟩

theorem nameRule_copiesText : nameContext.mapping.CopiesText (some 4) := ⟨⟨rfl, rfl⟩, rfl⟩

namespace ChainContext

/-- Three blanks in front of a name leave one letter of it, and four leave none. -/
theorem resolve_shows_iff_name :
    nameRule.CopiesText (some 4) ∧
      nameRule.Shows (nameContext.resolve (.text "   Ada")).run.value ∧
      (nameContext.resolve (.text "    Ada")).run.value = .ok (.column (.text "")) ∧
      (nameContext.resolve (.text "    ")).run.value =
        .error (.requiredField "app_base" "name" "/app/@name") := by
  have hkept : ¬CutsToBlank (some 4) "   Ada" := by
    rintro ⟨-, n, hn, hblank⟩
    cases hn
    exact absurd (hblank 'A' (by decide)) (by decide)
  have hblanks : ∀ c ∈ "    Ada".toList.take 4, isBlank c = true :=
    List.all_eq_true.mp (by decide)
  have hcut : CutsToBlank (some 4) "    Ada" := ⟨by decide, 4, rfl, hblanks⟩
  exact ⟨nameRule_copiesText,
    (resolve_shows_iff nameRule_copiesText "   Ada").1.mpr hkept,
    (resolve_shows_iff nameRule_copiesText "    Ada").2.1 hcut,
    (resolve_shows_iff nameRule_copiesText "    ").2.2 (by decide)⟩

/-- A required name that is more than blanks ends as an empty text. -/
theorem resolve_hidesName :
    nameRule.CopiesText (some 4) ∧ isBlankText "    Ada" = false ∧
      (nameContext.resolve (.text "    Ada")).run.value = .ok (.column (.text "")) ∧
      ¬nameRule.Shows (nameContext.resolve (.text "    Ada")).run.value := by
  have hvalue : (nameContext.resolve (.text "    Ada")).run.value = .ok (.column (.text "")) := rfl
  exact ⟨nameRule_copiesText, by decide, hvalue, hvalue ▸ nameRule.not_shows_empty⟩

end ChainContext

/-! ### The digits of a text -/

def digitsOf (s : String) : List Char := s.toList.filter isDigit

/-- What is left of digits that go through a number of 64 bits if they make one. -/
def keptDigits (ds : List Char) : List Char :=
  if fitsSigned (digitsValue ds) then significant ds else ds

/-- The digits make a number of 64 bits, and a zero stands in front of another digit. -/
def LosesZeros (ds : List Char) : Prop :=
  fitsSigned (digitsValue ds) = true ∧ 1 < ds.length ∧ ds.head? = some '0'

theorem isDigit_of_mem_digitsOf {s : String} {c : Char} (h : c ∈ digitsOf s) : isDigit c = true :=
  (List.mem_filter.mp h).2

theorem digitsOf_of_isBlankText {s : String} (h : isBlankText s = true) : digitsOf s = [] := by
  refine List.filter_eq_nil_iff.mpr fun c hc hdigit => ?_
  have hblank := List.all_eq_true.mp h c hc
  rw [isBlank_of_isDigit hdigit] at hblank
  cases hblank

theorem keptDigits_eq_self_iff {ds : List Char} (h : ds ≠ []) :
    keptDigits ds = ds ↔ ¬LosesZeros ds := by
  have hpos : 0 < ds.length := List.length_pos_iff.mpr h
  rw [keptDigits, LosesZeros]
  split
  next hfits =>
    rw [significant_eq_self_iff h, not_and, not_and, forall_prop_of_true hfits]
    constructor
    · rintro (hone | hhead) hlong
      · omega
      · exact hhead
    · intro hkept
      by_cases hlong : 1 < ds.length
      · exact .inr (hkept hlong)
      · exact .inl (by omega)
  next hfits => exact iff_of_true rfl fun hloses => hfits hloses.1

/-- The rule takes the digits out of a text and fills a column of texts of any length with them. -/
structure FieldMapping.ExtractsDigits (m : FieldMapping) : Prop extends m.FillsText none where
  dataLength : m.dataLength = none
  chain : m.chain = [.extractNumeric]
  required : m.required = false

namespace ChainContext

theorem extractDigits_of_eq_nil {s : String} (h : digitsOf s = []) :
    extractDigits (.text s) = .null := by
  change (if (digitsOf s).isEmpty then _ else _) = _
  rw [h]
  rfl

theorem extractDigits_of_ne_nil {s : String} (h : digitsOf s ≠ []) :
    (extractDigits (.text s)).isNull = false ∧
      (extractDigits (.text s)).display = String.ofList (keptDigits (digitsOf s)) := by
  have hdigits : ∀ c ∈ digitsOf s, isDigit c = true := fun _ => isDigit_of_mem_digitsOf
  have hsome : (digitsOf s).isEmpty = false := List.isEmpty_eq_false_iff.mpr h
  have hextract : extractDigits (.text s) =
      (signed? (digitsOf s)).elim (.text (String.ofList (digitsOf s))) .int := by
    have hfilter : ((Value.text s).text?.getD "").toList.filter isDigit = digitsOf s := rfl
    rw [extractDigits, hfilter, hsome]
    cases signed? (digitsOf s) <;> rfl
  have hshown (n : Nat) : (Value.int n).display = String.ofList (digits n) := by
    rw [digits, String.ofList_toList]
    rfl
  rw [hextract, signed?_of_isDigit hdigits h, keptDigits]
  by_cases hfits : fitsSigned (digitsValue (digitsOf s)) = true
  · rw [if_pos hfits, if_pos hfits, ← digits_digitsValue hdigits]
    exact ⟨rfl, hshown _⟩
  · rw [if_neg hfits, if_neg hfits]
    exact ⟨rfl, rfl⟩

theorem resolve_extracted (h : ctx.mapping.ExtractsDigits) (s : String) :
    (ctx.resolve (.text s)).run.value =
      if digitsOf s = [] then .ok (.column .null)
      else .ok (.column (.text (String.ofList (keptDigits (digitsOf s))))) := by
  have hrow : ctx.mapping.rowOperation? = none := by
    rw [FieldMapping.rowOperation?, h.chain]
    rfl
  have hentry : extractDigits (entry (.text s)) = extractDigits (.text s) := by
    rw [entry_text]
    split
    next hblank => rw [extractDigits_of_eq_nil (digitsOf_of_isBlankText hblank)]; rfl
    next => rfl
  have hrest : ctx.restValue (entry (.text s)) (ctx.start (.text s)) =
      .ok (extractDigits (.text s)) := by
    rw [start, h.chain, restValue_cons (by decide), ← hentry]
    change (if (extractDigits (entry (.text s))).isNull then Except.ok Value.null
      else Except.ok (extractDigits (entry (.text s)))) = _
    split
    next hnull => rw [Value.isNull_iff.mp hnull]
    next => rfl
  have hmissing : ctx.mapping.unfilled = .ok (.column .null) := by
    rw [FieldMapping.unfilled, h.required]
    rfl
  rw [resolve_fills h.toFillsText hrow hrest, h.dataLength, hmissing]
  by_cases hnil : digitsOf s = []
  · rw [if_pos hnil, extractDigits_of_eq_nil hnil]
    rfl
  · obtain ⟨hthere, hdisplay⟩ := extractDigits_of_ne_nil hnil
    rw [if_neg hnil, hthere, hdisplay]
    rfl

/-- The column is empty exactly for a text without digits.  Of any other text it has the digits, all
of them and in order, unless they make a number of 64 bits that loses zeros in front. -/
theorem resolve_keepsDigits_iff (h : ctx.mapping.ExtractsDigits) (s : String) :
    ((ctx.resolve (.text s)).run.value = .ok (.column .null) ↔ digitsOf s = []) ∧
      (digitsOf s ≠ [] → (ctx.resolve (.text s)).run.value =
        .ok (.column (.text (String.ofList (keptDigits (digitsOf s)))))) ∧
      ((ctx.resolve (.text s)).run.value =
          .ok (.column (.text (String.ofList (digitsOf s)))) ↔
        digitsOf s ≠ [] ∧ ¬LosesZeros (digitsOf s)) := by
  have hvalue := resolve_extracted h s
  by_cases hnil : digitsOf s = []
  · rw [if_pos hnil] at hvalue
    rw [hvalue]
    exact ⟨iff_of_true rfl hnil, fun hsome => absurd hnil hsome,
      iff_of_false (by simp) fun hsome => hsome.1 hnil⟩
  · rw [if_neg hnil] at hvalue
    rw [hvalue]
    refine ⟨iff_of_false (by simp) hnil, fun _ => rfl, ?_⟩
    rw [and_iff_right hnil, ← keptDigits_eq_self_iff hnil]
    simp [String.ofList_inj]

end ChainContext

def accountRule : FieldMapping where
  sourcePath := "/app/@account"
  targetTable := "app_base"
  targetColumn := "account"
  chain := [.extractNumeric]

def accountContext : ChainContext := ⟨{ mappings := [accountRule] }, accountRule, [], none⟩

theorem accountRule_extractsDigits : accountContext.mapping.ExtractsDigits :=
  ⟨⟨rfl, rfl⟩, rfl, rfl, rfl⟩

namespace ChainContext

/-- Zeros in front of more digits than 64 bits have are kept, and in front of fewer they are not. -/
theorem resolve_keepsDigits_iff_account :
    accountRule.ExtractsDigits ∧
      (accountContext.resolve (.text "No. 0992-2337-2036-8547-7581")).run.value =
        .ok (.column (.text "09922337203685477581")) ∧
      (accountContext.resolve (.text "No. 0992-2337-2036")).run.value =
        .ok (.column (.text "99223372036")) ∧
      (accountContext.resolve (.text "none")).run.value = .ok (.column .null) :=
  have hrule := accountRule_extractsDigits
  ⟨hrule,
    (resolve_keepsDigits_iff hrule "No. 0992-2337-2036-8547-7581").2.1 (by decide),
    (resolve_keepsDigits_iff hrule "No. 0992-2337-2036").2.1 (by decide),
    (resolve_keepsDigits_iff hrule "none").1.mpr (by decide)⟩

/-- Two of the five digits are lost. -/
theorem resolve_dropsZeros :
    accountRule.ExtractsDigits ∧ digitsOf "00501" = "00501".toList ∧
      (accountContext.resolve (.text "00501")).run.value = .ok (.column (.text "501")) ∧
      (accountContext.resolve (.text "00501")).run.value ≠
        .ok (.column (.text (String.ofList (digitsOf "00501")))) := by
  have hvalue : (accountContext.resolve (.text "00501")).run.value =
      .ok (.column (.text "501")) := rfl
  refine ⟨accountRule_extractsDigits, by decide, hvalue, ?_⟩
  rw [hvalue]
  simp only [ne_eq, Except.ok.injEq, Resolved.column.injEq, Value.text.injEq]
  decide

end ChainContext

end RowContract
