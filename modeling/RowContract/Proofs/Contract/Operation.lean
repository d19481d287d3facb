import RowContract.Contract.Operation
import RowContract.Proofs.Text.Trim

/-!
Operations are read back as they are written.  What is read from a text has a parameter that can
stand between parentheses, so each operation that can be read is the one that its own text names.
-/

namespace RowContract.Operation

open RowContract.Text

/-- A text that can stand as a parameter: there is something of it, it has no blank at its ends and
no parenthesis. -/
structure IsParameter (p : String) : Prop where
  ne_nil : p.toList ≠ []
  trimmed : Trimmed p.toList
  noParenthesis : ∀ c ∈ p.toList, (c != '(' && c != ')') = true

/-- The word of an operation, and what stands between parentheses after it. -/
def spelling : Operation → String × Option String
  | .enum => ("enum", none)
  | .charToBit => ("char_to_bit", none)
  | .booleanToBit => ("boolean_to_bit", none)
  | .extractNumeric => ("extract_numeric", none)
  | .calculatedField => ("calculated_field", none)
  | .lastValidContact .primary => ("last_valid_pr_contact", none)
  | .lastValidContact .secondary => ("last_valid_sec_contact", none)
  | .addScore identifier => ("add_score", some identifier)
  | .addIndicator name => ("add_indicator", some name)
  | .addHistory name => ("add_history", name)
  | .addReportLookup name => ("add_report_lookup", name)

/-- What the operation writes between parentheses can stand there. -/
def WellFormed (op : Operation) : Prop := ∀ p ∈ op.spelling.2, IsParameter p

theorem display_eq_withParameter (op : Operation) :
    op.display = withParameter op.spelling.1 op.spelling.2 := by
  cases op with
  | lastValidContact role => cases role <;> rfl
  | _ => rfl

/-! ### The word and the parameter of a text -/

structure IsVerb (verb : String) : Prop where
  ne_nil : verb.toList ≠ []
  chars : ∀ c ∈ verb.toList, isVerbChar c = true

instance (verb : String) : Decidable (IsVerb verb) :=
  decidable_of_iff (verb.toList ≠ [] ∧ verb.toList.all isVerbChar = true)
    ⟨fun h => ⟨h.1, List.all_eq_true.mp h.2⟩, fun h => ⟨h.ne_nil, List.all_eq_true.mpr h.chars⟩⟩

theorem isVerb_spelling (op : Operation) : IsVerb op.spelling.1 := by
  cases op with
  | lastValidContact role => cases role <;> decide
  | addScore identifier => exact (by decide : IsVerb "add_score")
  | addIndicator name => exact (by decide : IsVerb "add_indicator")
  | addHistory name => exact (by decide : IsVerb "add_history")
  | addReportLookup name => exact (by decide : IsVerb "add_report_lookup")
  | _ => decide

theorem isBlank_of_isVerbChar {c : Char} (h : isVerbChar c = true) : isBlank c = false := by
  simp only [isVerbChar, Bool.or_eq_true, Bool.and_eq_true, decide_eq_true_eq, beq_iff_eq] at h
  rcases h with ⟨hlow, hhigh⟩ | rfl
  · have hlow : 97 ≤ c.toNat := hlow
    have hhigh : c.toNat ≤ 122 := hhigh
    simp only [isBlank, Bool.or_eq_false_iff, Bool.and_eq_false_iff, decide_eq_false_iff_not,
      beq_eq_false_iff_ne]
    omega
  · decide

variable {verb : String} {parameter : Option String}

theorem toList_withParameter_some (verb p : String) :
    (withParameter verb (some p)).toList = verb.toList ++ '(' :: (p.toList ++ [')']) := by
  simp [withParameter]

theorem split?_withParameter (hverb : IsVerb verb) (hparameter : ∀ p ∈ parameter, IsParameter p) :
    split? (withParameter verb parameter).toList = some (verb, parameter) := by
  have hnonempty : verb.toList.isEmpty = false := List.isEmpty_eq_false_iff.mpr hverb.ne_nil
  cases parameter with
  | none =>
      have htake : verb.toList.takeWhile isVerbChar = verb.toList :=
        List.takeWhile_eq_self_iff.mpr hverb.chars
      have hdrop : verb.toList.dropWhile isVerbChar = [] :=
        List.dropWhile_eq_nil_iff.mpr hverb.chars
      simp only [split?, withParameter, htake, hdrop, hnonempty, dropBlanks_nil,
        String.ofList_toList]
      rfl
  | some p =>
      have hp := hparameter p rfl
      have hclose : (fun c : Char => c != '(' && c != ')') ')' = false := by decide
      have hword := run_of_stop hverb.chars (p.toList ++ [')']) (by decide : isVerbChar '(' = false)
      have hbody := run_of_stop hp.noParenthesis [] hclose
      have hopen : dropBlanks ('(' :: (p.toList ++ [')'])) = '(' :: (p.toList ++ [')']) :=
        List.dropWhile_cons_of_neg (by decide)
      have hfilled : p.toList.isEmpty = false := List.isEmpty_eq_false_iff.mpr hp.ne_nil
      rw [toList_withParameter_some]
      simp only [split?, hword.1, hword.2, hnonempty, hopen, hbody.1, List.drop_left,
        hp.trimmed.trimChars_eq, hfilled, String.ofList_toList]
      rfl

/-- The parameter of a text can stand between parentheses. -/
theorem isParameter_of_split? {cs : List Char} (h : split? cs = some (verb, parameter)) :
    ∀ p ∈ parameter, IsParameter p := by
  unfold split? at h
  dsimp only at h
  split at h
  · cases h
  · split at h
    · obtain ⟨-, rfl⟩ := Prod.mk.inj (Option.some.inj h)
      exact nofun
    next r _ =>
      split at h
      · obtain ⟨-, rfl⟩ := Prod.mk.inj (Option.some.inj h)
        intro p hp
        split at hp
        · cases hp
        next hempty =>
          obtain rfl := Option.some.inj hp
          refine ⟨?_, ?_, fun c hc => ?_⟩
          · rw [String.toList_ofList]
            exact fun hnil => hempty (List.isEmpty_iff.mpr hnil)
          · rw [String.toList_ofList]
            exact trimmed_trimChars _
          · rw [String.toList_ofList] at hc
            exact List.mem_takeWhile_imp (p := fun c => c != '(' && c != ')')
              (mem_of_mem_trimChars hc)
      · cases h
    · cases h

/-! ### Reading what is written -/

/-- Nothing of a word with a parameter is trimmed. -/
theorem trimmed_withParameter (hverb : IsVerb verb) :
    Trimmed (withParameter verb parameter).toList := by
  cases parameter with
  | none =>
      exact ⟨fun c hc => isBlank_of_isVerbChar (hverb.chars c (List.mem_of_head? hc)),
        fun c hc => isBlank_of_isVerbChar (hverb.chars c (List.mem_of_getLast? hc))⟩
  | some p =>
      rw [toList_withParameter_some]
      constructor
      · intro c hc
        rw [List.head?_append_of_ne_nil _ hverb.ne_nil] at hc
        exact isBlank_of_isVerbChar (hverb.chars c (List.mem_of_head? hc))
      · intro c hc
        rw [← List.cons_append, ← List.append_assoc, List.getLast?_concat] at hc
        obtain rfl := Option.some.inj hc
        decide

/-- An operation is the one that its text names. -/
theorem parse_display {op : Operation} (h : op.WellFormed) : parse op.display = .ok op := by
  have hverb := isVerb_spelling op
  have htrim : trim op.display = op.display := by
    rw [display_eq_withParameter]
    exact trim_of_trimmed (trimmed_withParameter hverb)
  have hsplit : split? op.display.toList = some op.spelling := by
    rw [display_eq_withParameter]
    exact split?_withParameter hverb h
  unfold parse
  rw [htrim]
  dsimp only
  rw [hsplit]
  cases op with
  | lastValidContact role => cases role <;> rfl
  | _ => rfl

theorem mem_withParameter {c : Char} (h : c ∈ verb.toList) :
    c ∈ (withParameter verb parameter).toList := by
  cases parameter with
  | none => exact h
  | some p =>
      rw [toList_withParameter_some]
      exact List.mem_append_left _ h

/-- The text of an operation shows. -/
theorem isBlankText_display (op : Operation) : isBlankText op.display = false := by
  have hverb := isVerb_spelling op
  obtain ⟨c, hc⟩ := List.exists_mem_of_ne_nil _ hverb.ne_nil
  rw [display_eq_withParameter, isBlankText, List.all_eq_false]
  refine ⟨c, mem_withParameter hc, ?_⟩
  rw [isBlank_of_isVerbChar (hverb.chars c hc)]
  exact Bool.false_ne_true

/-- What a text names has the parameter of the text, if it has one. -/
theorem wellFormed_of_parse {token : String} {op : Operation} (h : parse token = .ok op) :
    op.WellFormed := by
  unfold parse at h
  dsimp only at h
  split at h
  · cases h
  next verb parameter hsplit =>
    have hparameter := isParameter_of_split? hsplit
    split at h
    next plain hplain =>
      obtain rfl := Except.ok.inj h
      unfold plain? at hplain
      split at hplain <;> cases hplain <;> exact nofun
    · cases h
    · split at h
      · split at h
        · obtain rfl := Except.ok.inj h
          exact hparameter
        · cases h
      · split at h
        · split at h
          · obtain rfl := Except.ok.inj h
            exact hparameter
          · cases h
        · split at h
          · obtain rfl := Except.ok.inj h
            exact hparameter
          · split at h
            · obtain rfl := Except.ok.inj h
              exact hparameter
            · cases h

end RowContract.Operation
