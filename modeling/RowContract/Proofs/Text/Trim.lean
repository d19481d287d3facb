import Mathlib.Data.List.DropRight
import RowContract.Text.Blank

/-!
Trimming, and runs of characters of a class.  A text that is trimmed has no blank at either end, so
trimming it again changes nothing.
-/

namespace RowContract.Text

structure Trimmed (cs : List Char) : Prop where
  head : ∀ c, cs.head? = some c → isBlank c = false
  last : ∀ c, cs.getLast? = some c → isBlank c = false

variable {cs : List Char}

theorem dropBlanks_of_head (h : ∀ c, cs.head? = some c → isBlank c = false) :
    dropBlanks cs = cs := by
  cases cs with
  | nil => rfl
  | cons c rest => exact List.dropWhile_cons_of_neg (Bool.eq_false_iff.mp (h c rfl))

theorem isBlank_of_head?_dropBlanks {c : Char} (h : (dropBlanks cs).head? = some c) :
    isBlank c = false := by
  have hne : dropBlanks cs ≠ [] := by
    intro hnil
    rw [hnil] at h
    cases h
  have hhead := List.head_dropWhile_not isBlank (l := cs) hne
  rw [List.head?_eq_some_head hne] at h
  obtain rfl := Option.some.inj h
  exact hhead

theorem dropTrailingBlanks_of_last (h : ∀ c, cs.getLast? = some c → isBlank c = false) :
    dropTrailingBlanks cs = cs := by
  have hreverse : dropBlanks cs.reverse = cs.reverse :=
    dropBlanks_of_head fun c hc => h c (by rw [List.getLast?_eq_head?_reverse, hc])
  have hdrop : dropTrailingBlanks cs = (dropBlanks cs.reverse).reverse := rfl
  rw [hdrop, hreverse, List.reverse_reverse]

theorem trimmed_trimChars (cs : List Char) : Trimmed (trimChars cs) where
  head c hc := by
    have hprefix : trimChars cs <+: dropBlanks cs := List.rdropWhile_prefix isBlank _
    obtain ⟨rest, hrest⟩ := hprefix
    have hhead : (dropBlanks cs).head? = some c := by
      rw [← hrest, List.head?_append, hc]
      rfl
    exact isBlank_of_head?_dropBlanks hhead
  last c hc := by
    rw [List.getLast?_eq_head?_reverse, trimChars, dropTrailingBlanks, List.reverse_reverse] at hc
    exact isBlank_of_head?_dropBlanks hc

theorem Trimmed.trimChars_eq (h : Trimmed cs) : trimChars cs = cs := by
  rw [trimChars, dropBlanks_of_head h.head, dropTrailingBlanks_of_last h.last]

theorem trim_of_trimmed {s : String} (h : Trimmed s.toList) : trim s = s := by
  rw [trim, h.trimChars_eq, String.ofList_toList]

theorem toList_trim (s : String) : (trim s).toList = trimChars s.toList := String.toList_ofList

theorem mem_of_mem_trimChars {c : Char} (h : c ∈ trimChars cs) : c ∈ cs := by
  have hkept : trimChars cs <+: dropBlanks cs := List.rdropWhile_prefix isBlank _
  exact (List.dropWhile_sublist isBlank).subset (hkept.subset h)

/-- A run of characters of a class goes as far as the first that is not of the class. -/
theorem run_of_stop {f : Char → Bool} {run : List Char} (h : ∀ c ∈ run, f c = true)
    (rest : List Char) {stop : Char} (hstop : f stop = false) :
    (run ++ stop :: rest).takeWhile f = run ∧ (run ++ stop :: rest).dropWhile f = stop :: rest := by
  have hstop := Bool.eq_false_iff.mp hstop
  rw [List.takeWhile_append_of_pos h, List.dropWhile_append_of_pos h,
    List.takeWhile_cons_of_neg hstop, List.dropWhile_cons_of_neg hstop, List.append_nil]
  exact ⟨rfl, rfl⟩

end RowContract.Text
