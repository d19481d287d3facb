import RowContract.Json.Equality

/-!
Equality of JSON values under a comparison of numbers: texts are compared as they are, and where
numbers that count as equal are the same, values that count as equal are the same.
-/

namespace RowContract

/-- Two integers that are the same; doubles count as equal to nothing. -/
def JsonNumber.sameInteger : JsonNumber → JsonNumber → Bool
  | .integer a, .integer b => a == b
  | _, _ => false

theorem JsonNumber.eq_of_sameInteger (m n : JsonNumber) (h : sameInteger m n = true) : m = n := by
  cases m with
  | integer a =>
      cases n with
      | integer b => rw [sameInteger, beq_iff_eq] at h; rw [h]
      | double y => cases h
  | double x => cases h

namespace Json

variable {equal : JsonNumber → JsonNumber → Bool}

theorem sameBy_string (equal : JsonNumber → JsonNumber → Bool) (s t : String) :
    sameBy equal (.string s) (.string t) = (s == t) := by
  rw [sameBy]

mutual

theorem eq_of_sameBy (hequal : ∀ m n, equal m n = true → m = n) :
    ∀ v w : Json, sameBy equal v w = true → v = w
  | .null, w, h => by cases w <;> first | rfl | cases h
  | .bool a, w, h => by
      cases w with
      | bool b => rw [sameBy, beq_iff_eq] at h; rw [h]
      | _ => cases h
  | .number m, w, h => by
      cases w with
      | number n => rw [sameBy] at h; rw [hequal m n h]
      | _ => cases h
  | .string s, w, h => by
      cases w with
      | string t => rw [sameBy, beq_iff_eq] at h; rw [h]
      | _ => cases h
  | .array items, w, h => by
      cases w with
      | array others => rw [sameBy] at h; rw [eq_of_sameItems hequal items others h]
      | _ => cases h
  | .object fields, w, h => by
      cases w with
      | object others => rw [sameBy] at h; rw [eq_of_sameEntries hequal fields others h]
      | _ => cases h

theorem eq_of_sameItems (hequal : ∀ m n, equal m n = true → m = n) :
    ∀ items others : List Json, sameItems equal items others = true → items = others
  | [], others, h => by
      cases others with
      | nil => rfl
      | cons _ _ => cases h
  | v :: rest, others, h => by
      cases others with
      | nil => cases h
      | cons w others =>
          rw [sameItems, Bool.and_eq_true] at h
          rw [eq_of_sameBy hequal v w h.1, eq_of_sameItems hequal rest others h.2]

theorem eq_of_sameEntries (hequal : ∀ m n, equal m n = true → m = n) :
    ∀ fields others : List (String × Json), sameEntries equal fields others = true →
      fields = others
  | [], others, h => by
      cases others with
      | nil => rfl
      | cons _ _ => cases h
  | (name, v) :: rest, others, h => by
      cases others with
      | nil => cases h
      | cons other others =>
          obtain ⟨name', w⟩ := other
          rw [sameEntries, Bool.and_eq_true, Bool.and_eq_true, beq_iff_eq] at h
          obtain ⟨⟨hname, hvalue⟩, hrest⟩ := h
          rw [hname, eq_of_sameBy hequal v w hvalue, eq_of_sameEntries hequal rest others hrest]

end

end Json

end RowContract
