import RowContract.Contract.Schema
import RowContract.Proofs.Json.Equality
import RowContract.Proofs.Json.Shape

/-!
What the checks of a schema ask of a value, and when the fields of a structure that is written pass
the checks for them.
-/

namespace RowContract.Schema

variable {check : Check} {v : Json}

theorem all_eq_nil_iff {checks : List Check} : all checks v = [] ↔ ∀ c ∈ checks, c v = [] :=
  List.flatMap_eq_nil_iff

theorem exists_fields_of_kind (h : kind [.object] v = []) : ∃ fields, v = .object fields := by
  cases v with
  | object fields => exact ⟨fields, rfl⟩
  | _ => cases h

theorem check_of_property {name : String} {fields : Fields Json}
    (h : property name check (.object fields) = []) (hv : fields.get? name = some v) :
    check v = [] := by
  rw [property, hv] at h
  exact h

theorem everyItem_eq_nil_iff {items : List Json} :
    everyItem check (.array items) = [] ↔ ∀ v ∈ items, check v = [] :=
  List.flatMap_eq_nil_iff

/-- The items of a list are read from what has passed the check of the items. -/
theorem check_of_readList {α : Type} {r : Json.Reader α} {as : List α}
    (h : all [kind [.array], everyItem check] v = []) (hread : Json.readList r v = .ok as) :
    ∀ a ∈ as, ∃ item, check item = [] ∧ r item = .ok a := by
  intro a ha
  obtain ⟨items, rfl, hitems⟩ := Json.readList_eq_ok hread
  obtain ⟨item, hitem, hitemRead⟩ := hitems a ha
  have hevery := everyItem_eq_nil_iff.mp (all_eq_nil_iff.mp h (everyItem check) (by simp))
  exact ⟨item, hevery item hitem, hitemRead⟩

theorem everyField_eq_nil_iff {fields : List (String × Json)} :
    everyField check (.object fields) = [] ↔ ∀ e ∈ fields, check e.2 = [] :=
  List.flatMap_eq_nil_iff

theorem atLeastOne_eq_nil_iff {n : Int} : atLeastOne (.number (.integer n)) = [] ↔ 1 ≤ n := by
  have hcheck : atLeastOne (.number (.integer n)) =
      if n < 1 then [.tooSmall (.number (.integer n))] else [] := rfl
  rw [hcheck, ite_eq_right_iff, ← Int.not_lt]
  exact ⟨fun h hlt => (List.cons_ne_nil _ _) (h hlt), fun h hlt => absurd hlt h⟩

theorem alternatives_eq_nil {keyword : String} {checks : List Check} (hc : check ∈ checks)
    (h : check v = []) : alternatives keyword checks v = [] :=
  if_pos (List.any_eq_true.mpr ⟨check, hc, List.isEmpty_iff.mpr h⟩)

theorem everyItem_map {α : Type} {f : α → Json} {as : List α} (h : ∀ a ∈ as, check (f a) = []) :
    everyItem check (.array (as.map f)) = [] :=
  everyItem_eq_nil_iff.mpr (List.forall_mem_map.mpr h)

theorem list_map {α : Type} {f : α → Json} {as : List α} (h : ∀ a ∈ as, check (f a) = []) :
    all [kind [.array], everyItem check] (.array (as.map f)) = [] := by
  simp only [all_eq_nil_iff, List.forall_mem_cons]
  exact ⟨rfl, everyItem_map h, List.forall_mem_nil _⟩

theorem everyField_map {α : Type} {f : String × α → String × Json} {entries : Fields α}
    (h : ∀ e ∈ entries, check (f e).2 = []) : everyField check (.object (entries.map f)) = [] :=
  everyField_eq_nil_iff.mpr (List.forall_mem_map.mpr h)

/-! ### Texts -/

theorem name_eq_nil_iff {s : String} : name (.string s) = [] ↔ s ≠ "" := by
  have hname : name (.string s) = if s.isEmpty then [.tooShort (.string s)] else [] :=
    List.append_nil _
  rw [hname, ite_eq_right_iff, ne_eq, ← String.isEmpty_iff]
  exact ⟨fun h hempty => (List.cons_ne_nil _ _) (h hempty), fun h hempty => absurd hempty h⟩

theorem path_eq_nil_iff {s : String} : path (.string s) = [] ↔ s.toList.head? = some '/' := by
  have hpath : path (.string s) =
      if s.toList.head? == some '/' then [] else [.mismatch (.string s) "^/"] :=
    List.append_nil _
  rw [hpath, ite_eq_left_iff, beq_iff_eq]
  exact ⟨fun h => by_contra fun hne => (List.cons_ne_nil _ _) (h hne), fun h hne => absurd h hne⟩

theorem schemaName_eq_nil_iff {s : String} :
    schemaName (.string s) = [] ↔ isIdentifier s.toList = true := by
  have hpattern : matching "^[A-Za-z_][A-Za-z0-9_]*$" isIdentifier (.string s) =
      if isIdentifier s.toList = true then [] else
        [.mismatch (.string s) "^[A-Za-z_][A-Za-z0-9_]*$"] := rfl
  have hname : schemaName (.string s) = name (.string s) ++
      matching "^[A-Za-z_][A-Za-z0-9_]*$" isIdentifier (.string s) := by
    simp [schemaName, name, all]
  rw [hname, List.append_eq_nil_iff, name_eq_nil_iff, hpattern, ite_eq_left_iff]
  constructor
  · rintro ⟨-, h⟩
    exact by_contra fun hne => (List.cons_ne_nil _ _) (h hne)
  · intro h
    refine ⟨?_, fun hne => absurd h hne⟩
    rintro rfl
    cases h

theorem distinct_map_string {equal : JsonNumber → JsonNumber → Bool} (ss : List String) :
    distinct (Json.sameBy equal) (ss.map .string) = true ↔ ss.Nodup := by
  induction ss with
  | nil => exact iff_of_true rfl List.nodup_nil
  | cons s rest ih =>
      rw [List.map_cons, distinct, Bool.and_eq_true, ih, List.nodup_cons, List.all_eq_true]
      refine and_congr_left fun _ => ?_
      simp only [List.forall_mem_map, Json.sameBy_string, Bool.not_eq_true', beq_eq_false_iff_ne]
      exact ⟨fun h hmem => h s hmem rfl, fun h t ht heq => h (heq ▸ ht)⟩

theorem unique_eq_nil_iff {ss : List String} :
    unique (.array (ss.map .string)) = [] ↔ ss.Nodup := by
  unfold unique
  dsimp only
  rw [ite_eq_left_iff, distinct_map_string]
  exact ⟨fun h => by_contra fun hdup => (List.cons_ne_nil _ _) (h hdup),
    fun h hdup => absurd h hdup⟩

/-! ### Fields -/

open RowContract.Json

variable {slots : Slots} {n : String}

theorem property_some (hnodup : (slots.map Prod.fst).Nodup)
    (hslot : Fields.get? slots n = some (some v)) (h : check v = []) :
    property n check (.object (written slots)) = [] := by
  rw [property, get?_written hnodup, hslot]
  exact h

theorem property_map {α : Type} {f : α → Json} {setting : Option α}
    (hnodup : (slots.map Prod.fst).Nodup)
    (hslot : Fields.get? slots n = some (setting.map f)) (h : ∀ a ∈ setting, check (f a) = []) :
    property n check (.object (written slots)) = [] := by
  cases setting with
  | some a => exact property_some hnodup hslot (h a rfl)
  | none =>
      rw [property, get?_written hnodup, hslot]
      rfl

theorem property_missing (hnodup : (slots.map Prod.fst).Nodup)
    (hslot : Fields.get? slots n = none) : property n check (.object (written slots)) = [] := by
  rw [property, get?_written hnodup, hslot]
  rfl

theorem required_written (hnodup : (slots.map Prod.fst).Nodup) {names : List String}
    (h : ∀ n ∈ names, ∃ v, Fields.get? slots n = some (some v)) :
    required names (.object (written slots)) = [] := by
  rw [required, List.map_eq_nil_iff, List.filter_eq_nil_iff]
  intro n hn
  obtain ⟨v, hv⟩ := h n hn
  rw [Fields.contains, get?_written hnodup, hv]
  exact Bool.false_ne_true

/-! ### Fields that are read -/

section
variable {rules : List FieldRule} {structName : String} {fields fs : Fields Json} {α : Type}
  {r : Reader α} {a : α} (hrules : Unambiguous rules)
  (hplain : ∃ rule ∈ rules, rule.name = n ∧ rule.otherName = none)
  (hread : readStruct structName rules (.object fields) = .ok fs)
include hrules hplain hread

/-- A field that is needed is read from what has passed its check. -/
theorem check_of_require (h : property n check (.object fields) = [])
    (ha : require fs n r = .ok a) : ∃ w, check w = [] ∧ r w = .ok a := by
  obtain ⟨w, hw, hr⟩ := require_eq_ok ha
  exact ⟨w, check_of_property h (hrules.get?_of_readStruct hplain hread hw), hr⟩

/-- A field that may be missing is too, or it is the default. -/
theorem check_of_getOr {default : α} (h : property n check (.object fields) = [])
    (ha : getOr fs n r default = .ok a) : a = default ∨ ∃ w, check w = [] ∧ r w = .ok a := by
  refine (getOr_eq_ok ha).imp_right fun ⟨w, hw, hr⟩ => ?_
  exact ⟨w, check_of_property h (hrules.get?_of_readStruct hplain hread hw), hr⟩

theorem ne_empty_of_require {s : String} (h : property n name (.object fields) = [])
    (hs : require fs n readText = .ok s) : s ≠ "" := by
  obtain ⟨w, hw, hr⟩ := check_of_require hrules hplain hread h hs
  obtain rfl := readText_eq_ok hr
  exact name_eq_nil_iff.mp hw

end

end RowContract.Schema
