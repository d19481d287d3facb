import RowContract.Document.Selection
import RowContract.Proofs.Document.Nesting

/-!
Documents with one more element that stands around no other.  The elements behind it move on by one
place, and the links to them with them.  What stands inside what stays the same, and a search that
passes over the new element ends at the element that it ended at before.
-/

namespace RowContract

/-- Where an index goes when something is put in at a position. -/
def shift (k i : Nat) : Nat := if i < k then i else i + 1

section
variable (k : Nat) {i j : Nat}

theorem shift_lt_shift_iff : shift k i < shift k j ↔ i < j := by
  unfold shift
  split <;> split <;> omega

theorem shift_le_shift_iff : shift k i ≤ shift k j ↔ i ≤ j := by
  unfold shift
  split <;> split <;> omega

theorem shift_injective : Function.Injective (shift k) := by
  intro i j h
  unfold shift at h
  split at h <;> split at h <;> omega

end

theorem shift_of_lt {k i : Nat} (h : i < k) : shift k i = i := if_pos h

theorem shift_of_le {k i : Nat} (h : k ≤ i) : shift k i = i + 1 := if_neg (by omega)

/-- An index is that of the new place, or it comes from before. -/
theorem eq_or_exists_shift (k j : Nat) : j = k ∨ ∃ i, j = shift k i := by
  unfold shift
  rcases Nat.lt_trichotomy j k with hj | hj | hj
  · exact .inr ⟨j, (if_pos hj).symm⟩
  · exact .inl hj
  · exact .inr ⟨j - 1, by split <;> omega⟩

/-- What stood in a list stands at the shifted index when something is put in. -/
theorem getElem?_shift {α : Type} (before : List α) (a : α) (after : List α) (i : Nat) :
    (before ++ a :: after)[shift before.length i]? = (before ++ after)[i]? := by
  unfold shift
  split
  next hi => rw [List.getElem?_append_left hi, List.getElem?_append_left hi]
  next hi =>
    rw [List.getElem?_append_right (by omega), List.getElem?_append_right (by omega),
      show i + 1 - before.length = i - before.length + 1 by omega, List.getElem?_cons_succ]

/-- So an entry goes to the shifted index, whatever becomes of its item. -/
theorem zipIdx_shift {α β : Type} (f : α → β) (before after : List α) (b : β) :
    ((before.map f) ++ b :: after.map f).zipIdx =
      before.zipIdx.map (fun e => (f e.1, shift before.length e.2)) ++ (b, before.length) ::
        (after.zipIdx before.length).map (fun e => (f e.1, shift before.length e.2)) := by
  have hbefore : (before.map f).zipIdx =
      before.zipIdx.map fun e => (f e.1, shift before.length e.2) := by
    rw [List.zipIdx_map]
    refine List.map_congr_left fun e he => ?_
    have hlt := List.snd_lt_add_of_mem_zipIdx he
    rw [shift_of_lt (by omega)]
    rfl
  have hafter : (after.map f).zipIdx (before.length + 1) =
      (after.zipIdx before.length).map fun e => (f e.1, shift before.length e.2) := by
    rw [List.zipIdx_map, List.zipIdx_succ, List.map_map]
    refine List.map_congr_left fun e he => ?_
    rw [shift_of_le (List.le_snd_of_mem_zipIdx he)]
    rfl
  rw [List.zipIdx_append, List.zipIdx_cons, List.length_map, Nat.zero_add, hbefore, hafter]

/-- An element whose link follows the element around it. -/
def Element.shifted (k : Nat) (e : Element) : Element := { e with parent := e.parent.map (shift k) }

namespace Document

def insertAt (d : Document) (k : Nat) (e : Element) : Document :=
  ⟨(d.elements.take k).map (Element.shifted k) ++ e :: (d.elements.drop k).map (Element.shifted k)⟩

def shiftEntry (k : Nat) (entry : Entry) : Entry := (entry.1.shifted k, shift k entry.2)

/-- An element can be put in: the parents of a document precede their children, and its own parent
stands before it. -/
structure TakesLeaf (d : Document) (k : Nat) (e : Element) : Prop where
  precede : d.ParentsPrecede
  position : k ≤ d.size
  parent : ∀ p, e.parent = some p → p < k

/-! ### Single elements -/

section
variable {d : Document} {k : Nat} (hk : k ≤ d.size) (e : Element)
include hk

theorem length_take : (d.elements.take k).length = k := by
  rw [List.length_take]
  exact Nat.min_eq_left hk

theorem element?_insertAt_self : (d.insertAt k e).element? k = some e := by
  have hlength : ((d.elements.take k).map (Element.shifted k)).length = k := by
    rw [List.length_map, length_take hk]
  unfold element? insertAt
  rw [List.getElem?_append_right (by omega), hlength, Nat.sub_self]
  rfl

theorem element?_insertAt_shift (i : Nat) :
    (d.insertAt k e).element? (shift k i) = (d.element? i).map (Element.shifted k) := by
  have hget := getElem?_shift ((d.elements.take k).map (Element.shifted k)) e
    ((d.elements.drop k).map (Element.shifted k)) i
  rw [List.length_map, length_take hk, ← List.map_append, List.take_append_drop,
    List.getElem?_map] at hget
  exact hget

theorem parent?_insertAt_shift (i : Nat) :
    (d.insertAt k e).parent? (shift k i) = (d.parent? i).map (shift k) := by
  unfold parent?
  rw [element?_insertAt_shift hk]
  cases d.element? i <;> rfl

theorem ancestor?_insertAt_shift (i n : Nat) :
    (d.insertAt k e).ancestor? (shift k i) n = (d.ancestor? i n).map (shift k) := by
  induction n with
  | zero => rfl
  | succ n ih =>
      rw [ancestor?, ih, ancestor?]
      cases d.ancestor? i n with
      | none => rfl
      | some a => exact parent?_insertAt_shift hk e a

end

section
variable {d : Document} {k : Nat} {e : Element} (h : d.TakesLeaf k e)
include h

theorem TakesLeaf.parentsPrecede : (d.insertAt k e).ParentsPrecede := by
  intro e' j hmem p hp
  rw [entries, List.mem_zipIdx_iff_getElem?] at hmem
  change (d.insertAt k e).element? j = some e' at hmem
  rcases eq_or_exists_shift k j with rfl | ⟨i, rfl⟩
  · rw [element?_insertAt_self h.position] at hmem
    obtain rfl := Option.some.inj hmem
    exact h.parent p hp
  · rw [element?_insertAt_shift h.position] at hmem
    obtain ⟨old, hold, rfl⟩ := Option.map_eq_some_iff.mp hmem
    obtain ⟨q, hq, rfl⟩ := Option.map_eq_some_iff.mp hp
    have hparent : d.parent? i = some q := by
      rw [parent?, hold]
      exact hq
    exact (shift_lt_shift_iff k).mpr (h.precede.lt_of_parent? hparent)

/-- What stands inside what stays the same. -/
theorem TakesLeaf.isWithin_shift (i a : Nat) :
    (d.insertAt k e).isWithin (shift k i) (shift k a) = d.isWithin i a := by
  have hancestor (n : Nat) : (d.insertAt k e).ancestor? (shift k i) n = some (shift k a) ↔
      d.ancestor? i n = some a := by
    rw [ancestor?_insertAt_shift h.position, Option.map_eq_some_iff]
    constructor
    · rintro ⟨b, hb, heq⟩
      rwa [← shift_injective k heq]
    · exact fun ha => ⟨a, ha, rfl⟩
  rw [Bool.eq_iff_iff, h.parentsPrecede.isWithin_iff, h.precede.isWithin_iff]
  exact exists_congr hancestor

end

/-! ### Searches -/

section
variable {d : Document} {k : Nat} (hk : k ≤ d.size) (e : Element)
include hk

theorem entries_insertAt :
    ∃ before after, d.entries = before ++ after ∧
      (d.insertAt k e).entries =
        before.map (shiftEntry k) ++ (e, k) :: after.map (shiftEntry k) := by
  refine ⟨(d.elements.take k).zipIdx, (d.elements.drop k).zipIdx k, ?_, ?_⟩
  · have hsplit := @List.zipIdx_append _ (d.elements.take k) (d.elements.drop k) 0
    rw [List.take_append_drop, length_take hk, Nat.zero_add] at hsplit
    exact hsplit
  · have hinsert := zipIdx_shift (Element.shifted k) (d.elements.take k) (d.elements.drop k) e
    rw [length_take hk] at hinsert
    exact hinsert

/-- Entries that pass over the new element are the entries from before. -/
theorem filter_insertAt {p : Entry → Bool} (hp : p (e, k) = false) :
    (d.insertAt k e).entries.filter p =
      (d.entries.filter fun entry => p (shiftEntry k entry)).map (shiftEntry k) := by
  obtain ⟨before, after, hbefore, hafter⟩ := entries_insertAt hk e
  rw [hafter, hbefore, List.filter_append, List.filter_cons_of_neg (by simp [hp]),
    List.filter_append, List.map_append, List.filter_map, List.filter_map]
  rfl

/-- A search that passes over the new element ends where it did. -/
theorem find?_insertAt {p : Entry → Bool} (hp : p (e, k) = false) :
    (d.insertAt k e).entries.find? p =
      (d.entries.find? fun entry => p (shiftEntry k entry)).map (shiftEntry k) := by
  rw [← List.head?_filter, ← List.head?_filter, filter_insertAt hk e hp, List.head?_map]

section
variable {path : String} (hpath : e.path ≠ path)
include hpath

theorem entriesAt_insertAt :
    (d.insertAt k e).entriesAt path = (d.entriesAt path).map (shiftEntry k) :=
  filter_insertAt hk e (beq_eq_false_iff_ne.mpr hpath)

theorem first?_insertAt :
    (d.insertAt k e).first? path = (d.first? path).map (shiftEntry k) :=
  find?_insertAt hk e (beq_eq_false_iff_ne.mpr hpath)

end

end

theorem TakesLeaf.firstWithin?_shift {d : Document} {k : Nat} {e : Element} (h : d.TakesLeaf k e)
    {path : String} (hpath : e.path ≠ path) (scope : Nat) :
    (d.insertAt k e).firstWithin? path (shift k scope) =
      (d.firstWithin? path scope).map (shiftEntry k) := by
  have hnew : (e.path == path && (d.insertAt k e).isWithin k (shift k scope)) = false := by
    rw [beq_eq_false_iff_ne.mpr hpath, Bool.false_and]
  refine (find?_insertAt h.position e hnew).trans ?_
  simp only [shiftEntry, h.isWithin_shift]
  rfl

/-! ### Selections -/

section
variable (k : Nat) (identity : Option String)

theorem place_shiftEntry (c : Entry) (selected : List Entry) :
    place identity (shiftEntry k c) (selected.map (shiftEntry k)) =
      (place identity c selected).map (shiftEntry k) := by
  induction selected with
  | nil => rfl
  | cons s rest ih =>
      rw [List.map_cons, place, place, ih, apply_ite (List.map (shiftEntry k))]
      rfl

/-- Which candidates count does not depend on where they stand. -/
theorem selectLast_shiftEntry (candidates : List Entry) :
    selectLast identity (candidates.map (shiftEntry k)) =
      (selectLast identity candidates).map (shiftEntry k) := by
  have hfold (selected : List Entry) :
      (candidates.map (shiftEntry k)).foldl (fun selected c => place identity c selected)
        (selected.map (shiftEntry k)) =
      (candidates.foldl (fun selected c => place identity c selected) selected).map
        (shiftEntry k) := by
    induction candidates generalizing selected with
    | nil => rfl
    | cons c rest ih => rw [List.map_cons, List.foldl_cons, place_shiftEntry, ih, List.foldl_cons]
  exact hfold []

theorem lastWith?_shiftEntry (name : String) (candidates : List Entry) :
    lastWith? name (candidates.map (shiftEntry k)) =
      (lastWith? name candidates).map (shiftEntry k) := by
  unfold lastWith?
  rw [List.filter_map, List.getLast?_map]
  rfl

end

section
variable {d : Document} {k : Nat} (hk : k ≤ d.size) {e : Element}
include hk

theorem selected_insertAt {rule : FilterRule} (hpath : e.path ≠ rule.xmlPath) :
    (d.insertAt k e).selected rule = (d.selected rule).map (shiftEntry k) := by
  unfold selected
  rw [entriesAt_insertAt hk e hpath, List.filter_map, selectLast_shiftEntry]
  rfl

theorem contacts_insertAt {roles : ContactRoles} (hpath : e.path ≠ roles.contactPath)
    (rule : Option FilterRule) : (d.insertAt k e).contacts roles rule = d.contacts roles rule := by
  funext role name
  unfold contacts
  rw [entriesAt_insertAt hk e hpath, List.filter_map]
  dsimp only
  rw [lastWith?_shiftEntry, Option.bind_map]
  rfl

end

end Document

end RowContract
