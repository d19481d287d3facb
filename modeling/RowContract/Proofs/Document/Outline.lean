import RowContract.Document.Basic

/-!
Documents that have the same elements at the same places.  Places are paths and parents;
what is said about a document by places alone, such as what is inside what and where a
search ends, is then the same in both.
-/

namespace RowContract

/-- Where an element stands: its path and the index of the element around it. -/
def Element.outline (e : Element) : String × Option Nat := (e.path, e.parent)

namespace Document

/-- Two documents have elements at the same places, with the same attributes but for those inside
the element at `scope`. -/
structure AgreeOutside (d₁ : Document) (scope : Nat) (d₂ : Document) : Prop where
  outline : d₁.elements.map Element.outline = d₂.elements.map Element.outline
  outside : ∀ i < d₁.size, d₁.isWithin i scope = false → d₁.element? i = d₂.element? i

instance (scope : Nat) (d₁ d₂ : Document) : Decidable (AgreeOutside d₁ scope d₂) :=
  decidable_of_iff (d₁.elements.map Element.outline = d₂.elements.map Element.outline ∧
      ∀ i < d₁.size, d₁.isWithin i scope = false → d₁.element? i = d₂.element? i)
    ⟨fun h => ⟨h.1, h.2⟩, fun h => ⟨h.outline, h.outside⟩⟩

def outlineEntry (entry : Entry) : (String × Option Nat) × Nat := (entry.1.outline, entry.2)

section
variable {d₁ d₂ : Document} (h : d₁.elements.map Element.outline = d₂.elements.map Element.outline)
include h

theorem size_eq_of_outline : d₁.size = d₂.size := by
  have hlength := congrArg List.length h
  rw [List.length_map, List.length_map] at hlength
  exact hlength

theorem element?_outline (i : Nat) :
    (d₁.element? i).map Element.outline = (d₂.element? i).map Element.outline := by
  unfold element?
  rw [← List.getElem?_map, ← List.getElem?_map, h]

theorem parent?_eq_of_outline (i : Nat) : d₁.parent? i = d₂.parent? i := by
  have hparent (d : Document) :
      d.parent? i = ((d.element? i).map Element.outline).bind Prod.snd := by
    unfold parent?
    cases d.element? i <;> rfl
  rw [hparent d₁, hparent d₂, element?_outline h]

theorem isWithin_eq_of_outline (i scope : Nat) : d₁.isWithin i scope = d₂.isWithin i scope := by
  have hreaches (steps : Nat) : d₁.reaches scope steps i = d₂.reaches scope steps i := by
    induction steps generalizing i with
    | zero => rfl
    | succ steps ih =>
        rw [reaches, reaches, parent?_eq_of_outline h]
        cases d₂.parent? i with
        | none => rfl
        | some p => exact congrArg (i == scope || ·) (ih p)
  unfold isWithin
  rw [size_eq_of_outline h, hreaches]

theorem entries_outline : d₁.entries.map outlineEntry = d₂.entries.map outlineEntry := by
  have hentries (d : Document) :
      d.entries.map outlineEntry = (d.elements.map Element.outline).zipIdx := by
    unfold entries
    rw [List.zipIdx_map]
    rfl
  rw [hentries d₁, hentries d₂, h]

/-- A search that goes by places ends at the same place. -/
theorem find?_outline (p : (String × Option Nat) × Nat → Bool) :
    (d₁.entries.find? (p ∘ outlineEntry)).map outlineEntry =
      (d₂.entries.find? (p ∘ outlineEntry)).map outlineEntry := by
  rw [← List.find?_map, ← List.find?_map, entries_outline h]

end

theorem element?_of_mem_entries {d : Document} {e : Element} {i : Nat} (h : (e, i) ∈ d.entries) :
    d.element? i = some e := by
  rw [entries, List.mem_zipIdx_iff_getElem?] at h
  exact h

end Document

end RowContract
