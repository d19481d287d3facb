import RowContract.Document.Basic

/-!
Elements around elements.  Following the parents from an element leads to the elements
around it, one after the other.  Where every parent stands before its children the walk
ends, `isWithin` finds exactly the elements that it leads to, and of two of them the
nearer one has the larger index.
-/

namespace RowContract.Document

variable {d : Document} {i a b n : Nat}

instance (d : Document) : Decidable d.ParentsPrecede :=
  decidable_of_iff (∀ entry ∈ d.entries, ∀ p ∈ entry.1.parent, p < entry.2)
    ⟨fun h e i hmem p hp => h (e, i) hmem p hp,
      fun h entry hmem p hp => h entry.1 entry.2 hmem p hp⟩

/-- The element that a number of steps from an element to the one around it lead to. -/
def ancestor? (d : Document) (i : Nat) : Nat → Option Nat
  | 0 => some i
  | steps + 1 => (d.ancestor? i steps).bind d.parent?

theorem ancestor?_add (d : Document) (i m n : Nat) :
    d.ancestor? i (m + n) = (d.ancestor? i m).bind fun b => d.ancestor? b n := by
  induction n with
  | zero =>
      simp only [Nat.add_zero, ancestor?]
      cases d.ancestor? i m <;> rfl
  | succ n ih =>
      rw [← Nat.add_assoc, ancestor?, ih]
      cases d.ancestor? i m <;> rfl

theorem ancestor?_succ (d : Document) (i n : Nat) :
    d.ancestor? i (n + 1) = (d.parent? i).bind fun p => d.ancestor? p n := by
  rw [Nat.add_comm, ancestor?_add]
  rfl

/-- A bounded walk finds what is no more steps away than the bound. -/
theorem reaches_iff (d : Document) (a steps i : Nat) :
    d.reaches a steps i = true ↔ ∃ n ≤ steps, d.ancestor? i n = some a := by
  induction steps generalizing i with
  | zero => simp [reaches, ancestor?]
  | succ steps ih =>
      have hsplit : (∃ n ≤ steps + 1, d.ancestor? i n = some a) ↔
          i = a ∨ ∃ n ≤ steps, d.ancestor? i (n + 1) = some a := by
        constructor
        · rintro ⟨n, hn, ha⟩
          cases n with
          | zero => exact .inl (Option.some.inj ha)
          | succ n => exact .inr ⟨n, by omega, ha⟩
        · rintro (rfl | ⟨n, hn, ha⟩)
          · exact ⟨0, by omega, rfl⟩
          · exact ⟨n + 1, by omega, ha⟩
      rw [hsplit, reaches]
      simp only [Bool.or_eq_true, beq_iff_eq, ancestor?_succ]
      cases d.parent? i with
      | none => simp
      | some p => simp only [Option.bind_some, ih]

theorem ParentsPrecede.lt_of_parent? (hd : d.ParentsPrecede) (h : d.parent? i = some a) :
    a < i := by
  obtain ⟨e, he, ha⟩ := Option.bind_eq_some_iff.mp h
  refine hd e i ?_ a ha
  rw [entries, List.mem_zipIdx_iff_getElem?]
  exact he

/-- Every step goes to an earlier element. -/
theorem ParentsPrecede.add_le_of_ancestor? (hd : d.ParentsPrecede)
    (h : d.ancestor? i n = some a) : a + n ≤ i := by
  induction n generalizing a with
  | zero =>
      have ha : i = a := Option.some.inj h
      omega
  | succ n ih =>
      obtain ⟨b, hb, ha⟩ := Option.bind_eq_some_iff.mp h
      have hle := ih hb
      have hlt := hd.lt_of_parent? ha
      omega

/-- An element is within another exactly if some number of steps lead from it to that one. -/
theorem ParentsPrecede.isWithin_iff (hd : d.ParentsPrecede) (i a : Nat) :
    d.isWithin i a = true ↔ ∃ n, d.ancestor? i n = some a := by
  rw [isWithin, reaches_iff]
  constructor
  · rintro ⟨n, -, ha⟩
    exact ⟨n, ha⟩
  · rintro ⟨n, ha⟩
    refine ⟨n, ?_, ha⟩
    cases n with
    | zero => exact Nat.zero_le _
    | succ n =>
        have hle := hd.add_le_of_ancestor? ha
        -- An element that something stands around is one of the document.
        have hi : i < d.size := by
          rw [ancestor?_succ] at ha
          obtain ⟨p, hp, -⟩ := Option.bind_eq_some_iff.mp ha
          obtain ⟨e, he, -⟩ := Option.bind_eq_some_iff.mp hp
          exact (List.getElem?_eq_some_iff.mp he).1
        omega

/-- The nearer of two elements around one has the larger index. -/
theorem ParentsPrecede.ancestor?_lt (hd : d.ParentsPrecede) {m : Nat} (hmn : m < n)
    (hb : d.ancestor? i m = some b) (ha : d.ancestor? i n = some a) : a < b := by
  have hsteps : d.ancestor? b (n - m) = some a := by
    rw [show n = m + (n - m) by omega, ancestor?_add, hb] at ha
    exact ha
  have hle := hd.add_le_of_ancestor? hsteps
  omega

end RowContract.Document
