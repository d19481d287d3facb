import RowContract.Expr.Fault
import RowContract.Proofs.Outcome

/-!
Reading by places.  Instead of taking items from the front of a list one can keep the whole list and
a place in it, a number that grows.  Then there are steps that may be impossible: to go back from
the first place, to take a part that ends before it begins.  Here such a step ends the reading with
a `Stop` of its own, so that a reading without one has made none of them.

What is found carries a bound for the place behind it.  A reading that goes on from there needs no
other argument to come to an end.
-/

namespace RowContract.Expr.Positions

inductive Stop where
  /-- One was to be taken from zero. -/
  | belowZero
  /-- A part was to be taken that ends before it begins, or that goes beyond the end. -/
  | noPart (first last : Nat)
  /-- The characters of a numeral name no number. -/
  | noNumber (lexeme : List Char)
  /-- What is read is refused. -/
  | refused (fault : Fault)

/-- What was found, and the place behind it, with bounds on both sides. -/
structure Found (α : Type) (least most : Nat) where
  value : α
  next : Nat
  least_le : least ≤ next
  le_most : next ≤ most

/-! ### Steps that may be impossible -/

def before : Nat → Except Stop Nat
  | 0 => .error .belowZero
  | n + 1 => .ok n

def part {ι : Type} (items : List ι) (first last : Nat) : Except Stop (List ι) :=
  if first ≤ last ∧ last ≤ items.length then .ok ((items.take last).drop first)
  else .error (.noPart first last)

def take? {ι : Type} (items : List ι) (pos : Nat) : Option (Found ι (pos + 1) items.length) :=
  if h : pos < items.length then some ⟨items[pos], pos + 1, Nat.le_refl _, h⟩ else none

section
variable {ι : Type} {items : List ι} {pos : Nat}

theorem part_append (front middle back : List ι) :
    part (front ++ (middle ++ back)) front.length (front.length + middle.length) = .ok middle := by
  have hinside : front.length ≤ front.length + middle.length ∧
      front.length + middle.length ≤ (front ++ (middle ++ back)).length := by
    simp only [List.length_append]
    omega
  rw [part, if_pos hinside, ← List.append_assoc, ← List.length_append, List.take_left,
    List.drop_left]

/-- A run of items from a place on is a part. -/
theorem part_of_prefix {run : List ι} (hpos : pos ≤ items.length) (h : run <+: items.drop pos) :
    part items pos (pos + run.length) = .ok run := by
  obtain ⟨back, hback⟩ := h
  have hitems : items = items.take pos ++ (run ++ back) := by rw [hback, List.take_append_drop]
  have hfront : (items.take pos).length = pos := List.length_take_of_le hpos
  have hpart := part_append (items.take pos) run back
  rwa [← hitems, hfront] at hpart

theorem take?_of_drop_eq_nil (h : items.drop pos = []) : take? items pos = none :=
  dif_neg (Nat.not_lt.mpr (List.drop_eq_nil_iff.mp h))

theorem lt_length_of_drop_eq_cons {a : ι} {rest : List ι} (h : items.drop pos = a :: rest) :
    pos < items.length := by
  rw [← Nat.not_le, ← List.drop_eq_nil_iff, h]
  exact List.cons_ne_nil a rest

theorem take?_of_drop_eq_cons {a : ι} {rest : List ι} (h : items.drop pos = a :: rest) :
    take? items pos = some ⟨a, pos + 1, Nat.le_refl _, lt_length_of_drop_eq_cons h⟩ := by
  have hlt := lt_length_of_drop_eq_cons h
  rw [List.drop_eq_getElem_cons hlt] at h
  obtain ⟨rfl, -⟩ := List.cons.inj h
  exact dif_pos hlt

theorem drop_eq_cons_of_getElem? {a : ι} (h : items[pos]? = some a) :
    items.drop pos = a :: items.drop (pos + 1) := by
  obtain ⟨hlt, rfl⟩ := List.getElem?_eq_some_iff.mp h
  exact List.drop_eq_getElem_cons hlt

theorem drop_succ_of_drop_eq_cons {a : ι} {rest : List ι} (h : items.drop pos = a :: rest) :
    items.drop (pos + 1) = rest := by
  rw [← List.drop_drop, h]
  rfl

end

/-! ### The same found in both ways -/

/-- What is read from a place on is what is taken from the front of the items behind the place, or
both are refused for the same fault. -/
inductive Agrees {ι α ε : Type} (refuse : ε → Fault) {items : List ι} {least : Nat} :
    Except Stop (Found α least items.length) → Except ε (α × List ι) → Prop
  | found (x : Found α least items.length) :
      Agrees refuse (.ok x) (.ok (x.value, items.drop x.next))
  | refused (fault : ε) : Agrees refuse (.error (.refused (refuse fault))) (.error fault)

theorem Agrees.of_drop {ι α ε : Type} {refuse : ε → Fault} {items rest : List ι} {least : Nat}
    {x : Found α least items.length} (h : items.drop x.next = rest) :
    Agrees refuse (.ok x) (.ok (x.value, rest)) := h ▸ .found x

theorem Agrees.bind {ι α β ε : Type} {refuse : ε → Fault} {items : List ι} {least least' : Nat}
    {x : Except Stop (Found α least items.length)} {y : Except ε (α × List ι)}
    {f : Found α least items.length → Except Stop (Found β least' items.length)}
    {g : α × List ι → Except ε (β × List ι)} (h : Agrees refuse x y)
    (hf : ∀ found : Found α least items.length,
      Agrees refuse (f found) (g (found.value, items.drop found.next))) :
    Agrees refuse (x >>= f) (y >>= g) := by
  cases h with
  | found x => exact hf x
  | refused fault => exact .refused fault

end RowContract.Expr.Positions
