import RowContract.Text.Digits

/-!
Exact decimal numbers with at most 28 places and a magnitude of at most 96 bits.
The places are part of the number's text, so `1.5` and `1.50` are two decimals
of the same amount; `same` compares amounts.  The sign is kept apart from the
digits: an amount too small for the places is a zero that remembers its sign.
-/

namespace RowContract

/-- The number `magnitude / 10 ^ scale`, with its sign. -/
structure Decimal where
  negative : Bool
  magnitude : Nat
  scale : Nat
  magnitude_lt : magnitude < Nat.pow 2 96
  scale_le : scale ≤ 28
  deriving DecidableEq

namespace Decimal

def signed? (negative : Bool) (magnitude scale : Nat) : Option Decimal :=
  if h : magnitude < Nat.pow 2 96 ∧ scale ≤ 28 then some ⟨negative, magnitude, scale, h.1, h.2⟩
  else none

/-- The decimal `coefficient / 10 ^ scale`, when it is within the limits; a zero has no sign. -/
def make? (coefficient : Int) (scale : Nat) : Option Decimal :=
  signed? (decide (coefficient < 0)) coefficient.natAbs scale

def zero : Decimal := ⟨false, 0, 0, by decide, by decide⟩

def coefficient (d : Decimal) : Int := if d.negative then -(d.magnitude : Int) else d.magnitude

instance : Inhabited Decimal := ⟨zero⟩

def ofInt? (n : Int) : Option Decimal := make? n 0

def same (a b : Decimal) : Bool :=
  a.coefficient * Nat.pow 10 b.scale == b.coefficient * Nat.pow 10 a.scale

def truncate (d : Decimal) : Int := d.coefficient.tdiv (Nat.pow 10 d.scale)

theorem halfUp_le (n k : Nat) (hk : 0 < k) : (n + 5 * Nat.pow 10 (k - 1)) / Nat.pow 10 k ≤ n := by
  obtain ⟨j, rfl⟩ : ∃ j, k = j + 1 := ⟨k - 1, by omega⟩
  have hp : 0 < Nat.pow 10 (j + 1) := Nat.pow_pos (by decide)
  have hsucc : Nat.pow 10 (j + 1) = Nat.pow 10 j * 10 := rfl
  rcases Nat.eq_zero_or_pos n with rfl | hn
  · have hj : 0 < Nat.pow 10 j := Nat.pow_pos (by decide)
    have hlt : 0 + 5 * Nat.pow 10 (j + 1 - 1) < Nat.pow 10 (j + 1) := by
      rw [Nat.add_sub_cancel, hsucc]
      omega
    exact Nat.le_of_eq (Nat.div_eq_of_lt hlt)
  · refine Nat.le_of_lt_succ ((Nat.div_lt_iff_lt_mul hp).2 ?_)
    rw [Nat.add_sub_cancel, hsucc]
    have hj : 0 < Nat.pow 10 j := Nat.pow_pos (by decide)
    have : n + 5 * Nat.pow 10 j < n * (Nat.pow 10 j * 10) + 1 * (Nat.pow 10 j * 10) := by
      have h1 : n * 1 ≤ n * (Nat.pow 10 j * 10) := Nat.mul_le_mul_left n (by omega)
      omega
    rwa [← Nat.add_mul] at this

/-- Round to the given places, a half going away from zero.  A number with no more places than
that stays as it is.  An amount that is rounded to zero loses its sign; a zero keeps it. -/
def round (d : Decimal) (places : Nat) : Decimal :=
  if h : d.scale ≤ places then d
  else
    let k := d.scale - places
    let magnitude := (d.magnitude + 5 * Nat.pow 10 (k - 1)) / Nat.pow 10 k
    { negative := d.negative && (d.magnitude == 0 || magnitude != 0)
      magnitude := magnitude
      scale := places
      magnitude_lt := Nat.lt_of_le_of_lt (halfUp_le _ _ (by simp only [k]; omega)) d.magnitude_lt
      scale_le := by have := d.scale_le; omega }

/-- Strip trailing zeros among the places, `scale` of them at most. -/
def stripZeros (magnitude : Nat) : Nat → Nat × Nat
  | 0 => (magnitude, 0)
  | scale + 1 =>
    if magnitude % 10 = 0 then stripZeros (magnitude / 10) scale
    else (magnitude, scale + 1)

/-- The same amount with as few places as possible, and no sign at zero. -/
def normalize (d : Decimal) : Decimal :=
  let (magnitude, scale) := stripZeros d.magnitude d.scale
  (signed? (d.negative && magnitude != 0) magnitude scale).getD d

/-- The text of a decimal: a sign if negative, the whole part, and as many places as it has. -/
def text (d : Decimal) : String :=
  let whole := Text.digits (d.magnitude / Nat.pow 10 d.scale)
  let places :=
    if d.scale = 0 then [] else '.' :: Text.padded d.scale (d.magnitude % Nat.pow 10 d.scale)
  String.ofList ((if d.negative then ['-'] else []) ++ whole ++ places)

theorem scale_round_le (d : Decimal) (places : Nat) : (d.round places).scale ≤ places := by
  unfold round
  split
  · assumption
  · exact Nat.le_refl _

theorem round_of_scale_le {d : Decimal} {places : Nat} (h : d.scale ≤ places) :
    d.round places = d := by
  simp [round, h]

end Decimal

end RowContract
