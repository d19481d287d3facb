import RowContract.Decimal.Basic
import RowContract.Binary64.Basic

/-!
Between decimals and doubles.  A double that is a multiple of its unit is kept as
it is.  Any other becomes a decimal by trading halvings for places within 96
bits, after which the digits beyond what a double carries are rounded away one by
one, a half going up; the sign stays even where no digit is left.  A decimal
becomes a double by its whole part and its places apart.
-/

namespace RowContract.Decimal

open RowContract.Binary64

/-- A coefficient and the power of ten it is to be multiplied by. -/
structure Scaled where
  coefficient : Nat
  exponent : Int

/-- Trade `k` halvings for places: a halving of an odd coefficient is a multiplication by five
and one more place, while that fits in 96 bits. -/
def Scaled.halve (s : Scaled) : Nat → Scaled
  | 0 => s
  | k + 1 =>
    if s.coefficient % 2 = 1 ∧ s.coefficient * 5 < Nat.pow 2 96 then
      Scaled.halve { s with coefficient := s.coefficient * 5 } k
    else Scaled.halve ⟨s.coefficient / 2, s.exponent + 1⟩ k

def Scaled.dropDigit (s : Scaled) : Scaled :=
  ⟨s.coefficient / 10 + (if 5 ≤ s.coefficient % 10 then 1 else 0), s.exponent + 1⟩

/-- Drop `k` digits that lie beyond the last place; a coefficient of one digit becomes zero. -/
def Scaled.limitPlaces (s : Scaled) : Nat → Scaled
  | 0 => s
  | k + 1 => if s.coefficient < 10 then ⟨0, 0⟩ else s.dropDigit.limitPlaces k

/-- Drop digits after the point until the coefficient has no more bits than the fraction of a
double. -/
def Scaled.limitDigits (s : Scaled) : Nat → Scaled
  | 0 => s
  | k + 1 =>
    if s.exponent < 0 ∧ Nat.pow 2 52 ≤ s.coefficient then s.dropDigit.limitDigits k else s

/-- The decimal that stands for a finite double; none beyond the range of decimals. -/
def ofFloat? (x : Float) : Option Decimal :=
  match meaning x with
  | .finite ⟨negative, significand, exponent⟩ =>
    if 0 ≤ exponent then signed? negative (significand * Nat.pow 2 exponent.toNat) 0
    else if significand = 0 then signed? negative 0 0
    else
      let s := Scaled.halve ⟨significand, exponent⟩ (-exponent).toNat
      let s := s.limitPlaces (-28 - s.exponent).toNat
      let s := s.limitDigits 28
      let (magnitude, places) := stripZeros s.coefficient (-s.exponent).toNat
      signed? negative magnitude places
  | _ => none

/-- The double for a decimal.  With places, whole part and places are converted apart, added, and
the sum is rounded to the places. -/
def toFloat (d : Decimal) : Float :=
  let n := d.magnitude
  let sign := fun (x : Float) => if d.negative then -x else x
  if d.scale = 0 then ofInt d.coefficient
  else
    let unit := Nat.pow 10 d.scale
    let whole := ofInt (n / unit : Nat)
    let fraction := ofInt (n % unit : Nat) / ofInt (unit : Nat)
    if fraction == 0 then sign whole
    else
      let power := ofInt (unit : Nat)
      sign (((whole + fraction) * power).round / power)

end RowContract.Decimal
