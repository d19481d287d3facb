/-!
Doubles taken apart and put together exactly.  A finite double is a sign and a
whole number of units `2 ^ exponent`; in the other direction any ratio of
naturals is rounded to the nearest double, an exact half going to the even
neighbour.  All rounding is done on naturals, so that it can be reasoned about.
-/

namespace RowContract.Binary64

/-- The value `± significand * 2 ^ exponent`. -/
structure Parts where
  negative : Bool
  significand : Nat
  exponent : Int
  deriving Repr, DecidableEq

inductive Meaning where
  | finite (parts : Parts)
  | infinite (negative : Bool)
  | nan
  deriving Repr, DecidableEq

/-- The reading of the 64 bits: one sign bit, eleven of exponent, 52 of fraction.  An exponent
field of zero has no leading bit. -/
def meaningOfBits (bits : Nat) : Meaning :=
  let negative := bits / Nat.pow 2 63 % 2 == 1
  let field : Nat := bits / Nat.pow 2 52 % Nat.pow 2 11
  let fraction := bits % Nat.pow 2 52
  if field = 2047 then
    if fraction = 0 then .infinite negative else .nan
  else if field = 0 then .finite ⟨negative, fraction, -1074⟩
  else .finite ⟨negative, Nat.pow 2 52 + fraction, (field : Int) - 1075⟩

def meaning (x : Float) : Meaning := meaningOfBits x.toBits.toNat

def isFinite (x : Float) : Bool :=
  match meaning x with
  | .finite _ => true
  | _ => false

/-- The whole number nearest to `num / den`; a half goes to the even neighbour. -/
def divHalfEven (num den : Nat) : Nat :=
  let q := num / den
  let r := num % den
  if 2 * r < den then q
  else if den < 2 * r then q + 1
  else if q % 2 = 0 then q else q + 1

/-- The exponent of the highest power of two that is at most `num / den`. -/
def floorLog2 (num den : Nat) : Int :=
  let guess : Int := (num.log2 : Int) - (den.log2 : Int)
  let reaches :=
    if 0 ≤ guess then den * Nat.pow 2 guess.toNat ≤ num else den ≤ num * Nat.pow 2 (-guess).toNat
  if reaches then guess else guess - 1

def infinityBits : Nat := 2047 * Nat.pow 2 52

/-- The bits, without the sign, of the double nearest to `num / den`.  Adding the rounded
significand to the shifted exponent field lets a carry move into the exponent by itself. -/
def magnitudeBits (num den : Nat) : Nat :=
  if num = 0 then 0
  else
    let unit := max (floorLog2 num den - 52) (-1074)
    let significand :=
      if 0 ≤ unit then divHalfEven num (den * Nat.pow 2 unit.toNat)
      else divHalfEven (num * Nat.pow 2 (-unit).toNat) den
    min infinityBits ((unit + 1074).toNat * Nat.pow 2 52 + significand)

/-- The double with this sign and the magnitude nearest to `num / den`. -/
def ofRatio (negative : Bool) (num den : Nat) : Float :=
  Float.ofBits (UInt64.ofNat (magnitudeBits num den + if negative then Nat.pow 2 63 else 0))

def ofInt (n : Int) : Float := ofRatio (n < 0) n.natAbs 1

def infinity (negative : Bool) : Float :=
  Float.ofBits (UInt64.ofNat (infinityBits + if negative then Nat.pow 2 63 else 0))

/-- The double nearest to `± coefficient * 10 ^ exponent`.  A number beyond the range of doubles
is settled by its count of digits, so that no power larger than needed is built. -/
def ofDecimal (negative : Bool) (coefficient : Nat) (exponent : Int) : Float :=
  let size : Int := (toString coefficient).length + exponent
  if coefficient = 0 ∨ size < -330 then ofRatio negative 0 1
  else if 310 < size then infinity negative
  else if 0 ≤ exponent then ofRatio negative (coefficient * Nat.pow 10 exponent.toNat) 1
  else ofRatio negative coefficient (Nat.pow 10 (-exponent).toNat)

def integer? (x : Float) : Option Int :=
  match meaning x with
  | .finite ⟨negative, significand, exponent⟩ =>
    let magnitude? : Option Nat :=
      if 0 ≤ exponent then some (significand * Nat.pow 2 exponent.toNat)
      else
        let unit := Nat.pow 2 (-exponent).toNat
        if significand % unit = 0 then some (significand / unit) else none
    magnitude?.map fun n => if negative then -(n : Int) else n
  | _ => none

end RowContract.Binary64
