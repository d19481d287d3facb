import RowContract.Binary64.Shortest
import RowContract.Text.Digits

/-!
Doubles as text.  The digits are always the fewest that read back; a `Layout`
says which digits those are in a tie, when they are written in positional form
and how an exponent looks.
-/

namespace RowContract.Binary64

structure Layout where
  /-- Leading exponents from here on upwards are positional; none means all small ones are. -/
  lowest : Option Int
  /-- Leading exponents up to here are positional; none means all large ones are. -/
  highest : Option Int
  /-- Whether a whole number keeps a fraction `.0`. -/
  wholeFraction : Bool
  /-- Which of two equally near numbers with the fewest digits is written. -/
  tie : Tie

/-- Every double in positional form, whole numbers without a point; a tie goes up. -/
def Layout.plain : Layout := ⟨none, none, false, .up⟩

/-- Numbers from 0.00001 up to below ten quadrillion in positional form, always with a point;
others with an exponent that carries its sign; a tie goes to the even digit. -/
def Layout.json : Layout := ⟨some (-5), some 15, true, .even⟩

/-- Digits with a point after the given count of them; zeros fill up on either side. -/
def positional (digits : List Char) (exponent : Int) (wholeFraction : Bool) : List Char :=
  if 0 ≤ exponent then
    digits ++ List.replicate exponent.toNat '0' ++ if wholeFraction then ['.', '0'] else []
  else
    let places := (-exponent).toNat
    if places < digits.length then
      digits.take (digits.length - places) ++ '.' :: digits.drop (digits.length - places)
    else '0' :: '.' :: List.replicate (places - digits.length) '0' ++ digits

/-- One digit, the others after a point, and the exponent with its sign. -/
def scientific (digits : List Char) (leading : Int) : List Char :=
  let fraction := digits.drop 1
  digits.take 1 ++ (if fraction.isEmpty then [] else '.' :: fraction) ++
    'e' :: (if leading < 0 then '-' else '+') :: Text.digits leading.natAbs

def Layout.magnitude (layout : Layout) (s : Shortest) : List Char :=
  let digits := Text.digits s.digits
  let leading := s.exponent + digits.length - 1
  let low := layout.lowest.all fun l => decide (l ≤ leading)
  let high := layout.highest.all fun h => decide (leading ≤ h)
  if low && high then positional digits s.exponent layout.wholeFraction
  else scientific digits leading

def Layout.text (layout : Layout) (x : Float) : String :=
  match meaning x with
  | .nan => "NaN"
  | .infinite negative => if negative then "-inf" else "inf"
  | .finite ⟨negative, significand, exponent⟩ =>
    let body :=
      if significand = 0 then '0' :: if layout.wholeFraction then ['.', '0'] else []
      else layout.magnitude (shortest layout.tie significand exponent)
    String.ofList (if negative then '-' :: body else body)

end RowContract.Binary64
