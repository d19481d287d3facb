import RowContract.Decimal.Basic

/-!
Reading decimals.  Underscores may separate digits once a digit has been seen.
A number with more digits than fit is rounded at the first digit that does not
fit, a half going up; after that digit only digits and underscores may stand.
-/

namespace RowContract.Decimal

open RowContract.Text

/-- What has been read of a number: its digits as a value, the places after the point, and
whether a point and a digit have been seen. -/
structure Progress where
  negative : Bool
  value : Nat
  places : Nat
  hasPoint : Bool
  hasDigit : Bool

def Progress.finish (p : Progress) : Option Decimal :=
  if p.hasDigit then make? (if p.negative then -(p.value : Int) else p.value) p.places else none

/-- End the number at a digit that does not fit, before what follows it.  Rounding up may itself
overflow; then one place is given up, if there is one. -/
def Progress.roundAt (p : Progress) (digit : Nat) (tail : List Char) : Option Decimal :=
  let value := if 5 ≤ digit then p.value + 1 else p.value
  if !tail.all (fun c => c == '_' || (digitValue? c).isSome) then none
  else if value < Nat.pow 2 96 then Progress.finish { p with value := value }
  else if p.places = 0 then none
  else Progress.finish { p with value := (value + 4) / 10, places := p.places - 1 }

/-- From this many on, the digits of a number are counted in wide words. -/
def wideFrom : Nat := (Nat.pow 2 64 - 1) / 10 - 255

/-- End the number after its last possible place.  An underscore there stands for a digit below
five, unless the digits before the last one are many enough for wide words: then it separates, as
it does elsewhere. -/
def Progress.lastPlace (p : Progress) : List Char → Option Decimal
  | [] => p.finish
  | '_' :: rest => if wideFrom ≤ p.value / 10 then p.lastPlace rest else p.roundAt 0 rest
  | c :: rest => do p.roundAt (← digitValue? c) rest

def Progress.read (p : Progress) : List Char → Option Decimal
  | [] => p.finish
  | c :: rest =>
    if p.hasPoint ∧ 28 ≤ p.places then p.lastPlace (c :: rest)
    else match digitValue? c with
      | some d =>
        let value := 10 * p.value + d
        if value < Nat.pow 2 96 then
          Progress.read { p with
            value := value
            places := if p.hasPoint then p.places + 1 else 0
            hasDigit := true } rest
        else if p.hasPoint then p.roundAt d rest
        else none
      | none =>
        if c = '.' ∧ !p.hasPoint then Progress.read { p with hasPoint := true } rest
        else if c = '_' ∧ p.hasDigit then p.read rest
        else none

/-- A decimal in positional form with an optional sign. -/
def ofChars? : List Char → Option Decimal
  | '-' :: r => Progress.read ⟨true, 0, 0, false, false⟩ r
  | '+' :: r => Progress.read ⟨false, 0, 0, false, false⟩ r
  | r => Progress.read ⟨false, 0, 0, false, false⟩ r

/-- Move the point `exponent` digits to the right.  Where places run out the coefficient grows,
and then the places that are left over are dropped. -/
def shiftRight? (d : Decimal) (exponent : Nat) : Option Decimal :=
  if exponent ≤ d.scale then make? d.coefficient (d.scale - exponent)
  else if exponent ≤ 28 then make? (d.coefficient * Nat.pow 10 (exponent - d.scale)) 0
  else none

/-- Move the point `exponent` digits to the left.  Places beyond the last are rounded away, a half
going up, and the sign stays; an exponent of more places than there are has no decimal. -/
def shiftLeft? (d : Decimal) (exponent : Nat) : Option Decimal :=
  if 28 < exponent then none
  else if d.scale + exponent ≤ 28 then make? d.coefficient (d.scale + exponent)
  else signed? d.negative (d.round (28 - exponent)).magnitude 28

def isExponentMark (c : Char) : Bool := c == 'e' || c == 'E'

/-- A decimal as a text, in positional form or followed by an exponent of ten. -/
def read? (cs : List Char) : Option Decimal :=
  match cs.dropWhile (fun c => !isExponentMark c) with
  | [] => ofChars? cs
  | _ :: exponent => do
    let base ← ofChars? (cs.takeWhile fun c => !isExponentMark c)
    match exponent with
    | '-' :: ds =>
      let n ← unsigned? maxHalfWord ds
      base.shiftLeft? n
    | ds =>
      let n ← unsigned? maxHalfWord ds
      base.shiftRight? n

end RowContract.Decimal
