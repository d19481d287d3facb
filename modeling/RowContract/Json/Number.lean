import RowContract.Json.Basic
import RowContract.Binary64.Reading

/-!
Reading JSON numbers.  A numeral without point and exponent that fits in 64 bits
is an integer.  Every other one is a double: its leading digits are taken as
one integer as long as they fit in 64 bits, that integer is rounded to a double,
and a power of ten, itself a double, multiplies or divides it.
-/

namespace RowContract.Json

open RowContract.Text RowContract.Binary64

/-- A numeral as written: the sign, the digits before and after the point, and the exponent;
`marked` says that a point or an exponent is there. -/
structure NumberText where
  negative : Bool
  whole : List Char
  fraction : List Char
  exponent : Int
  marked : Bool

/-- Leading digits taken as one integer, and how many places the point has to move. -/
structure Leading where
  value : Nat
  shift : Int

/-- Take a digit, if the integer still fits in 64 bits. -/
def Leading.take? (l : Leading) (c : Char) : Option Nat := do
  let d ← digitValue? c
  let value := 10 * l.value + d
  if value ≤ maxWord then some value else none

/-- Take digits before the point.  Once one does not fit, it and all others only count as
places. -/
def Leading.takeWhole (l : Leading) : List Char → Leading
  | [] => l
  | c :: r =>
    match l.take? c with
    | some value => Leading.takeWhole { l with value := value } r
    | none => { l with shift := l.shift + (r.length + 1) }

/-- Take digits after the point, up to the first that does not fit. -/
def Leading.takeFraction (l : Leading) : List Char → Leading
  | [] => l
  | c :: r =>
    match l.take? c with
    | some value => Leading.takeFraction ⟨value, l.shift - 1⟩ r
    | none => l

/-- Ten to a power up to 308, as a double. -/
def powerOfTen (k : Nat) : Float := ofDecimal false 1 k

/-- Move the point of a double.  Far to the right there is no double; far to the left the number
is divided in two steps or more, and zero stays zero. -/
def scale? (x : Float) (exponent : Int) : Nat → Option Float
  | 0 => some x
  | fuel + 1 =>
    if exponent.natAbs ≤ 308 then
      if 0 ≤ exponent then
        let y := x * powerOfTen exponent.natAbs
        if isFinite y then some y else none
      else some (x / powerOfTen exponent.natAbs)
    else if x == 0 then some x
    else if 0 ≤ exponent then none
    else scale? (x / powerOfTen 308) (exponent + 308) fuel

/-- The number that a numeral stands for; none when it is beyond the range of doubles. -/
def NumberText.value? (t : NumberText) : Option JsonNumber :=
  let leading := Leading.takeWhole ⟨0, 0⟩ t.whole
  if !t.marked && leading.shift == 0 then
    if !t.negative then some (.integer leading.value)
    else if leading.value ≠ 0 ∧ leading.value ≤ Nat.pow 2 63 then
      some (.integer (-(leading.value : Int)))
    else some (.double (-(Binary64.ofInt leading.value)))
  else
    let leading := leading.takeFraction t.fraction
    (scale? (Binary64.ofInt leading.value) (leading.shift + t.exponent) 5).map fun x =>
      .double (if t.negative then -x else x)

/-- The exponent at the front of a text, if its mark is there: the value and the rest. -/
def exponent? : List Char → Option (Option Int × List Char)
  | c :: r =>
    if c = 'e' ∨ c = 'E' then
      let (negative, ds) := match r with
        | '-' :: s => (true, s)
        | '+' :: s => (false, s)
        | s => (false, s)
      match natural? (ds.takeWhile isDigit) with
      | some n => some (some (if negative then -(n : Int) else n), ds.dropWhile isDigit)
      | none => none
    else some (none, c :: r)
  | [] => some (none, [])

/-- The numeral at the front of a text and the rest.  A leading zero stands alone before the
point, and a point is followed by a digit. -/
def numeral? (cs : List Char) : Option (NumberText × List Char) := do
  let (negative, cs) := match cs with
    | '-' :: r => (true, r)
    | r => (false, r)
  let whole := cs.takeWhile isDigit
  if whole.isEmpty || (whole.head? == some '0' && whole.length ≠ 1) then none
  else
    match cs.dropWhile isDigit with
    | '.' :: r =>
      let fraction := r.takeWhile isDigit
      if fraction.isEmpty then none
      else
        let (exponent, rest) ← exponent? (r.dropWhile isDigit)
        some (⟨negative, whole, fraction, exponent.getD 0, true⟩, rest)
    | r =>
      let (exponent, rest) ← exponent? r
      some (⟨negative, whole, [], exponent.getD 0, exponent.isSome⟩, rest)

end RowContract.Json
