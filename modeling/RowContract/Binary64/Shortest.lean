import RowContract.Binary64.Basic

/-!
The fewest decimal digits that still name a double.  Around every double lies an
interval of reals that round to it; on the decimal grids, coarsest first, the
two grid points next to the double are tried, and the first grid with a point in
the interval gives the digits.  Where both points are equally near, a `Tie`
decides.
-/

namespace RowContract.Binary64

inductive Tie where
  /-- The larger one. -/
  | up
  /-- The one with an even last digit. -/
  | even
  deriving DecidableEq, Repr

def Tie.div (tie : Tie) (num den : Nat) : Nat :=
  match tie with
  | .up => (2 * num + den) / (2 * den)
  | .even => divHalfEven num den

structure Shortest where
  digits : Nat
  exponent : Int
  deriving Repr, DecidableEq

/-- The double `significand * 2 ^ exponent` and the ends of its interval, all over one
denominator.  The interval is half as wide below a power of two. -/
structure Interval where
  low : Nat
  mid : Nat
  high : Nat
  den : Nat
  closed : Bool

/-- The reals that round to the double; its ends belong to it when the significand is even. -/
def interval (significand : Nat) (exponent : Int) : Interval :=
  let below := if significand = Nat.pow 2 52 ∧ -1074 < exponent then 1 else 2
  let unit := exponent - 2
  let scale := if 0 ≤ unit then Nat.pow 2 unit.toNat else 1
  let den := if 0 ≤ unit then 1 else Nat.pow 2 (-unit).toNat
  { low := (4 * significand - below) * scale
    mid := 4 * significand * scale
    high := (4 * significand + 2) * scale
    den := den
    closed := significand % 2 == 0 }

/-- The least `k ≤ bound` with `den ≤ num * 10 ^ k`. -/
def leastShift (num den : Nat) : Nat → Nat
  | 0 => 0
  | bound + 1 => if den ≤ num then 0 else leastShift (num * 10) den bound + 1

def leadingExponent (num den : Nat) : Int :=
  if den ≤ num then ((toString (num / den)).length : Int) - 1
  else -(leastShift num den 400 : Int)

def Interval.holds (i : Interval) (n : Nat) (grid : Int) : Bool :=
  let value := if 0 ≤ grid then n * Nat.pow 10 grid.toNat * i.den else n * i.den
  let scale := if 0 ≤ grid then 1 else Nat.pow 10 (-grid).toNat
  if i.closed then i.low * scale ≤ value && value ≤ i.high * scale
  else i.low * scale < value && value < i.high * scale

/-- The point of the grid `10 ^ grid` that names the double, the nearer one if both neighbours
do. -/
def Interval.onGrid? (i : Interval) (tie : Tie) (grid : Int) : Option Nat :=
  let num := if 0 ≤ grid then i.mid else i.mid * Nat.pow 10 (-grid).toNat
  let den := if 0 ≤ grid then i.den * Nat.pow 10 grid.toNat else i.den
  let n := num / den
  match i.holds n grid, i.holds (n + 1) grid with
  | true, true => some (tie.div num den)
  | true, false => some n
  | false, true => some (n + 1)
  | false, false => none

def Interval.search (i : Interval) (tie : Tie) (grid : Int) : Nat → Shortest
  | 0 => ⟨i.mid / i.den, 0⟩
  | fuel + 1 =>
    match i.onGrid? tie grid with
    | some n => ⟨n, grid⟩
    | none => i.search tie (grid - 1) fuel

def Shortest.normalize (s : Shortest) : Nat → Shortest
  | 0 => s
  | fuel + 1 =>
    if s.digits ≠ 0 ∧ s.digits % 10 = 0 then
      Shortest.normalize ⟨s.digits / 10, s.exponent + 1⟩ fuel
    else s

/-- The fewest digits that round to `significand * 2 ^ exponent`, and of those the nearest.
Seventeen digits always suffice. -/
def shortest (tie : Tie) (significand : Nat) (exponent : Int) : Shortest :=
  let i := interval significand exponent
  (i.search tie (leadingExponent i.mid i.den) 18).normalize 20

end RowContract.Binary64
