import RowContract.Binary64.Basic
import RowContract.Text.Blank
import RowContract.Text.Digits

/-!
Reading a double from text.  A number is digits with at most one point among
them and an optional exponent; at least one digit stands before the exponent.
The result is the double nearest to the number as written.
-/

namespace RowContract.Binary64

open RowContract.Text

/-- The parts of an unsigned number as written: digits before and after the point, and the
exponent. -/
structure Numeral where
  whole : List Char
  fraction : List Char
  exponent : Int

/-- The exponent part: empty, or a letter `e`, a sign if wanted and digits to the end. -/
def exponentPart? : List Char → Option Int
  | [] => some 0
  | c :: r =>
    if c = 'e' ∨ c = 'E' then
      match r with
      | '-' :: ds => (natural? ds).map fun n => -(n : Int)
      | '+' :: ds => (natural? ds).map fun n => (n : Int)
      | ds => (natural? ds).map fun n => (n : Int)
    else none

def Numeral.ofChars? (cs : List Char) : Option Numeral :=
  let whole := cs.takeWhile isDigit
  let rest := cs.dropWhile isDigit
  let fraction := match rest with
    | '.' :: r => r.takeWhile isDigit
    | _ => []
  let rest := match rest with
    | '.' :: r => r.dropWhile isDigit
    | r => r
  if whole.isEmpty && fraction.isEmpty then none
  else (exponentPart? rest).map fun e => ⟨whole, fraction, e⟩

def Numeral.value (negative : Bool) (n : Numeral) : Float :=
  ofDecimal negative (digitsValue (n.whole ++ n.fraction)) (n.exponent - n.fraction.length)

/-- The finite double that a text names, blanks around it apart.  Words for infinity and for a
failed number name no finite double, nor does a number beyond the range. -/
def finite? (s : String) : Option Float := do
  let cs := trimChars s.toList
  let x ← match cs with
    | '-' :: r => (Numeral.ofChars? r).map (Numeral.value true)
    | '+' :: r => (Numeral.ofChars? r).map (Numeral.value false)
    | r => (Numeral.ofChars? r).map (Numeral.value false)
  if isFinite x then some x else none

end RowContract.Binary64
