import RowContract.Calendar.Layout

/-!
Instants with a time zone, kept in universal time.  They are read from a date and
a time with an offset, and written with a `Z`.
-/

namespace RowContract.Calendar

open RowContract.Text

def offsetSign (cs : List Char) : Except Fault (Bool × List Char) :=
  match cs with
  | [] => .error .tooShort
  | '+' :: r => .ok (false, r)
  | '-' :: r => .ok (true, r)
  | c :: r => if c.toNat = 0x2212 then .ok (true, r) else .error .unexpected

/-- How many bytes a text has in UTF-8; two digits are missing only where fewer than two bytes are
left. -/
def byteCount (cs : List Char) : Nat := (cs.map Char.utf8Size).foldl (· + ·) 0

def twoDigits (cs : List Char) : Except Fault (Nat × List Char) :=
  if byteCount cs < 2 then .error .tooShort
  else match cs with
    | a :: b :: r =>
      if isDigit a ∧ isDigit b then .ok (digitsValue [a, b], r) else .error .unexpected
    | _ => .error .unexpected

/-- An offset from universal time in minutes: a `Z`, the letters `UTC`, or a signed number of hours
and minutes with colons or blanks between them. -/
def readOffset (cs : List Char) : Except Fault (Int × List Char) :=
  if sameIgnoringCase (String.ofList (cs.take 3)) "UTC" then .ok (0, cs.drop 3)
  else match cs with
    | 'Z' :: r => .ok (0, r)
    | 'z' :: r => .ok (0, r)
    | _ => do
      let (negative, r) ← offsetSign cs
      let (hours, r) ← twoDigits r
      let (minutes, r) ← twoDigits (r.dropWhile fun c => c == ':' || isBlank c)
      if 60 ≤ minutes then .error .outOfRange
      else
        let total : Int := hours * 60 + minutes
        .ok (if negative then -total else total, r)

def readDivider (cs : List Char) : Except Fault (List Char) :=
  match cs with
  | [] => .error .tooShort
  | c :: r => if c = 't' ∨ c = 'T' ∨ c = ' ' then .ok r else .error .unexpected

/-- A layout that also takes blanks before its characters. -/
def loosened (layout : List Item) : List Item :=
  layout.flatMap fun i => match i with
    | .literal c => [.blanks, .literal c]
    | i => [i]

def readInstant (text : String) : Except Fault DateTime := do
  let (d, r) ← readItems (loosened isoDate) {} text.toList
  let r ← readDivider r
  let (d, r) ← readItems (loosened clock ++ [.fraction]) d r
  let (offset, r) ← readOffset (dropBlanks r)
  if !(dropBlanks r).isEmpty then .error .tooLong
  else
    let t ← d.finish
    if 1440 ≤ offset.natAbs then .error .outOfRange
    else match t.addMinutes? (-offset) with
      | some u => .ok u
      | none => .error .impossible

/-- Digits of a fraction in groups of three, as few groups as keep it whole. -/
def fractionText (nanosecond : Nat) : List Char :=
  if nanosecond = 0 then []
  else if nanosecond % 1000000 = 0 then '.' :: padded 3 (nanosecond / 1000000)
  else if nanosecond % 1000 = 0 then '.' :: padded 6 (nanosecond / 1000)
  else '.' :: padded 9 nanosecond

def instantText (t : DateTime) : String :=
  String.ofList (t.textWith 'T' ++ fractionText t.nanosecond ++ ['Z'])

end RowContract.Calendar
