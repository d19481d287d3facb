import RowContract.Calendar.Basic
import RowContract.Text.Blank

/-!
Layouts of dates and times, and reading a text by a layout.  Blanks are skipped
before every number, a number may have fewer digits than its width, and the
fraction of a second may be missing altogether.
-/

namespace RowContract.Calendar

open RowContract.Text

inductive Fault where
  | tooShort
  | unexpected
  | outOfRange
  | impossible
  | tooLong
  deriving DecidableEq, Repr

def Fault.message : Fault → String
  | .tooShort => "premature end of input"
  | .unexpected => "input contains invalid characters"
  | .outOfRange => "input is out of range"
  | .impossible => "no possible date and time matching input"
  | .tooLong => "trailing input"

inductive Part where
  | year
  | month
  | day
  | hour
  | hourOfHalf
  | minute
  | second
  deriving DecidableEq, Repr

inductive Item where
  /-- This very character. -/
  | literal (c : Char)
  /-- Any number of blanks. -/
  | blanks
  /-- A number. -/
  | part (p : Part)
  /-- A point with digits, or nothing. -/
  | fraction
  /-- One of the words `AM` and `PM`. -/
  | half
  deriving DecidableEq, Repr

/-- What has been read so far; parts that a layout lacks are zero. -/
structure Draft where
  year : Int := 0
  month : Nat := 1
  day : Nat := 1
  hour : Nat := 0
  minute : Nat := 0
  second : Nat := 0
  nanosecond : Nat := 0
  afternoon : Bool := false

/-- The least and greatest value of a part other than the year, and its width. -/
def Part.bounds : Part → Nat × Nat
  | .year => (0, 0)
  | .month => (1, 12)
  | .day => (1, 31)
  | .hour => (0, 23)
  | .hourOfHalf => (1, 12)
  | .minute => (0, 59)
  | .second => (0, 60)

/-- Put the value of a part other than the year in its place; twelve counts as zero within a half
day. -/
def Part.put (p : Part) (n : Nat) (d : Draft) : Draft :=
  match p with
  | .year => { d with year := n }
  | .month => { d with month := n }
  | .day => { d with day := n }
  | .hour => { d with hour := n }
  | .hourOfHalf => { d with hour := n % 12 }
  | .minute => { d with minute := n }
  | .second => { d with second := n }

/-- One digit or more, at most `width` of them if a width is given, and the rest. -/
def number (width : Option Nat) (cs : List Char) : Except Fault (Nat × List Char) :=
  let run := cs.takeWhile isDigit
  let digits := match width with
    | some w => run.take w
    | none => run
  match cs with
  | [] => .error .tooShort
  | _ :: _ =>
    if digits.isEmpty then .error .unexpected
    else .ok (digitsValue digits, cs.drop digits.length)

/-- A year: four digits at most, or any number of them after a sign. -/
def readYear (d : Draft) (cs : List Char) : Except Fault (Draft × List Char) := do
  let (year, rest) ← match cs with
    | '-' :: r => (number none r).map fun (n, rest) => (-(n : Int), rest)
    | '+' :: r => (number none r).map fun (n, rest) => ((n : Int), rest)
    | r => (number (some 4) r).map fun (n, rest) => ((n : Int), rest)
  if -(Nat.pow 2 31 : Int) ≤ year ∧ year < Nat.pow 2 31 then .ok ({ d with year := year }, rest)
  else .error .outOfRange

/-- A number of two digits at most, within the bounds of its part. -/
def readPart (p : Part) (d : Draft) (cs : List Char) : Except Fault (Draft × List Char) := do
  let (n, rest) ← number (some 2) cs
  if p.bounds.1 ≤ n ∧ n ≤ p.bounds.2 then .ok (p.put n d, rest) else .error .outOfRange

/-- Digits after a point: nine of them count, further ones are dropped. -/
def readFraction (d : Draft) (cs : List Char) : Except Fault (Draft × List Char) :=
  match cs with
  | '.' :: r => do
    let (n, _) ← number (some 9) r
    let digits := r.takeWhile isDigit
    .ok ({ d with nanosecond := n * Nat.pow 10 (9 - min 9 digits.length) }, r.drop digits.length)
  | r => .ok (d, r)

def readHalf (d : Draft) (cs : List Char) : Except Fault (Draft × List Char) :=
  match cs with
  | a :: m :: r =>
    if m = 'm' ∨ m = 'M' then
      if a = 'a' ∨ a = 'A' then .ok ({ d with afternoon := false }, r)
      else if a = 'p' ∨ a = 'P' then .ok ({ d with afternoon := true }, r)
      else .error .unexpected
    else .error .unexpected
  | _ => .error .tooShort

def Item.read (i : Item) (d : Draft) (cs : List Char) : Except Fault (Draft × List Char) :=
  match i with
  | .literal c =>
    match cs with
    | [] => .error .tooShort
    | x :: r => if x = c then .ok (d, r) else .error .unexpected
  | .blanks => .ok (d, dropBlanks cs)
  | .part .year => readYear d (dropBlanks cs)
  | .part p => readPart p d (dropBlanks cs)
  | .fraction => readFraction d cs
  | .half => readHalf d cs

def readItems : List Item → Draft → List Char → Except Fault (Draft × List Char)
  | [], d, cs => .ok (d, cs)
  | i :: r, d, cs => do
    let (d, cs) ← i.read d cs
    readItems r d cs

def Draft.finish (d : Draft) : Except Fault DateTime :=
  let hour := if d.afternoon then d.hour + 12 else d.hour
  match DateTime.make? d.year d.month d.day hour d.minute d.second d.nanosecond with
  | some t => .ok t
  | none => .error .outOfRange

def isoDate : List Item :=
  [.part .year, .literal '-', .part .month, .literal '-', .part .day]

def slashDate : List Item :=
  [.part .month, .literal '/', .part .day, .literal '/', .part .year]

def denseDate : List Item := [.part .year, .part .month, .part .day]

def clock : List Item :=
  [.part .hour, .literal ':', .part .minute, .literal ':', .part .second]

/-- A clock whose hour is counted within its half of the day. -/
def halfDayClock : List Item :=
  [.part .hourOfHalf, .literal ':', .part .minute, .literal ':', .part .second, .blanks, .half]

/-- The layouts of dates with or without a time, in the order in which they are tried. -/
def layouts : List (List Item) :=
  [isoDate ++ .blanks :: clock,
   isoDate ++ .literal 'T' :: clock,
   isoDate ++ .blanks :: clock ++ [.fraction],
   isoDate ++ .literal 'T' :: clock ++ [.fraction],
   slashDate ++ .blanks :: clock,
   slashDate ++ .blanks :: halfDayClock,
   isoDate,
   slashDate,
   denseDate]

def readWhole (layout : List Item) (cs : List Char) : Option DateTime :=
  match readItems layout {} cs with
  | .ok (d, []) => d.finish.toOption
  | _ => none

/-- Before this year the column type for moments has no values. -/
def firstYear : Int := 1753

/-- The moment that a text names, blanks around it apart: by the first layout that fits, and only
from the first year on. -/
def parse? (text : String) : Option DateTime := do
  let t ← layouts.findSome? fun layout => readWhole layout (trimChars text.toList)
  if firstYear ≤ t.year then some t else none

end RowContract.Calendar
