import RowContract.Text.Digits

/-!
Dates with times of day in the Gregorian calendar, carried back before its
introduction.  Second 60 is a leap second and is allowed in every minute.
-/

namespace RowContract.Calendar

def isLeapYear (year : Int) : Bool := year % 4 == 0 && (year % 100 != 0 || year % 400 == 0)

/-- The number of days of a month; none for a number that is no month. -/
def daysInMonth (year : Int) (month : Nat) : Nat :=
  match month with
  | 1 | 3 | 5 | 7 | 8 | 10 | 12 => 31
  | 4 | 6 | 9 | 11 => 30
  | 2 => if isLeapYear year then 29 else 28
  | _ => 0

def yearRange : Int × Int := (-262143, 262142)

def isDate (year : Int) (month day : Nat) : Bool :=
  yearRange.1 ≤ year && year ≤ yearRange.2 && 1 ≤ day && day ≤ daysInMonth year month

def isTime (hour minute second nanosecond : Nat) : Bool :=
  hour < 24 && minute < 60 && second ≤ 60 && nanosecond < Nat.pow 10 9

end Calendar

structure DateTime where
  year : Int
  month : Nat
  day : Nat
  hour : Nat
  minute : Nat
  second : Nat
  nanosecond : Nat
  date_exists : Calendar.isDate year month day = true
  time_exists : Calendar.isTime hour minute second nanosecond = true
  deriving DecidableEq

namespace DateTime

open RowContract.Calendar

def make? (year : Int) (month day hour minute second nanosecond : Nat) : Option DateTime :=
  if hd : isDate year month day = true then
    if ht : isTime hour minute second nanosecond = true then
      some ⟨year, month, day, hour, minute, second, nanosecond, hd, ht⟩
    else none
  else none

/-- The parts from the year downwards, in the order in which moments are compared. -/
def parts (t : DateTime) : List Int :=
  [t.year, t.month, t.day, t.hour, t.minute, t.second, t.nanosecond]

/-- Compare lists of equal length by their first difference. -/
def earlierParts : List Int → List Int → Bool
  | a :: r, b :: s => a < b || (a == b && earlierParts r s)
  | _, _ => false

def isBefore (a b : DateTime) : Bool := earlierParts a.parts b.parts

/-- Four digits for the years 0 to 9999, else a sign and at least four digits. -/
def yearText (year : Int) : List Char :=
  if 0 ≤ year ∧ year ≤ 9999 then Text.padded 4 year.natAbs
  else (if year < 0 then '-' else '+') :: Text.padded 4 year.natAbs

/-- The date with hyphens, the time with colons, and the given character between them. -/
def textWith (between : Char) (t : DateTime) : List Char :=
  yearText t.year ++ '-' :: Text.padded 2 t.month ++ '-' :: Text.padded 2 t.day ++
    between :: Text.padded 2 t.hour ++ ':' :: Text.padded 2 t.minute ++
    ':' :: Text.padded 2 t.second

def text (t : DateTime) : String := String.ofList (t.textWith ' ')

end DateTime

namespace Calendar

/-- Days from the first of March of year 0 to the given day. -/
def dayNumber (year : Int) (month day : Nat) : Int :=
  let y := if month ≤ 2 then year - 1 else year
  let m : Nat := if month ≤ 2 then month + 9 else month - 3
  y * 365 + y / 4 - y / 100 + y / 400 + ((153 * m + 2) / 5 : Nat) + ((day : Int) - 1)

/-- The day with the given number: first the span of 400 years it lies in, then year and month
within it. -/
def dateOfDayNumber (n : Int) : Int × Nat × Nat :=
  let era := n / 146097
  let d := (n % 146097).toNat
  let y := (d - d / 1460 + d / 36524 - d / 146096) / 365
  let rest := d - (365 * y + y / 4 - y / 100)
  let m := (5 * rest + 2) / 153
  let day := rest - (153 * m + 2) / 5 + 1
  let month := if m < 10 then m + 3 else m - 9
  (era * 400 + y + (if month ≤ 2 then 1 else 0), month, day)

end Calendar

def DateTime.addMinutes? (t : DateTime) (minutes : Int) : Option DateTime :=
  let total := (t.hour * 60 + t.minute : Nat) + minutes
  let (year, month, day) := Calendar.dateOfDayNumber
    (Calendar.dayNumber t.year t.month t.day + total / 1440)
  let rest := (total % 1440).toNat
  DateTime.make? year month day (rest / 60) (rest % 60) t.second t.nanosecond

end RowContract
