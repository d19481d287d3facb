import RowContract.Text.Blank

/-!
Searching texts: where a part stands in a text, and cutting a text at a part.
-/

namespace RowContract.Text

def occursIn (part : List Char) : List Char → Bool
  | [] => part.isEmpty
  | c :: r => part.isPrefixOf (c :: r) || occursIn part r

/-- What stands before the first occurrence of a part, and what follows it. -/
def cut? (part : List Char) : List Char → Option (List Char × List Char)
  | [] => if part.isEmpty then some ([], []) else none
  | c :: r =>
    if part.isPrefixOf (c :: r) then some ([], (c :: r).drop part.length)
    else (cut? part r).map fun (before, after) => (c :: before, after)

/-- What stands before the last occurrence of a character, and what follows it. -/
def cutLast? (mark : Char) : List Char → Option (List Char × List Char)
  | [] => none
  | c :: r =>
    match cutLast? mark r with
    | some (before, after) => some (c :: before, after)
    | none => if c = mark then some ([], r) else none

/-- Cut a text at every occurrence of a part; `skip` characters of the part just found are still to
be passed over. -/
def piecesFrom (part : List Char) (skip : Nat) : List Char → List (List Char)
  | [] => [[]]
  | c :: r =>
    match skip with
    | skip + 1 => piecesFrom part skip r
    | 0 =>
      if part.isPrefixOf (c :: r) then [] :: piecesFrom part (part.length - 1) r
      else match piecesFrom part 0 r with
        | [] => [[c]]
        | piece :: pieces => (c :: piece) :: pieces

/-- The pieces between the occurrences of a part that is not empty. -/
def pieces (part : List Char) (cs : List Char) : List (List Char) := piecesFrom part 0 cs

def dropPrefix? (part cs : List Char) : Option (List Char) :=
  if part.isPrefixOf cs then some (cs.drop part.length) else none

def dropSuffix? (part cs : List Char) : Option (List Char) :=
  (dropPrefix? part.reverse cs.reverse).map List.reverse

/-- Drop a part from the end as often as it stands there, at most `fuel` times. -/
def dropSuffixes (part : List Char) : Nat → List Char → List Char
  | 0, cs => cs
  | fuel + 1, cs =>
    match dropSuffix? part cs with
    | some rest => dropSuffixes part fuel rest
    | none => cs

/-- The small form of a character, as far as it is a letter from `a` to `z`: that of the capitals,
and of the sign for the unit kelvin. -/
def small (c : Char) : Char := if c.toNat = 0x212A then 'k' else c.toLower

end RowContract.Text
