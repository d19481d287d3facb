import RowContract.Json.Source

/-!
Taking a text apart as JSON.  The text is followed as far as it is well formed; the
value that it then is, if it is one, has its repeated names merged, and its
containers nest at most 127 deep.
-/

namespace RowContract.Json

open RowContract.Text

/-- The four characters that may stand between the parts of a document. -/
def isSpace (c : Char) : Bool := c == ' ' || c == '\n' || c == '\r' || c == '\t'

def skipSpace (cs : List Char) : List Char := cs.dropWhile isSpace

/-- One piece of a string as written: a character, or a unit of 16 bits in an escape. -/
inductive Piece where
  | char (c : Char)
  | unit (n : Nat)

def hexValue? (c : Char) : Option Nat :=
  if isDigit c then some (c.toNat - '0'.toNat)
  else if 'a' ≤ c ∧ c ≤ 'f' then some (c.toNat - 'a'.toNat + 10)
  else if 'A' ≤ c ∧ c ≤ 'F' then some (c.toNat - 'A'.toNat + 10)
  else none

def hexUnit? (a b c d : Char) : Option Nat := do
  let a ← hexValue? a
  let b ← hexValue? b
  let c ← hexValue? c
  let d ← hexValue? d
  some (((a * 16 + b) * 16 + c) * 16 + d)

def escaped? (c : Char) : Option Char :=
  match c with
  | '"' => some '"'
  | '\\' => some '\\'
  | '/' => some '/'
  | 'b' => some (Char.ofNat 8)
  | 'f' => some (Char.ofNat 12)
  | 'n' => some '\n'
  | 'r' => some '\r'
  | 't' => some '\t'
  | _ => none

/-- The pieces of a string up to its closing quote, and the rest. -/
def pieces? : List Char → Option (List Piece × List Char)
  | [] => none
  | '"' :: r => some ([], r)
  | '\\' :: 'u' :: a :: b :: c :: d :: r => do
    let n ← hexUnit? a b c d
    let (ps, rest) ← pieces? r
    some (.unit n :: ps, rest)
  | '\\' :: e :: r => do
    let c ← escaped? e
    let (ps, rest) ← pieces? r
    some (.char c :: ps, rest)
  | c :: r =>
    if c.toNat < 0x20 ∨ c = '\\' then none
    else do
      let (ps, rest) ← pieces? r
      some (.char c :: ps, rest)

/-- Join the pieces.  Two units may form a pair that stands for one character beyond the first
plane; half a pair stands for nothing. -/
def joinPieces? : List Piece → Option (List Char)
  | [] => some []
  | .char c :: r => (joinPieces? r).map (c :: ·)
  | .unit h :: r =>
    if 0xDC00 ≤ h ∧ h < 0xE000 then none
    else if 0xD800 ≤ h ∧ h < 0xDC00 then
      match r with
      | .unit l :: r =>
        if 0xDC00 ≤ l ∧ l < 0xE000 then
          (joinPieces? r).map (Char.ofNat (0x10000 + (h - 0xD800) * 0x400 + (l - 0xDC00)) :: ·)
        else none
      | _ => none
    else (joinPieces? r).map (Char.ofNat h :: ·)

def word? : List Char → List Char → Option (List Char)
  | [], cs => some cs
  | w :: ws, c :: cs => if w = c then word? ws cs else none
  | _ :: _, [] => none

/-- What was taken from the front of a text, and the rest; no rest where the text breaks off. -/
abbrev Taken (α : Type) := α × Option (List Char)

def takeWord (s : Source) (letters : String) (cs : List Char) : Taken Source :=
  match word? letters.toList cs with
  | some rest => (s, some rest)
  | none => (.broken, none)

def takeString (cs : List Char) : Taken Source :=
  match pieces? cs with
  | some (ps, rest) => (.string ((joinPieces? ps).map String.ofList), some rest)
  | none => (.broken, none)

def takeNumber (cs : List Char) : Taken Source :=
  match numeral? cs with
  | some (t, rest) => (.number t.value?, some rest)
  | none => (.broken, none)

/-- A container, given how many may still be opened before it. -/
def nested (depth : Nat) (container : Bool → Source) (rest : Option (List Char)) :
    Taken Source :=
  let s := container rest.isSome
  (if depth = 0 then .deep s else s, rest)

mutual

/-- A value; `depth` is how many containers may still be opened. -/
def take (fuel depth : Nat) (cs : List Char) : Taken Source :=
  match fuel with
  | 0 => (.broken, none)
  | fuel + 1 =>
    match skipSpace cs with
    | 'n' :: r => takeWord .null "ull" r
    | 't' :: r => takeWord (.bool true) "rue" r
    | 'f' :: r => takeWord (.bool false) "alse" r
    | '"' :: r => takeString r
    | '[' :: r =>
      let (items, rest) := match skipSpace r with
        | ']' :: rest => ([], some rest)
        | r => takeItems fuel (depth - 1) r
      nested depth (.array items) rest
    | '\x7b' :: r =>
      let (fields, rest) := match skipSpace r with
        | '\x7d' :: rest => ([], some rest)
        | r => takeFields fuel (depth - 1) r
      nested depth (.object fields) rest
    | r => takeNumber r

/-- The items of an array from the next one to the closing bracket. -/
def takeItems (fuel depth : Nat) (cs : List Char) : Taken (List Source) :=
  match fuel with
  | 0 => ([], none)
  | fuel + 1 =>
    match take fuel depth cs with
    | (v, none) => ([v], none)
    | (v, some rest) =>
      match skipSpace rest with
      | ',' :: r =>
        let (vs, rest) := takeItems fuel depth r
        (v :: vs, rest)
      | ']' :: r => ([v], some r)
      | _ => ([v], none)

/-- The fields of an object from the next one to the closing brace. -/
def takeFields (fuel depth : Nat) (cs : List Char) : Taken (List (Option String × Source)) :=
  match fuel with
  | 0 => ([], none)
  | fuel + 1 =>
    match skipSpace cs with
    | '"' :: r =>
      match pieces? r with
      | none => ([], none)
      | some (ps, rest) =>
        let name := (joinPieces? ps).map String.ofList
        match skipSpace rest with
        | ':' :: r =>
          match take fuel depth r with
          | (v, none) => ([(name, v)], none)
          | (v, some rest) =>
            match skipSpace rest with
            | ',' :: r =>
              let (fs, rest) := takeFields fuel depth r
              ((name, v) :: fs, rest)
            | '\x7d' :: r => ([(name, v)], some r)
            | _ => ([(name, v)], none)
        | _ => ([(name, .broken)], none)
    | _ => ([], none)

end

def maxDepth : Nat := 127

/-- The first value of a text, and whether only space follows.  Each step consumes a character, so
the length of the text bounds their number. -/
def sourceOf (s : String) : Source × Bool :=
  let cs := s.toList
  let (v, rest) := take (2 * cs.length + 2) maxDepth cs
  (v, rest.any fun r => (skipSpace r).isEmpty)

def parse? (s : String) : Option Json :=
  match sourceOf s with
  | (v, true) => v.toJson?
  | (_, false) => none

end RowContract.Json
