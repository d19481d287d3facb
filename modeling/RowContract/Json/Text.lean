import RowContract.Json.Basic
import RowContract.Binary64.Layout

/-!
Writing JSON.  Quotes, backslashes and control characters are escaped, all else
stands for itself; a double is written with its fewest digits.  The compact form
has no space, the indented form gives every item a line and two spaces a level.
-/

namespace RowContract.Json

def hexDigit (n : Nat) : Char :=
  if n < 10 then Char.ofNat ('0'.toNat + n) else Char.ofNat ('a'.toNat + n - 10)

def escape (c : Char) : List Char :=
  if c = '"' then ['\\', '"']
  else if c = '\\' then ['\\', '\\']
  else if c = '\n' then ['\\', 'n']
  else if c = '\r' then ['\\', 'r']
  else if c = '\t' then ['\\', 't']
  else if c.toNat = 8 then ['\\', 'b']
  else if c.toNat = 12 then ['\\', 'f']
  else if c.toNat < 0x20 then
    ['\\', 'u', '0', '0', hexDigit (c.toNat / 16), hexDigit (c.toNat % 16)]
  else [c]

def quote (s : String) : String := String.ofList ('"' :: s.toList.flatMap escape ++ ['"'])

def JsonNumber.text : JsonNumber → String
  | .integer n => toString n
  | .double x => Binary64.Layout.json.text x

mutual

def compact : Json → String
  | .null => "null"
  | .bool b => if b then "true" else "false"
  | .number n => JsonNumber.text n
  | .string s => quote s
  | .array items => "[" ++ ",".intercalate (compactItems items) ++ "]"
  | .object fields => "\x7b" ++ ",".intercalate (compactFields fields) ++ "\x7d"

def compactItems : List Json → List String
  | [] => []
  | v :: r => compact v :: compactItems r

def compactFields : List (String × Json) → List String
  | [] => []
  | (k, v) :: r => (quote k ++ ":" ++ compact v) :: compactFields r

end

def newline (level : Nat) : String := String.ofList ('\n' :: List.replicate (2 * level) ' ')

def enclose (opening closing : String) (level : Nat) (lines : List String) : String :=
  if lines.isEmpty then opening ++ closing
  else
    opening ++ newline (level + 1) ++ ("," ++ newline (level + 1)).intercalate lines ++
      newline level ++ closing

mutual

/-- The form with a line for every item, at the given level of nesting. -/
def indentedAt (level : Nat) : Json → String
  | .array items => enclose "[" "]" level (indentedItems (level + 1) items)
  | .object fields => enclose "\x7b" "\x7d" level (indentedFields (level + 1) fields)
  | .null => "null"
  | .bool b => if b then "true" else "false"
  | .number n => JsonNumber.text n
  | .string s => quote s

def indentedItems (level : Nat) : List Json → List String
  | [] => []
  | v :: r => indentedAt level v :: indentedItems level r

def indentedFields (level : Nat) : List (String × Json) → List String
  | [] => []
  | (k, v) :: r => (quote k ++ ": " ++ indentedAt level v) :: indentedFields level r

end

def indented (v : Json) : String := indentedAt 0 v

end RowContract.Json
