import RowContract.Text.Invisible
import RowContract.Text.Mark

/-!
Texts in quotes for messages: quotes, backslashes and characters without a shape
of their own are written as escapes.
-/

namespace RowContract.Text

def hexDigits (n : Nat) : List Char := Nat.toDigits 16 n

/-- Whether a character is written as its number. -/
def isShapeless (c : Char) : Bool := isMark c || isInvisible c

def escapeForQuotes (c : Char) : List Char :=
  if c = '"' then ['\\', '"']
  else if c = '\\' then ['\\', '\\']
  else if c = '\n' then ['\\', 'n']
  else if c = '\r' then ['\\', 'r']
  else if c = '\t' then ['\\', 't']
  else if c.toNat = 0 then ['\\', '0']
  else if isShapeless c then '\\' :: 'u' :: '\x7b' :: hexDigits c.toNat ++ ['\x7d']
  else [c]

def quoted (s : String) : String :=
  String.ofList ('"' :: s.toList.flatMap escapeForQuotes ++ ['"'])

def quotedList (ss : List String) : String := "[" ++ ", ".intercalate (ss.map quoted) ++ "]"

end RowContract.Text
