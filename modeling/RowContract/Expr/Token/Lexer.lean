import RowContract.Expr.Fault
import RowContract.Text.Blank
import RowContract.Text.Digits

/-!
Splitting an expression into tokens.  `nextToken` takes the longest token at the
front of a text, and `tokenize` repeats it with blanks skipped in between.
-/

namespace RowContract.Expr

open RowContract.Text

/-- Words that are refused wherever a name may stand. -/
def deniedWords : List String :=
  ["import", "exec", "eval", "compile", "open", "lambda", "globals", "locals",
   "getattr", "setattr", "delattr", "builtins", "subprocess"]

def isLetter (c : Char) : Bool := ('a' ≤ c && c ≤ 'z') || ('A' ≤ c && c ≤ 'Z')

def isNameStart (c : Char) : Bool := isLetter c || c == '_'

def isNameChar (c : Char) : Bool := isLetter c || isDigit c || c == '_'

def hasDoubleUnderscore : List Char → Bool
  | '_' :: '_' :: _ => true
  | _ :: r => hasDoubleUnderscore r
  | [] => false

/-- A word is refused for two underscores or for being denied, else it is a keyword or a name. -/
def classifyWord (word : List Char) : Except Fault Token :=
  let s := String.ofList word
  if hasDoubleUnderscore word || deniedWords.contains s.toLower then .error (.disallowedToken s)
  else match Keyword.ofWord? s with
    | some k => .ok (.keyword k)
    | none => .ok (.identifier s)

/-- The digits at the front with at most one point among them. -/
def numberLexeme (cs : List Char) : List Char :=
  cs.takeWhile isDigit ++
    match cs.dropWhile isDigit with
    | '.' :: r => '.' :: r.takeWhile isDigit
    | _ => []

/-- A string after its opening quote: its characters and the rest.  A doubled quote stands for
one quote. -/
def stringBody? (quote : Char) : List Char → Option (List Char × List Char)
  | [] => none
  | [c] => if c = quote then some ([], []) else none
  | c :: d :: r =>
    if c = quote then
      if d = quote then (stringBody? quote r).map fun (s, rest) => (quote :: s, rest)
      else some ([], d :: r)
    else (stringBody? quote (d :: r)).map fun (s, rest) => (c :: s, rest)

/-- The symbol at the front, of two characters where two make one. -/
def symbol? : List Char → Option (Symbol × List Char)
  | '*' :: '*' :: r => some (.doubleStar, r)
  | '/' :: '/' :: r => some (.doubleSlash, r)
  | '!' :: '=' :: r => some (.notEq, r)
  | '<' :: '>' :: r => some (.notEq, r)
  | '<' :: '=' :: r => some (.le, r)
  | '>' :: '=' :: r => some (.ge, r)
  | '=' :: '=' :: r => some (.eq, r)
  | '+' :: r => some (.plus, r)
  | '-' :: r => some (.minus, r)
  | '*' :: r => some (.star, r)
  | '/' :: r => some (.slash, r)
  | '%' :: r => some (.percent, r)
  | '(' :: r => some (.leftParen, r)
  | ')' :: r => some (.rightParen, r)
  | '=' :: r => some (.eq, r)
  | '<' :: r => some (.lt, r)
  | '>' :: r => some (.gt, r)
  | _ => none

/-- A number begins with a digit, or with a point before a digit. -/
def startsNumber : List Char → Bool
  | '.' :: d :: _ => isDigit d
  | c :: _ => isDigit c
  | [] => false

/-- The token at the front of a text that begins with `c`, and the rest. -/
def nextToken (c : Char) (r : List Char) : Except Fault (Token × List Char) :=
  if isNameStart c then
    (classifyWord ((c :: r).takeWhile isNameChar)).map fun t => (t, (c :: r).dropWhile isNameChar)
  else if startsNumber (c :: r) then
    let lexeme := numberLexeme (c :: r)
    .ok (.number (String.ofList lexeme), (c :: r).drop lexeme.length)
  else if c = '\'' ∨ c = '"' then
    match stringBody? c r with
    | some (s, rest) => .ok (.string (String.ofList s), rest)
    | none => .error (.malformed .unterminatedString)
  else match symbol? (c :: r) with
    | some (s, rest) => .ok (.symbol s, rest)
    | none => .error (.disallowedCharacter c)

/-- The tokens of a text; every round consumes a character, so `fuel` need not exceed their
number. -/
def tokens (fuel : Nat) (cs : List Char) : Except Fault (List Token) :=
  match fuel with
  | 0 => .ok []
  | fuel + 1 =>
    match dropBlanks cs with
    | [] => .ok []
    | c :: r => do
      let (t, rest) ← nextToken c r
      let ts ← tokens fuel rest
      .ok (t :: ts)

def tokenize (cs : List Char) : Except Fault (List Token) := tokens (cs.length + 1) cs

end RowContract.Expr
