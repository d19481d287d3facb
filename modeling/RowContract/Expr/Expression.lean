import RowContract.Expr.Outcome
import RowContract.Expr.Token.Lexer
import RowContract.Expr.Tree.Parser

/-!
Calculated-field expressions: checked and parsed once, evaluated for every record.
An expression is bare arithmetic over the fields of a record, or a case
distinction; only the latter may use quotes and comparisons.
-/

namespace RowContract

open RowContract.Expr

/-- A compiled expression: its text without blanks around it, and its tree. -/
structure Expression where
  source : String
  root : Tree

namespace Expression

def isArithmeticChar (c : Char) : Bool :=
  isLetter c || Text.isDigit c || c == '_' || Text.isBlank c ||
    ['+', '-', '*', '/', '%', '(', ')', '.'].contains c

/-- The text begins with the word that opens a case distinction, and a blank after it. -/
def startsWithCase (cs : List Char) : Bool :=
  Text.sameIgnoringCase (String.ofList (cs.take 4)) "case" &&
    (cs.drop 4).head?.any Text.isBlank

/-- The fault of the characters alone, if there is one. -/
def characterFault? (cs : List Char) : Option Fault :=
  if startsWithCase cs then none
  else (cs.find? fun c => !isArithmeticChar c).map .disallowedCharacter

def ofText (text : String) : Except Fault Expression := do
  let cs := Text.trimChars text.toList
  match characterFault? cs with
  | some fault => .error fault
  | none =>
    let ts ← tokenize cs
    match parse ts with
    | .ok root => .ok { source := String.ofList cs, root := root }
    | .error fault => .error (.malformed fault)

/-- Check and parse the text of a field; an error names the field and the text. -/
def compile (field text : String) : Except ExpressionError Expression :=
  (ofText text).mapError fun reason => { field := field, expression := text, reason := reason }

/-- The value over the given fields; an error names the field and the source. -/
def evaluate (e : Expression) (field : String) (ctx : Context) : Except ExpressionError Outcome :=
  (e.root.eval ctx).mapError fun reason =>
    { field := field, expression := e.source, reason := reason }

def isCase (e : Expression) : Bool :=
  match e.root with
  | .case _ => true
  | _ => false

end Expression

end RowContract
