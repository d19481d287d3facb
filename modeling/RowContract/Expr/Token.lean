/-!
Tokens of calculated-field expressions, and how messages name them.
-/

namespace RowContract.Expr

/-- The words with a meaning of their own; any mix of capital and small letters is the word. -/
inductive Keyword where
  | case
  | when
  | then
  | else
  | end
  | is
  | not
  | null
  | and
  | or
  deriving DecidableEq, Repr

def Keyword.text : Keyword → String
  | .case => "CASE"
  | .when => "WHEN"
  | .then => "THEN"
  | .else => "ELSE"
  | .end => "END"
  | .is => "IS"
  | .not => "NOT"
  | .null => "NULL"
  | .and => "AND"
  | .or => "OR"

def Keyword.all : List Keyword :=
  [.case, .when, .then, .else, .end, .is, .not, .null, .and, .or]

def Keyword.ofWord? (word : String) : Option Keyword :=
  Keyword.all.find? fun k => k.text == word.toUpper

inductive Symbol where
  | plus
  | minus
  | star
  | doubleStar
  | slash
  | doubleSlash
  | percent
  | leftParen
  | rightParen
  | eq
  | notEq
  | lt
  | le
  | gt
  | ge
  deriving DecidableEq, Repr

def Symbol.name : Symbol → String
  | .plus => "Plus"
  | .minus => "Minus"
  | .star => "Star"
  | .doubleStar => "DoubleStar"
  | .slash => "Slash"
  | .doubleSlash => "DoubleSlash"
  | .percent => "Percent"
  | .leftParen => "LParen"
  | .rightParen => "RParen"
  | .eq => "Eq"
  | .notEq => "NotEq"
  | .lt => "Lt"
  | .le => "Le"
  | .gt => "Gt"
  | .ge => "Ge"

/-- A token.  A number keeps the text it was written as. -/
inductive Token where
  | identifier (name : String)
  | number (lexeme : String)
  | string (s : String)
  | keyword (k : Keyword)
  | symbol (s : Symbol)
  deriving DecidableEq, Repr

def Token.describe : Token → String
  | .identifier name => "identifier '" ++ name ++ "'"
  | .number lexeme => "number " ++ lexeme
  | .string s => "string '" ++ s ++ "'"
  | .keyword k => k.text
  | .symbol s => s.name

def describeNext : Option Token → String
  | some t => t.describe
  | none => "end of expression"

end RowContract.Expr
