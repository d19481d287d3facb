import RowContract.Expr.Token

/-!
Why an expression is refused or fails, and the wording of each cause.
-/

namespace RowContract.Expr

inductive SyntaxFault where
  | unterminatedString
  | emptyExpression
  | unexpected (token : Token)
  | unexpectedEnd
  | expected (wanted : Token) (found : Option Token)
  | missingWhen
  | missingComparison (found : Option Token)
  /-- The bound on nesting was reached; `parse` sets it beyond the reach of its input. -/
  | nestingLimit
  deriving DecidableEq, Repr

def SyntaxFault.message : SyntaxFault → String
  | .unterminatedString => "unterminated string literal"
  | .emptyExpression => "empty expression"
  | .unexpected t => "unexpected " ++ t.describe
  | .unexpectedEnd => "unexpected end of expression"
  | .expected wanted found => "expected " ++ wanted.describe ++ ", found " ++ describeNext found
  | .missingWhen => "CASE requires at least one WHEN clause"
  | .missingComparison found => "expected comparison operator, found " ++ describeNext found
  | .nestingLimit => "expression nests too deeply"

inductive Fault where
  /-- A character outside the set that the expression may use. -/
  | disallowedCharacter (c : Char)
  /-- A word that is never a field name. -/
  | disallowedToken (word : String)
  | malformed (fault : SyntaxFault)
  | divisionByZero
  deriving DecidableEq, Repr

def Fault.message : Fault → String
  | .disallowedCharacter c => "disallowed character '" ++ String.singleton c ++ "'"
  | .disallowedToken word => "disallowed token '" ++ word ++ "'"
  | .malformed fault => "syntax error: " ++ fault.message
  | .divisionByZero => "division by zero"

end Expr

/-- A fault of an expression, with the field it computes and its text. -/
structure ExpressionError where
  field : String
  expression : String
  reason : Expr.Fault

def ExpressionError.message (e : ExpressionError) : String :=
  "Expression for field '" ++ e.field ++ "' failed (" ++ e.reason.message ++ "): " ++ e.expression

end RowContract
