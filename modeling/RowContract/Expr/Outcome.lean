import RowContract.Expr.Fault
import RowContract.Expr.Tree
import RowContract.Value

/-!
The value of an expression over the fields of a record.  In arithmetic whatever is
no number counts as zero; comparisons of order hold of numbers only, and `=`
compares texts, a number as it was written.
-/

namespace RowContract.Expr

abbrev Context := Fields Value

inductive Outcome where
  | null
  | number (x : Float)
  | text (s : String)

namespace Outcome

def isNull : Outcome → Bool
  | .null => true
  | _ => false

/-- A column value as it enters an expression: texts stay texts, other values are numbers if they
can be. -/
def ofValue : Option Value → Outcome
  | none => .null
  | some .null => .null
  | some (.text s) => .text s
  | some v =>
    match v.number? with
    | some x => .number x
    | none => .text v.display

def number? : Outcome → Option Float
  | .null => none
  | .number x => some x
  | .text s => Binary64.finite? s

/-- Whole numbers of fewer than sixteen digits are written without a point; all others with their
fewest digits in positional form. -/
def numberText (x : Float) : String :=
  match Binary64.integer? x with
  | some n => if n.natAbs < Nat.pow 10 15 then toString n else Binary64.Layout.plain.text x
  | none => Binary64.Layout.plain.text x

def text? : Outcome → Option String
  | .null => none
  | .number x => some (numberText x)
  | .text s => some s

/-- The column value of a result: whole numbers of 64 bits become integers, other numbers decimals
if there is one. -/
def toValue : Outcome → Value
  | .null => .null
  | .text s => .text s
  | .number x =>
    let inexact := match Decimal.ofFloat? x with
      | some d => Value.decimal d
      | none => Value.null
    match Binary64.integer? x with
    | some n => if n.natAbs < Nat.pow 2 63 then .int n else inexact
    | none => inexact

end Outcome

def literalValue (lexeme : String) : Float :=
  match Binary64.Numeral.ofChars? lexeme.toList with
  | some n => n.value false
  | none => 0

/-- Arithmetic on doubles.  The remainder has the sign of the divisor. -/
def BinaryOp.apply (op : BinaryOp) (a b : Float) : Except Fault Float :=
  match op with
  | .add => .ok (a + b)
  | .sub => .ok (a - b)
  | .mul => .ok (a * b)
  | .div => if b == 0 then .error .divisionByZero else .ok (a / b)
  | .floorDiv => if b == 0 then .error .divisionByZero else .ok (a / b).floor
  | .mod => if b == 0 then .error .divisionByZero else .ok (a - b * (a / b).floor)
  | .pow => .ok (a.pow b)

def CompareOp.holds (op : CompareOp) (a b : Float) : Bool :=
  match op with
  | .lt => a < b
  | .le => a ≤ b
  | .gt => b < a
  | .ge => b ≤ a
  | .eq => a == b
  | .notEq => a != b

mutual

def Tree.eval (ctx : Context) : Tree → Except Fault Outcome
  | .number lexeme => .ok (.number (literalValue lexeme))
  | .text s => .ok (.text s)
  | .null => .ok .null
  | .field name => .ok (.ofValue (ctx.get? name))
  | .neg inner => do
    let x ← inner.evalNumber ctx
    .ok (.number (-x))
  | .binary op lhs rhs => do
    let a ← lhs.evalNumber ctx
    let b ← rhs.evalNumber ctx
    let x ← op.apply a b
    .ok (.number x)
  | .case branches => branches.eval ctx

/-- The value in a place of arithmetic. -/
def Tree.evalNumber (ctx : Context) : Tree → Except Fault Float
  | .number lexeme => .ok (literalValue lexeme)
  | .text s => .ok ((Binary64.finite? s).getD 0)
  | .null => .ok 0
  | .field name => .ok ((Outcome.ofValue (ctx.get? name)).number?.getD 0)
  | .neg inner => do
    let x ← inner.evalNumber ctx
    .ok (-x)
  | .binary op lhs rhs => do
    let a ← lhs.evalNumber ctx
    let b ← rhs.evalNumber ctx
    op.apply a b
  | .case branches => do
    let v ← branches.eval ctx
    .ok (v.number?.getD 0)

def Branches.eval (ctx : Context) : Branches → Except Fault Outcome
  | .arm condition value rest => do
    if ← condition.eval ctx then value.eval ctx else rest.eval ctx
  | .otherwise value => value.eval ctx
  | .done => .ok .null

/-- Whether a condition holds.  The right side of `AND` and `OR` is looked at only if the left
side does not decide. -/
def Condition.eval (ctx : Context) : Condition → Except Fault Bool
  | .not inner => do
    let b ← inner.eval ctx
    .ok (!b)
  | .and a b => do
    if ← a.eval ctx then b.eval ctx else .ok false
  | .or a b => do
    if ← a.eval ctx then .ok true else b.eval ctx
  | .isNull operand negated => do
    let v ← operand.eval ctx
    let missing := match v with
      | .null => true
      | .text s => Text.isBlankText s
      | .number _ => false
    .ok (missing != negated)
  | .compare .eq lhs rhs => do
    let a ← lhs.evalText ctx
    let b ← rhs.evalText ctx
    .ok (a.isSome && a == b)
  | .compare .notEq lhs rhs => do
    let a ← lhs.evalText ctx
    let b ← rhs.evalText ctx
    .ok (!(a.isSome && a == b))
  | .compare op lhs rhs => do
    let a ← lhs.eval ctx
    let b ← rhs.eval ctx
    match a.number?, b.number? with
    | some a, some b => .ok (op.holds a b)
    | _, _ => .ok false

/-- The text that `=` compares: of a literal as it was written, of a field as it is stored. -/
def Tree.evalText (ctx : Context) : Tree → Except Fault (Option String)
  | .number lexeme => .ok (some lexeme)
  | .text s => .ok (some s)
  | .null => .ok none
  | .field name => .ok ((ctx.get? name).bind Value.text?)
  | .neg inner => do
    let x ← inner.evalNumber ctx
    .ok (some (Outcome.numberText (-x)))
  | .binary op lhs rhs => do
    let a ← lhs.evalNumber ctx
    let b ← rhs.evalNumber ctx
    let x ← op.apply a b
    .ok (some (Outcome.numberText x))
  | .case branches => do
    let v ← branches.eval ctx
    .ok v.text?

end

end RowContract.Expr
