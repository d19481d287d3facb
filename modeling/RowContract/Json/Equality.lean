import RowContract.Json.Basic

/-!
Equality of JSON values: numbers are compared by amount, and the fields of an
object in order.  Whether the two zeros of doubles are one amount is open, so the
comparison of values is given the comparison of numbers.
-/

namespace RowContract

namespace JsonNumber

def isNegativeZero : JsonNumber → Bool
  | .integer _ => false
  | .double x => x.toBits == (-0.0 : Float).toBits

def same : JsonNumber → JsonNumber → Bool
  | .integer a, .integer b => a == b
  | .double a, .double b => a == b
  | .integer a, .double b => Binary64.integer? b == some a
  | .double a, .integer b => Binary64.integer? a == some b

/-- Numbers are the same amount, and zero with a minus sign is an amount of its own. -/
def sameSigned (a b : JsonNumber) : Bool :=
  same a b && a.isNegativeZero == b.isNegativeZero

end JsonNumber

namespace Json

mutual

def sameBy (equal : JsonNumber → JsonNumber → Bool) : Json → Json → Bool
  | .null, .null => true
  | .bool a, .bool b => a == b
  | .number a, .number b => equal a b
  | .string a, .string b => a == b
  | .array a, .array b => sameItems equal a b
  | .object a, .object b => sameEntries equal a b
  | _, _ => false

def sameItems (equal : JsonNumber → JsonNumber → Bool) : List Json → List Json → Bool
  | [], [] => true
  | a :: r, b :: s => sameBy equal a b && sameItems equal r s
  | _, _ => false

def sameEntries (equal : JsonNumber → JsonNumber → Bool) :
    List (String × Json) → List (String × Json) → Bool
  | [], [] => true
  | (k, v) :: r, (l, w) :: s => k == l && sameBy equal v w && sameEntries equal r s
  | _, _ => false

end

end Json

example : JsonNumber.same (.integer 0) (.double (-0.0)) = true ∧
    JsonNumber.sameSigned (.integer 0) (.double (-0.0)) = false ∧
    JsonNumber.sameSigned (.integer 1) (.double 1.0) = true := by decide +kernel

end RowContract
