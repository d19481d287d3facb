import RowContract.Calendar.Basic
import RowContract.Decimal.Binary
import RowContract.Binary64.Reading
import RowContract.Json.Text

/-!
Column values: what a column of a row can hold, its text, its reading as a
number, its JSON form and its form as a literal of SQL.
-/

namespace RowContract

inductive Value where
  | null
  | int (n : Int)
  | decimal (d : Decimal)
  | text (s : String)
  | dateTime (t : DateTime)
  | bit (b : Bool)
  deriving DecidableEq

namespace Value

instance : Inhabited Value := ⟨.null⟩

def isNull : Value → Bool
  | .null => true
  | _ => false

def isBlank : Value → Bool
  | .null => true
  | .text s => Text.isBlankText s
  | _ => false

/-- The text of a value as it is shown; a missing value is shown as a word. -/
def display : Value → String
  | .null => "NULL"
  | .int n => toString n
  | .decimal d => d.text
  | .text s => s
  | .dateTime t => t.text
  | .bit b => if b then "1" else "0"

def text? : Value → Option String
  | .null => none
  | v => some v.display

/-- The value read as a number, if it can be. -/
def number? : Value → Option Float
  | .null => none
  | .int n => some (Binary64.ofInt n)
  | .decimal d => some d.toFloat
  | .text s => Binary64.finite? s
  | .dateTime _ => none
  | .bit b => some (if b then 1 else 0)

/-- The value of a JSON value.  A number that is not a signed integer of 64 bits becomes a decimal
with as few places as possible, if there is one; containers become their text. -/
def ofJson : Json → Value
  | .null => .null
  | .bool b => .bit b
  | .number (.integer n) =>
    if Text.fitsSigned n then .int n
    else match Decimal.ofFloat? (Binary64.ofInt n) with
      | some d => .decimal d.normalize
      | none => .null
  | .number (.double x) =>
    match Decimal.ofFloat? x with
    | some d => .decimal d.normalize
    | none => .null
  | .string s => .text s
  | v => .text v.compact

def toJson : Value → Json
  | .null => .null
  | .int n => .ofInt n
  | .decimal d => .number (.double d.toFloat)
  | .text s => .string s
  | .dateTime t => .string t.text
  | .bit b => .bool b

/-- A text as a literal of SQL: quotes inside are written twice. -/
def quoteLiteral (s : String) : List Char :=
  'N' :: '\'' :: s.toList.flatMap (fun c => if c = '\'' then ['\'', '\''] else [c]) ++ ['\'']

def sqlLiteral : Value → String
  | .null => "NULL"
  | .int n => toString n
  | .decimal d => d.text
  | .text s => String.ofList (quoteLiteral s)
  | .dateTime t => String.ofList ('\'' :: t.text.toList ++ ['\''])
  | .bit b => if b then "1" else "0"

/-- Equality as values: decimals are compared by amount, all else must be the same. -/
def same : Value → Value → Bool
  | .decimal a, .decimal b => a.same b
  | a, b => a == b

end Value

end RowContract
