import RowContract.Fields
import RowContract.Binary64.Basic

/-!
JSON values.  Objects keep the order of their fields, and a number is either an
integer of at most 64 bits or a double; which of the two it is, its text
decides.
-/

namespace RowContract

/-- A JSON number: an integer that fits 64 bits with or without a sign, or a double. -/
inductive JsonNumber where
  | integer (n : Int)
  | double (x : Float)

inductive Json where
  | null
  | bool (b : Bool)
  | number (n : JsonNumber)
  | string (s : String)
  | array (items : List Json)
  | object (fields : List (String × Json))

instance : Inhabited Json := ⟨.null⟩

namespace Json

def ofInt (n : Int) : Json := .number (.integer n)

def ofNat (n : Nat) : Json := .number (.integer n)

/-- The value of a field, of objects only. -/
def field? : Json → String → Option Json
  | .object fields, name => Fields.get? fields name
  | _, _ => none

end Json

end RowContract
