import RowContract.Calendar.Layout
import RowContract.Decimal.Reading
import RowContract.Value

/-!
The types of target columns: how a contract writes them, and the conversion of a
value to a type.  A value that a type cannot hold has no conversion; a missing
value stays missing under every type.
-/

namespace RowContract

open RowContract.Text

inductive DataType where
  /-- Texts, with a greatest length if one is declared. -/
  | text (length : Option Nat)
  | tinyInt
  | smallInt
  | int
  | bigInt
  /-- Decimals; without a scale they are never rounded. -/
  | decimal (precision : Nat) (scale : Option Nat)
  | dateTime
  | bit
  deriving DecidableEq, Repr

inductive DataTypeError where
  | unknown (text : String)
  | invalidSize (text : String)
  deriving DecidableEq, Repr

def DataTypeError.message : DataTypeError → String
  | .unknown text => "unknown data type '" ++ text ++ "'"
  | .invalidSize text => "invalid size in data type '" ++ text ++ "'"

namespace DataType

instance : Inhabited DataType := ⟨.text none⟩

/-! ### Reading a type -/

/-- A type as written: a word, and in parentheses a size and perhaps a second one. -/
structure Spelling where
  name : List Char
  first : Option (List Char)
  second : Option (List Char)

def isSmallLetter (c : Char) : Bool := 'a' ≤ c && c ≤ 'z'

/-- A size: digits of any script, or the word for no bound. -/
def takeSize : List Char → Option (List Char × List Char)
  | 'm' :: 'a' :: 'x' :: r => some (['m', 'a', 'x'], r)
  | cs =>
    let ds := cs.takeWhile isScriptDigit
    if ds.isEmpty then none else some (ds, cs.dropWhile isScriptDigit)

def takeSizes (cs : List Char) : Option (List Char × Option (List Char)) := do
  let (first, r) ← takeSize (dropBlanks cs)
  match dropBlanks r with
  | [')'] => some (first, none)
  | ',' :: r =>
    let r := dropBlanks r
    let second := r.takeWhile isScriptDigit
    if second.isEmpty then none
    else match dropBlanks (r.dropWhile isScriptDigit) with
      | [')'] => some (first, some second)
      | _ => none
  | _ => none

def Spelling.ofChars? (cs : List Char) : Option Spelling :=
  let isNameChar := fun c => isSmallLetter c || isDigit c
  let name := cs.takeWhile isNameChar
  if name.head?.any isSmallLetter then
    match dropBlanks (cs.dropWhile isNameChar) with
    | [] => some ⟨name, none, none⟩
    | '(' :: r => (takeSizes r).map fun (first, second) => ⟨name, some first, second⟩
    | _ => none
  else none

inductive Family where
  | text
  | tinyInt
  | smallInt
  | int
  | bigInt
  | decimal
  | dateTime
  | bit

def Family.ofName? (name : String) : Option Family :=
  if ["string", "varchar", "nvarchar", "char", "nchar", "text"].contains name then some .text
  else if name = "tinyint" then some .tinyInt
  else if name = "smallint" then some .smallInt
  else if ["int", "integer"].contains name then some .int
  else if name = "bigint" then some .bigInt
  else if ["decimal", "numeric", "money"].contains name then some .decimal
  else if ["datetime", "datetime2", "date", "smalldatetime"].contains name then some .dateTime
  else if ["bit", "boolean"].contains name then some .bit
  else none

/-- The type that a text names; letters may be large or small.  Only texts and decimals take
sizes. -/
def parse (text : String) : Except DataTypeError DataType :=
  let size := fun (cs : List Char) => match unsigned? maxHalfWord cs with
    | some n => Except.ok n
    | none => .error (.invalidSize text)
  match Spelling.ofChars? (trim text).toLower.toList with
  | none => .error (.unknown text)
  | some ⟨name, first, second⟩ =>
    match Family.ofName? (String.ofList name), first with
    | some .text, none => .ok (.text none)
    | some .text, some n =>
      if n = ['m', 'a', 'x'] then .ok (.text none) else (size n).map fun n => .text (some n)
    | some .decimal, none => .ok (.decimal 18 none)
    | some .decimal, some p => do
      let precision ← size p
      let scale ← match second with
        | some s => size s
        | none => .ok 0
      .ok (.decimal precision (some scale))
    | some .tinyInt, none => .ok .tinyInt
    | some .smallInt, none => .ok .smallInt
    | some .int, none => .ok .int
    | some .bigInt, none => .ok .bigInt
    | some .dateTime, none => .ok .dateTime
    | some .bit, none => .ok .bit
    | _, _ => .error (.unknown text)

def display : DataType → String
  | .text (some n) => "varchar(" ++ toString n ++ ")"
  | .text none => "string"
  | .tinyInt => "tinyint"
  | .smallInt => "smallint"
  | .int => "int"
  | .bigInt => "bigint"
  | .decimal p (some s) => "decimal(" ++ toString p ++ "," ++ toString s ++ ")"
  | .decimal _ none => "decimal"
  | .dateTime => "datetime"
  | .bit => "bit"

/-! ### Conversion -/

def integerRange? : DataType → Option (Int × Int)
  | .tinyInt => some (0, 255)
  | .smallInt => some (-(Nat.pow 2 15 : Int), (Nat.pow 2 15 : Int) - 1)
  | .int => some (-(Nat.pow 2 31 : Int), (Nat.pow 2 31 : Int) - 1)
  | .bigInt => some (-(Nat.pow 2 63 : Int), (Nat.pow 2 63 : Int) - 1)
  | _ => none

def toInteger? : Value → Option Int
  | .int n => some n
  | .decimal d => some d.truncate
  | .bit b => some (if b then 1 else 0)
  | .text s =>
    let cs := trimChars s.toList
    (signed? cs).or ((Decimal.read? cs).map Decimal.truncate)
  | .null => none
  | .dateTime _ => none

/-- The decimal that a value stands for.  A text that is no number may become one without its
commas and dollar signs. -/
def toDecimal? : Value → Option Decimal
  | .int n => Decimal.ofInt? n
  | .decimal d => some d
  | .bit b => Decimal.ofInt? (if b then 1 else 0)
  | .text s =>
    let cs := trimChars s.toList
    (Decimal.read? cs).or (Decimal.read? (cs.filter fun c => c != ',' && c != '$'))
  | .null => none
  | .dateTime _ => none

def toBit? : Value → Option Bool
  | .bit b => some b
  | .int n => some (n != 0)
  | .decimal d => some (d.magnitude != 0)
  | .text s =>
    let word := (trim s).toLower
    if ["1", "y", "yes", "true", "t"].contains word then some true
    else if ["0", "n", "no", "false", "f"].contains word then some false
    else none
  | .null => none
  | .dateTime _ => none

/-- A text of at most `limit` characters; a text that is cut loses the blanks at the cut. -/
def cutText (limit : Option Nat) (s : String) : String :=
  match limit with
  | some n =>
    if n < s.toList.length then String.ofList (dropTrailingBlanks (s.toList.take n)) else s
  | none => s

/-- The value as a value of this type.  `maxLength` bounds texts, before the length that the type
declares. -/
def coerce (type : DataType) (value : Value) (maxLength : Option Nat) : Option Value :=
  if value.isNull then some .null
  else match type with
    | .text length => some (.text (cutText (maxLength.or length) value.display))
    | .decimal _ scale => (toDecimal? value).map fun d =>
      match scale with
      | some s => .decimal (d.round s)
      | none => .decimal d
    | .dateTime =>
      match value with
      | .dateTime t => some (.dateTime t)
      | .text s => (Calendar.parse? s).map .dateTime
      | _ => none
    | .bit => (toBit? value).map .bit
    | integral => do
      let (low, high) ← integral.integerRange?
      let n ← toInteger? value
      if low ≤ n ∧ n ≤ high then some (.int n) else none

end DataType

end RowContract
