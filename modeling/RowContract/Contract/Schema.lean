import RowContract.Json.Equality
import RowContract.Json.Text

/-!
The schema of contract documents.  A check lists every violation in a value, in
the order in which its rules are written; the checks of a compound value are put
together from the checks of its parts.
-/

namespace RowContract.Schema

inductive Kind where
  | array
  | boolean
  | integer
  | null
  | object
  | string
  deriving DecidableEq, Repr

def Kind.name : Kind → String
  | .array => "array"
  | .boolean => "boolean"
  | .integer => "integer"
  | .null => "null"
  | .object => "object"
  | .string => "string"

/-- Whether a value is of a kind.  A double without a fraction is an integer here. -/
def Kind.holds : Kind → Json → Bool
  | .array, .array _ => true
  | .boolean, .bool _ => true
  | .integer, .number (.integer _) => true
  | .integer, .number (.double x) => (Binary64.integer? x).isSome
  | .null, .null => true
  | .object, .object _ => true
  | .string, .string _ => true
  | _, _ => false

inductive Violation where
  | wrongKind (value : Json) (kinds : List Kind)
  | missing (name : String)
  | tooShort (value : Json)
  | mismatch (value : Json) (pattern : String)
  | tooSmall (value : Json)
  | repeated (value : Json)
  | noAlternative (value : Json) (keyword : String)

/-- The wording of a violation; kinds are named in the order of the alphabet. -/
def Violation.message : Violation → String
  | .wrongKind v [k] => v.compact ++ " is not of type \"" ++ k.name ++ "\""
  | .wrongKind v ks =>
    v.compact ++ " is not of types " ++
      ", ".intercalate (ks.map fun k => "\"" ++ k.name ++ "\"")
  | .missing name => Json.quote name ++ " is a required property"
  | .tooShort v => v.compact ++ " is shorter than 1 character"
  | .mismatch v pattern => v.compact ++ " does not match \"" ++ pattern ++ "\""
  | .tooSmall v => v.compact ++ " is less than the minimum of 1"
  | .repeated v => v.compact ++ " has non-unique elements"
  | .noAlternative v keyword =>
    v.compact ++ " is not valid under any of the schemas listed in the '" ++ keyword ++
      "' keyword"

abbrev Check := Json → List Violation

def all (checks : List Check) : Check := fun v => checks.flatMap fun c => c v

def kind (ks : List Kind) : Check := fun v =>
  if ks.any fun k => k.holds v then [] else [.wrongKind v ks]

def required (names : List String) : Check
  | .object fields => (names.filter fun n => !Fields.contains fields n).map .missing
  | _ => []

def property (name : String) (check : Check) : Check
  | .object fields =>
    match Fields.get? fields name with
    | some v => check v
    | none => []
  | _ => []

def everyField (check : Check) : Check
  | .object fields => fields.flatMap fun (_, v) => check v
  | _ => []

def everyItem (check : Check) : Check
  | .array items => items.flatMap check
  | _ => []

def nonEmpty : Check
  | .string s => if s.isEmpty then [.tooShort (.string s)] else []
  | _ => []

/-- A text has a form; `pattern` is how messages show the form. -/
def matching (pattern : String) (holds : List Char → Bool) : Check
  | .string s => if holds s.toList then [] else [.mismatch (.string s) pattern]
  | _ => []

def atLeastOne : Check
  | .number (.integer n) => if n < 1 then [.tooSmall (.number (.integer n))] else []
  | .number (.double x) => if x < 1 then [.tooSmall (.number (.double x))] else []
  | _ => []

def distinct (equal : Json → Json → Bool) : List Json → Bool
  | [] => true
  | v :: r => r.all (fun w => !equal v w) && distinct equal r

/-- An array of no more items than this is short. -/
def shortLength : Nat := 15

/-- The items of an array differ; in an array that is not short the two zeros of
doubles differ too. -/
def unique : Check
  | .array items =>
    let equal := if items.length ≤ shortLength then JsonNumber.same else JsonNumber.sameSigned
    if distinct (Json.sameBy equal) items then [] else [.repeated (.array items)]
  | _ => []

/-- One of several checks finds nothing; the kinds of values they accept exclude each other. -/
def alternatives (keyword : String) (checks : List Check) : Check := fun v =>
  if checks.any fun c => (c v).isEmpty then [] else [.noAlternative v keyword]

/-! ### The parts of a contract -/

def text : Check := kind [.string]

def name : Check := all [text, nonEmpty]

def path : Check := all [text, matching "^/" fun cs => cs.head? == some '/']

def isIdentifierStart (c : Char) : Bool :=
  ('A' ≤ c && c ≤ 'Z') || ('a' ≤ c && c ≤ 'z') || c == '_'

def isIdentifier : List Char → Bool
  | [] => false
  | c :: r => isIdentifierStart c && r.all fun c => isIdentifierStart c || Text.isDigit c

def schemaName : Check := all [text, nonEmpty, matching "^[A-Za-z_][A-Za-z0-9_]*$" isIdentifier]

def requirement : Check :=
  alternatives "oneOf" [kind [.boolean], all [kind [.array], everyItem text]]

def filterRule : Check :=
  all [kind [.object], required ["element_type", "xml_path"],
    property "element_type" name,
    property "xml_path" path,
    property "required_attributes" (all [kind [.object], everyField requirement]),
    property "identity_attribute" text]

def contactRoles : Check :=
  all [kind [.object],
    property "contact_path" path,
    property "role_attribute" text,
    property "primary" text,
    property "secondary" text]

def elementFiltering : Check :=
  all [kind [.object],
    property "filter_rules" (all [kind [.array], everyItem filterRule]),
    property "contact_roles" contactRoles]

def relationship : Check :=
  all [kind [.object], required ["parent_table", "child_table", "foreign_key_column"],
    property "parent_table" name,
    property "child_table" name,
    property "foreign_key_column" name,
    property "parent_key_column" text]

def bitTable : Check := all [kind [.object], everyField (kind [.boolean, .integer])]

def chain : Check :=
  alternatives "oneOf" [kind [.string], all [kind [.array], everyItem text], kind [.null]]

def mapping : Check :=
  all [kind [.object], required ["target_table"],
    alternatives "anyOf" [required ["source_path"], required ["xml_path"]],
    property "source_path" path,
    property "xml_path" path,
    property "xml_attribute" name,
    property "target_table" name,
    property "target_column" text,
    property "data_type" name,
    property "data_length" (all [kind [.integer], atLeastOne]),
    property "mapping_type" chain,
    property "expression" (kind [.null, .string]),
    property "enum_name" (kind [.null, .string]),
    property "nullable" (kind [.boolean]),
    property "required" (kind [.boolean])]

def contract : Check :=
  all [kind [.object], required ["mappings"],
    property "source_table" text,
    property "source_column" text,
    property "xml_root_element" text,
    property "target_schema" schemaName,
    property "table_insertion_order" (all [kind [.array], everyItem name, unique]),
    property "element_filtering" elementFiltering,
    property "relationships" (all [kind [.array], everyItem relationship]),
    property "enum_mappings" (all [kind [.object],
      everyField (all [kind [.object], everyField (kind [.boolean, .integer, .string])])]),
    property "bit_conversions" (all [kind [.object],
      property "char_to_bit" bitTable,
      property "boolean_to_bit" bitTable]),
    property "mappings" (all [kind [.array], everyItem mapping])]

end RowContract.Schema
