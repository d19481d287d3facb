import RowContract.Record
import RowContract.Text.Blank

/-!
The operations of a field's chain and how a contract writes them: a word, and for
some of them a parameter in parentheses.
-/

namespace RowContract

open RowContract.Text

inductive ContactRole where
  | primary
  | secondary
  deriving DecidableEq, Repr

inductive Operation where
  /-- Look the value up in the field's table of codes. -/
  | enum
  /-- Turn a character for yes or no into a bit. -/
  | charToBit
  /-- Turn a word for true or false into a bit. -/
  | booleanToBit
  /-- Keep the digits only. -/
  | extractNumeric
  /-- Evaluate the field's expression. -/
  | calculatedField
  /-- Take the value of the last contact of a role that has one. -/
  | lastValidContact (role : ContactRole)
  | addScore (identifier : String)
  | addIndicator (name : String)
  | addHistory (name : Option String)
  | addReportLookup (name : Option String)
  deriving DecidableEq, Repr

inductive OperationError where
  | malformed (token : String)
  | unwantedParameter (verb parameter : String)
  | missingParameter (verb : String) (what : String)
  | unknown (verb : String)
  deriving DecidableEq, Repr

def OperationError.message : OperationError → String
  | .malformed token => "malformed mapping type '" ++ token ++ "'"
  | .unwantedParameter verb parameter =>
    "mapping type '" ++ verb ++ "' takes no parameter (got '" ++ parameter ++ "')"
  | .missingParameter verb what =>
    "mapping type '" ++ verb ++ "' requires a " ++ what ++ " parameter"
  | .unknown verb => "unknown mapping type '" ++ verb ++ "'"

namespace Operation

def isVerbChar (c : Char) : Bool := ('a' ≤ c && c ≤ 'z') || c == '_'

/-- Word and parameter of an operation without blanks around it.  The parameter holds no
parenthesis and has no blanks around it; an empty one counts as none. -/
def split? (cs : List Char) : Option (String × Option String) :=
  let verb := cs.takeWhile isVerbChar
  if verb.isEmpty then none
  else
    match dropBlanks (cs.dropWhile isVerbChar) with
    | [] => some (String.ofList verb, none)
    | '(' :: r =>
      let body := r.takeWhile fun c => c != '(' && c != ')'
      if r.drop body.length = [')'] then
        let parameter := trimChars body
        let parameter? := if parameter.isEmpty then none else some (String.ofList parameter)
        some (String.ofList verb, parameter?)
      else none
    | _ => none

def plain? (verb : String) : Option Operation :=
  match verb with
  | "enum" => some .enum
  | "char_to_bit" => some .charToBit
  | "boolean_to_bit" => some .booleanToBit
  | "extract_numeric" => some .extractNumeric
  | "numbers_only" => some .extractNumeric
  | "calculated_field" => some .calculatedField
  | "last_valid_pr_contact" => some (.lastValidContact .primary)
  | "last_valid_sec_contact" => some (.lastValidContact .secondary)
  | _ => none

def parse (token : String) : Except OperationError Operation :=
  let token := trim token
  match split? token.toList with
  | none => .error (.malformed token)
  | some (verb, parameter) =>
    match plain? verb, parameter with
    | some op, none => .ok op
    | some _, some p => .error (.unwantedParameter verb p)
    | none, parameter =>
      if verb = "add_score" then
        match parameter with
        | some p => .ok (.addScore p)
        | none => .error (.missingParameter verb "score identifier")
      else if verb = "add_indicator" then
        match parameter with
        | some p => .ok (.addIndicator p)
        | none => .error (.missingParameter verb "indicator name")
      else if verb = "add_history" then .ok (.addHistory parameter)
      else if verb = "add_report_lookup" then .ok (.addReportLookup parameter)
      else .error (.unknown verb)

def withParameter (verb : String) : Option String → String
  | some p => verb ++ "(" ++ p ++ ")"
  | none => verb

def display : Operation → String
  | .enum => "enum"
  | .charToBit => "char_to_bit"
  | .booleanToBit => "boolean_to_bit"
  | .extractNumeric => "extract_numeric"
  | .calculatedField => "calculated_field"
  | .lastValidContact .primary => "last_valid_pr_contact"
  | .lastValidContact .secondary => "last_valid_sec_contact"
  | .addScore identifier => withParameter "add_score" (some identifier)
  | .addIndicator name => withParameter "add_indicator" (some name)
  | .addHistory name => withParameter "add_history" name
  | .addReportLookup name => withParameter "add_report_lookup" name

/-- The kind of row an operation appends and the name it gives the row, if it appends one. -/
def row? : Operation → Option (RowVerb × Option String)
  | .addScore identifier => some (.score, some identifier)
  | .addIndicator name => some (.indicator, some name)
  | .addHistory name => some (.history, name)
  | .addReportLookup name => some (.reportLookup, name)
  | _ => none

def createsRow (op : Operation) : Bool := op.row?.isSome

def contactRole? : Operation → Option ContactRole
  | .lastValidContact role => some role
  | _ => none

end Operation

end RowContract
