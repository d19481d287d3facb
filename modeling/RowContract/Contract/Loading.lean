import RowContract.Contract.Reading
import RowContract.Contract.Schema
import RowContract.Json.Parser

/-!
Loading a contract: its document is checked against the schema, read, checked for
consistency, and its expressions are compiled.
-/

namespace RowContract

inductive ContractError where
  /-- The text is no JSON. -/
  | noJson
  | violations (vs : List Schema.Violation)
  | shape (e : ShapeError)
  | missingEnum (table column enumName : String)
  | missingExpression (table column : String)
  | expression (e : ExpressionError)
  | invalidMapping (table column reason : String)

/-- The wording of the error; `syntaxText` stands for what is said about a text that is no JSON. -/
def ContractError.message (syntaxText : String) : ContractError → String
  | .noJson => "Invalid contract JSON: " ++ syntaxText
  | .violations vs =>
    "Contract schema validation failed: " ++ Text.quotedList (vs.map Schema.Violation.message)
  | .shape e => "Invalid contract JSON: " ++ e.message
  | .missingEnum table column enumName =>
    "Mapping '" ++ table ++ "." ++ column ++ "' refers to unknown enum '" ++ enumName ++ "'"
  | .missingExpression table column =>
    "Mapping '" ++ table ++ "." ++ column ++ "' uses calculated_field without an expression"
  | .expression e => e.message
  | .invalidMapping table column reason =>
    "Invalid mapping '" ++ table ++ "." ++ column ++ "': " ++ reason

namespace Contract

/-- An operation of a mapping has what it needs: a lookup its table of codes, a calculation its
expression. -/
def checkOperation (c : Contract) (m : FieldMapping) (op : Operation) :
    Except ContractError Unit :=
  match op with
  | .enum =>
    if c.enumMappings.contains m.codeTable then .ok ()
    else .error (.missingEnum m.targetTable m.targetColumn m.codeTable)
  | .calculatedField =>
    if m.expression.all Text.isBlankText then
      .error (.missingExpression m.targetTable m.targetColumn)
    else .ok ()
  | _ => .ok ()

/-- The rules for rows and columns: a mapping without a column has exactly one operation that
appends a row, one with a column has none; and it reads an attribute. -/
def checkTarget (m : FieldMapping) : Except ContractError Unit :=
  let invalid := fun reason => .error (.invalidMapping m.targetTable m.targetColumn reason)
  let rows := (m.chain.filter Operation.createsRow).length
  if m.targetColumn.isEmpty ∧ rows = 0 then
    invalid "empty target_column without a row-creating mapping type"
  else if !m.targetColumn.isEmpty ∧ 0 < rows then
    invalid "row-creating mapping types need an empty target_column"
  else if 1 < rows then invalid "more than one row-creating mapping type"
  else if m.attributeName?.isNone then invalid "source_path names no attribute"
  else .ok ()

def checkMapping (c : Contract) (m : FieldMapping) : Except ContractError Unit := do
  checkTarget m
  m.chain.forM (checkOperation c m)

def check (c : Contract) : Except ContractError Unit := c.mappings.forM (checkMapping c)

def compileAll (done : Fields Expression) :
    List FieldMapping → Except ContractError (Fields Expression)
  | [] => .ok done
  | m :: rest =>
    match m.expression with
    | none => compileAll done rest
    | some text =>
      if done.contains text then compileAll done rest
      else match Expression.compile m.label text with
        | .ok e => compileAll (done ++ [(text, e)]) rest
        | .error e => .error (.expression e)

def prepare (c : Contract) : Except ContractError Contract := do
  c.check
  let expressions ← compileAll [] c.mappings
  return { c with expressions := expressions }

def isValidDocument (document : Json) : Bool := (Schema.contract document).isEmpty

def ofDocument (document : Json) : Except ContractError Contract :=
  match Schema.contract document with
  | [] => do
    let c ← (Contract.ofJson document).mapError .shape
    c.prepare
  | vs => .error (.violations vs)

def ofText (text : String) : Except ContractError Contract :=
  match Json.parse? text with
  | some document => ofDocument document
  | none => .error .noJson

end Contract

end RowContract
