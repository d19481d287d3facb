import RowContract.Contract.Loading
import RowContract.Document.Selection
import RowContract.Log

/-!
Resolving one field: its raw value goes through the chain of operations, is
converted to the type of the column, and is replaced by the default if nothing is
left.  A step that gives nothing ends the chain, with one exception: a calculation
directly before a lookup hands the raw value on if it gives nothing, and skips the
lookup if it gives something.
-/

namespace RowContract

inductive TransformError where
  /-- A required column is left without a value. -/
  | requiredField (table column sourcePath : String)
  /-- The expression of a required column fails. -/
  | expression (e : ExpressionError)

def TransformError.message : TransformError → String
  | .requiredField table column sourcePath =>
    "Required field '" ++ table ++ "." ++ column ++ "' resolved to null (source: " ++
      sourcePath ++ ")"
  | .expression e => e.message

/-- A computation that writes log lines and may fail; the lines stay when it fails. -/
abbrev Transform (α : Type) := ExceptT TransformError Logged α

inductive Resolved where
  | column (v : Value)
  | row (r : KeyValueRow)
  /-- A mapping that appends rows has no value, so no row. -/
  | noRow

/-- What an operation may look at besides the value: the contract, the rule of the field, the
other fields of the record, and the contacts if there are any. -/
structure ChainContext where
  contract : Contract
  mapping : FieldMapping
  fields : Expr.Context
  contacts : Option ContactSource

namespace ChainContext

/-- Look the value up in the table of codes; a word that is not there is reported. -/
def lookUp (ctx : ChainContext) (current : Value) : Transform Value :=
  match current.text? with
  | none => pure .null
  | some s =>
    let word := Text.trim s
    let m := ctx.mapping
    match ctx.contract.enumCode? m.codeTable word with
    | some v => pure v
    | none => do
      unless word.isEmpty do
        Logged.warn m.targetTable
          (m.label ++ ": value '" ++ word ++ "' not in enum '" ++ m.codeTable ++ "'")
      pure .null

def convertWord (bit? : String → Option Value) (current : Value) : Value :=
  match current.text? with
  | some s => (bit? s).getD .null
  | none => .null

/-- The digits of a value's text, as an integer if they fit. -/
def extractDigits (current : Value) : Value :=
  let digits := (current.text?.getD "").toList.filter Text.isDigit
  if digits.isEmpty then .null
  else match Text.signed? digits with
    | some n => .int n
    | none => .text (String.ofList digits)

def expression (ctx : ChainContext) : Except ExpressionError Expression :=
  let text := ctx.mapping.expression.getD ""
  match ctx.contract.compiled? text with
  | some e => .ok e
  | none => Expression.compile ctx.mapping.label text

def evaluate (ctx : ChainContext) : Except ExpressionError Value := do
  let e ← ctx.expression
  let v ← e.evaluate ctx.mapping.label ctx.fields
  return v.toValue

/-- The value of the expression.  An expression that fails gives nothing and is reported; if the
column is required and has no default, it is an error. -/
def calculate (ctx : ChainContext) : Transform Value :=
  match ctx.evaluate with
  | .ok v => pure v
  | .error e =>
    let m := ctx.mapping
    if m.required && m.defaultValue.isNone then throw (.expression e)
    else do
      Logged.warn m.targetTable (m.label ++ " set to NULL: " ++ e.message)
      pure .null

/-- The last text of the contacts in a role under the attribute of the rule; without contacts or
attribute the value stays as it is. -/
def fromContact (ctx : ChainContext) (role : ContactRole) (current : Value) : Value :=
  match ctx.contacts, ctx.mapping.attributeName? with
  | some contacts, some name =>
    match contacts role name with
    | some s => .text s
    | none => .null
  | _, _ => current

/-- Apply one operation.  Operations that append rows leave the value as it is. -/
def applyOperation (ctx : ChainContext) (op : Operation) (current : Value) : Transform Value :=
  match op with
  | .enum => ctx.lookUp current
  | .charToBit => pure (convertWord ctx.contract.charBit? current)
  | .booleanToBit => pure (convertWord ctx.contract.booleanBit? current)
  | .extractNumeric => pure (extractDigits current)
  | .calculatedField => ctx.calculate
  | .lastValidContact role => pure (ctx.fromContact role current)
  | _ => pure current

/-- Apply the operations from left to right.  `skipLookUp` says that a calculation just before
gave a value. -/
def applyChain (ctx : ChainContext) (raw : Value) (skipLookUp : Bool) :
    List Operation → Value → Transform Value
  | [], current => pure current
  | op :: rest, current =>
    if skipLookUp && op == .enum then ctx.applyChain raw false rest current
    else do
      let v ← ctx.applyOperation op current
      let feedsLookUp := op == .calculatedField && rest.head? == some .enum
      if v.isNull then
        if feedsLookUp then ctx.applyChain raw false rest raw else pure v
      else ctx.applyChain raw feedsLookUp rest v

def sourceLabel (m : FieldMapping) : String :=
  match m.locator with
  | (path, some name) => path ++ "/@" ++ name
  | (path, none) => path

/-- The value as a value of the column's type; one that cannot be converted is reported. -/
def convert (m : FieldMapping) (v : Value) : Logged Value :=
  match m.convert v with
  | some w => pure w
  | none => do
    Logged.warn m.targetTable
      (m.label ++ ": cannot convert '" ++ v.display ++ "' to " ++ m.dataType.display)
    pure .null

/-- The value of the column: the converted value, else the default, else nothing; a required
column has to have a value. -/
def finish (ctx : ChainContext) (v : Value) : Transform Value := do
  let m := ctx.mapping
  let w ← convert m v
  if !w.isNull then pure w
  else match m.defaultColumnValue? with
    | some d => pure d
    | none =>
      if m.required then throw (.requiredField m.targetTable m.targetColumn (sourceLabel m))
      else pure .null

/-- What the value of a mapping becomes: a column, or the value of an appended row. -/
def deliver (m : FieldMapping) (v : Value) : Resolved :=
  match m.rowOperation?.bind Operation.row? with
  | none => .column v
  | some (verb, key) =>
    if v.isNull then .noRow
    else .row ⟨m.targetTable, verb, (key.or m.attributeName?).getD "", v⟩

/-- Resolve a raw value.  A blank one counts as missing. -/
def resolve (ctx : ChainContext) (raw : Value) : Transform Resolved := do
  let raw := if raw.isBlank then .null else raw
  let v ← ctx.applyChain raw false ctx.mapping.chain raw
  let w ← ctx.finish v
  return deliver ctx.mapping w

end ChainContext

end RowContract
