import RowContract.Command.Arguments
import RowContract.Command.Console
import RowContract.Document.Reading
import RowContract.Load.Script
import RowContract.Migration

/-!
The commands: checking a contract, evaluating an expression, turning a document
into records or into a script, and looking after stored diagnostics.
-/

namespace RowContract

inductive CommandError where
  /-- All has been told already. -/
  | told
  | because (message : String)
  /-- The text of a JSON file is at fault. -/
  | jsonText (message : String)
  deriving DecidableEq, Repr

namespace CommandError

def noJson : String := "the text is not JSON"

def ofContract (e : ContractError) (message : String) : CommandError :=
  match e with
  | .noJson => .jsonText message
  | _ => .because message

def ofMigration (e : MigrationError) : CommandError :=
  match e with
  | .contract c => ofContract c (e.message noJson)
  | _ => .because (e.message noJson)

def notice? : CommandError → Option Notice
  | .told => none
  | .because message => some ⟨"❌ Error: " ++ message, false⟩
  | .jsonText message => some ⟨"❌ Error: " ++ message, true⟩

end CommandError

namespace Console

variable {m : Type → Type} [Monad m]

abbrev Step (m : Type → Type) (α : Type) := ExceptT CommandError m α

def tell (c : Console m) (text : String) : Step m Unit := ExceptT.lift (c.notify ⟨text, false⟩)

def showLines (c : Console m) (lines : List LogEntry) : Step m Unit :=
  lines.forM fun e => c.tell e.line

/-- The text of a file; `wording` makes the error out of the reason. -/
def textOf (c : Console m) (path : String) (wording : String → String) : Step m String := do
  match ← ExceptT.lift (c.readFile path) with
  | .ok text => return text
  | .error reason => throw (.because (wording reason))

def jsonOf (c : Console m) (path : String) : Step m Json := do
  let text ← c.textOf path id
  match Json.parse? text with
  | some v => return v
  | none => throw (.jsonText CommandError.noJson)

def contractOf (c : Console m) (path : String) (s : LoaderSettings) : Step m Contract := do
  let text ← c.textOf path fun reason =>
    "Contract error: Failed to read contract: " ++ reason
  let opened := Contract.openText text s
  c.showLines opened.lines
  match opened.value with
  | .ok contract => return contract
  | .error e => throw (.ofMigration (.contract e))

def documentOf (c : Console m) (path : String) : Step m Document := do
  let v ← c.jsonOf path
  match Document.ofJson v with
  | .ok d => return d
  | .error e => throw (.because e.message)

/-- Write a result to a file, or to the output with a line end behind it. -/
def deliver (c : Console m) (text : String) : Option String → Step m Unit
  | some path => do
    match ← ExceptT.lift (c.writeFile path text) with
    | .ok () => c.tell ("   💾 Saved to: " ++ path)
    | .error reason => throw (.because reason)
  | none =>
    ExceptT.lift (c.print (if text.toList.getLast? = some '\n' then text else text ++ "\n"))

/-! ### Settings -/

def settingsFrom (c : Console m) (path : String) : Step m LoaderSettings := do
  let text ← c.textOf path fun reason => "IO error: " ++ reason
  match LoaderSettings.ofText text with
  | .ok s => return s
  | .error e => throw (.jsonText ("JSON error: " ++ e.message CommandError.noJson))

/-- The settings of an invocation: those of its file or the usual ones, then the environment, then
its options. -/
def settingsOf (c : Console m) (env : Environment) (i : Invocation) : Step m LoaderSettings := do
  let base ← match i.settingsFile with
    | some path => c.settingsFrom path
    | none => pure {}
  let read := base.withEnvironment env
  c.showLines read.lines
  let s := read.value
  return { s with diagnosticsDir := i.diagnosticsDir.getD s.diagnosticsDir }

/-! ### Contracts and expressions -/

def shownViolations : Nat := 10

def validate (c : Console m) (path : String) : Step m Unit := do
  c.tell ("✔️  Validating: " ++ path)
  let v ← c.jsonOf path
  let violations := Schema.contract v
  if !violations.isEmpty then
    c.tell ("\n❌ " ++ toString violations.length ++ " schema violations:")
    (violations.take shownViolations).forM fun violation => c.tell ("   - " ++ violation.message)
    throw .told
  match Contract.ofDocument v with
  | .ok contract =>
    c.tell ("✅ Contract valid: " ++ toString contract.mappings.length ++ " mappings over " ++
      toString contract.tables.length ++ " tables")
  | .error e => throw (.ofContract e (e.message CommandError.noJson))

/-- The fields that some texts give, each a name and a value with an equals sign between them. -/
def readFields (done : Fields Value) : List String → Except CommandError (Fields Value)
  | [] => .ok done
  | field :: rest =>
    match Text.cut? ['='] field.toList with
    | some (name, value) =>
      readFields (done.set (Text.trim (String.ofList name)) (.text (String.ofList value))) rest
    | none => .error (.because ("field must be name=value: " ++ field))

def evaluate (c : Console m) (text : String) (fields : List String) : Step m Unit := do
  let values ← match readFields [] fields with
    | .ok values => pure values
    | .error e => throw e
  let result := do
    let e ← Expression.compile "expression" text
    e.evaluate "expression" values
  match result with
  | .ok v => ExceptT.lift (c.print (v.toValue.sqlLiteral ++ "\n"))
  | .error e => throw (.because e.message)

/-! ### Documents -/

def transform (c : Console m) (s : LoaderSettings) (contractPath documentPath : String)
    (output : Option String) : Step m Unit := do
  c.tell ("📄 Processing: " ++ documentPath)
  let contract ← c.contractOf contractPath s
  let d ← c.documentOf documentPath
  c.tell ("   Elements: " ++ toString d.size)
  let mapped := (contract.records d).run
  c.showLines mapped.lines
  match mapped.value with
  | .error e => throw (.because e.message)
  | .ok records =>
    c.tell ("⚙️  Resolved: " ++ toString records.length ++ " records")
    c.deliver (Json.array (records.map Record.toJson)).indented output

def plan (c : Console m) (s : LoaderSettings) (contractPath documentPath : String)
    (output : Option String) : Step m Unit := do
  c.tell ("📄 Planning: " ++ documentPath)
  let contract ← c.contractOf contractPath s
  let d ← c.documentOf documentPath
  let loader : Loader := { settings := s }
  let run := loader.loadDocument Script.cursor contract d { cursor := {} }
  c.showLines (LoadEvent.lines run.events)
  match run.value.1 with
  | .error e => throw (.ofMigration e)
  | .ok summary =>
    let script := run.session.cursor
    summary.tables.forM fun t =>
      c.tell ("   " ++ t.qualifiedTable ++ ": " ++ toString t.applied ++ " rows")
    c.tell ("\n✨ " ++ toString script.statements.length ++ " statements")
    c.deliver script.text output

/-! ### Diagnostics -/

def storeIn (c : Console m) (dir : String) : Step m Store := do
  let files ← ExceptT.lift (c.listFiles dir)
  return { files := files }

def listDiagnostics (c : Console m) (dir : String) : Step m Unit := do
  let store ← c.storeIn dir
  let all := store.list
  if all.isEmpty then c.tell ("No diagnostics in " ++ dir)
  else do
    c.tell ("📋 " ++ toString all.length ++ " diagnostics:\n")
    all.forM fun d => do
      c.tell ("  " ++ d.id ++ " | " ++ d.createdAt.text ++ " | " ++ d.table ++ " | " ++
        d.fault.phrase)
      c.tell ("    " ++ d.message)

/-- The path of a diagnostic in a directory, if its name can be one.  A directory without a name is
the one that the command runs in. -/
def diagnosticPath? (dir id : String) : Option String :=
  (Store.fileName? id).map fun name => if dir.isEmpty then name else dir ++ "/" ++ name

def showDiagnostic (c : Console m) (dir id : String) : Step m Unit := do
  let notFound := CommandError.because (Store.notFound id)
  match diagnosticPath? dir id with
  | none => throw notFound
  | some path =>
    match ← ExceptT.lift (c.readFile path) with
    | .error _ => throw notFound
    | .ok text =>
      match Diagnostic.ofText? text with
      | some d => ExceptT.lift (c.print (d.toJson.indented ++ "\n"))
      | none => throw notFound

def deleteDiagnostic (c : Console m) (dir id : String) : Step m Unit := do
  let notFound := CommandError.because (Store.notFound id)
  match diagnosticPath? dir id with
  | none => throw notFound
  | some path =>
    if !(← ExceptT.lift (c.isThere path)) then throw notFound
    match ← ExceptT.lift (c.removeFile path) with
    | .ok () => c.tell ("🗑️  Deleted diagnostic: " ++ id)
    | .error reason => throw (.because ("Failed to delete file: " ++ reason))

/-! ### The command line -/

def perform (c : Console m) (s : LoaderSettings) : Task → Step m Unit
  | .validate contract => c.validate contract
  | .evaluate expression fields => c.evaluate expression fields
  | .transform contract document output => c.transform s contract document output
  | .plan contract document output => c.plan s contract document output
  | .listDiagnostics => c.listDiagnostics s.diagnosticsDir
  | .showDiagnostic id => c.showDiagnostic s.diagnosticsDir id
  | .deleteDiagnostic id => c.deleteDiagnostic s.diagnosticsDir id

def misuse : String :=
  ((Explanation.ofWords? []).map Explanation.text).getD ""

/-- The environment with the variables of a file `.env`, if there is one. -/
def environment (c : Console m) (env : Environment) : m Environment := do
  match ← c.readFile ".env" with
  | .ok text => return EnvironmentFile.load env text
  | .error _ => return env

def run (c : Console m) (env : Environment) (arguments : List String) : m Nat := do
  let env ← c.environment env
  match Arguments.read arguments with
  | .error .misuse => do
    c.notify ⟨misuse, false⟩
    return 2
  | .error (.help e) => do
    c.print e.text
    return 0
  | .ok i => do
    let work : Step m Unit := do
      let s ← c.settingsOf env i
      c.perform s i.task
    match ← work.run with
    | .ok () => return 0
    | .error e => do
      match e.notice? with
      | some n => c.notify n
      | none => pure ()
      return 1

end Console

end RowContract
