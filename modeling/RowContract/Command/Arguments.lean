import RowContract.Command.Explanation
import RowContract.Text.Search

/-!
Arguments of the command line.  Options may stand anywhere at or behind the level
that knows them; after two hyphens everything is a value.  The two options of the
top level are known at every level, and the innermost one counts.
-/

namespace RowContract

inductive Task where
  | validate (contract : String)
  | evaluate (expression : String) (fields : List String)
  | transform (contract document : String) (output : Option String)
  | plan (contract document : String) (output : Option String)
  | listDiagnostics
  | showDiagnostic (id : String)
  | deleteDiagnostic (id : String)
  deriving DecidableEq, Repr

structure Invocation where
  task : Task
  /-- The file of settings. -/
  settingsFile : Option String := none
  diagnosticsDir : Option String := none
  deriving DecidableEq, Repr

inductive Declined where
  /-- The arguments do not fit. -/
  | misuse
  /-- The arguments ask for an explanation. -/
  | help (e : Explanation)
  deriving DecidableEq, Repr

namespace Arguments

structure OptionRule where
  name : String
  letter : Option Char := none
  /-- It may be given more than once. -/
  repeatable : Bool := false
  /-- The value names a file, so it is not empty. -/
  isPath : Bool := false
  deriving DecidableEq, Repr

def commonOptions : List OptionRule :=
  [{ name := "config", letter := some 'c', isPath := true },
   { name := "diagnostics-dir", isPath := true }]

def outputOption : OptionRule := { name := "output", letter := some 'o', isPath := true }

def fieldOption : OptionRule := { name := "field", letter := some 'f', repeatable := true }

/-- What is read at one level: options with their values, other values, and, at the word of a
deeper level, that word with all that follows. -/
structure Found where
  options : List (String × String) := []
  values : List String := []
  deeper : Option (String × List String) := none
  /-- What is wrong with the value right before that word; the deeper level goes before it. -/
  late : Option Declined := none
  deriving DecidableEq, Repr

/-- A level: the words that lead to it, its options, the words that lead deeper, and how many values
it takes. -/
structure Level where
  path : List String
  options : List OptionRule
  words : List String := []
  room : Nat := 0
  /-- The values name files, so they are not empty. -/
  takesPaths : Bool := false

/-- The word of a deeper level, if arguments start with one, with those that follow it. -/
def Level.word? (level : Level) : List String → Option (String × List String)
  | word :: rest => if level.words.contains word then some (word, rest) else none
  | [] => none

namespace Found

def addOption (f : Found) (rule : OptionRule) (value : String) : Except Declined Found :=
  if rule.isPath ∧ value.isEmpty then .error .misuse
  else if !rule.repeatable ∧ (f.options.any fun o => o.1 == rule.name) then .error .misuse
  else .ok { f with options := f.options ++ [(rule.name, value)] }

def addValue (f : Found) (level : Level) (value : String) : Except Declined Found :=
  if level.room ≤ f.values.length then .error .misuse
  else if level.takesPaths ∧ value.isEmpty then .error .misuse
  else .ok { f with values := f.values ++ [value] }

def option? (f : Found) (name : String) : Option String :=
  (f.options.find? fun o => o.1 == name).map Prod.snd

def settle (f : Found) : Except Declined Unit :=
  match f.late with
  | some fault => .error fault
  | none => .ok ()

end Found

inductive Flag where
  | help
  /-- An option with its value. -/
  | given (rule : OptionRule) (value : String)
  /-- An option whose value is the next argument. -/
  | awaits (rule : OptionRule)
  | unknown
  deriving DecidableEq, Repr

def longFlag (level : Level) (cs : List Char) : Flag :=
  let (name, value) := match Text.cut? ['='] cs with
    | some (name, value) => (String.ofList name, some (String.ofList value))
    | none => (String.ofList cs, none)
  if name = "help" then (if value.isNone then .help else .unknown)
  else match level.options.find? fun o => o.name == name, value with
    | some rule, some value => .given rule value
    | some rule, none => .awaits rule
    | none, _ => .unknown

/-- What an argument after one hyphen says; an equals sign may stand before the value. -/
def shortFlag (level : Level) : List Char → Flag
  | [] => .unknown
  | c :: rest =>
    if c = 'h' then .help
    else match level.options.find? fun o => o.letter == some c, rest with
      | some rule, [] => .awaits rule
      | some rule, '=' :: value => .given rule (String.ofList value)
      | some rule, value => .given rule (String.ofList value)
      | none, _ => .unknown

/-- What an argument says, if it starts with a hyphen and is more than that. -/
def flag? (level : Level) (argument : String) : Option Flag :=
  match argument.toList with
  | '-' :: '-' :: cs => some (longFlag level cs)
  | '-' :: c :: cs => some (shortFlag level (c :: cs))
  | _ => none

/-- The explanation of the command that words lead to, if there is one. -/
def explain {α : Type} (words : List String) : Except Declined α :=
  match Explanation.ofWords? words with
  | some e => .error (.help e)
  | none => .error .misuse

/-- Read the arguments of a level, after what was found before.  `awaited` is the option whose value
comes next; `plain` says that only values follow.  The value of an awaited option is looked at only
when the argument behind it shows that the level goes on. -/
def readArguments (level : Level) (awaited : Option OptionRule) (plain : Bool) (found : Found) :
    List String → Except Declined Found
  | [] => if awaited.isSome then .error .misuse else .ok found
  | argument :: rest =>
    if plain then do
      let found ← found.addValue level argument
      readArguments level none true found rest
    else if awaited.isNone ∧ level.words.contains argument then
      .ok { found with deeper := some (argument, rest) }
    else if argument = "--" then
      if awaited.isSome then .error .misuse else readArguments level none true found rest
    else match flag? level argument, awaited with
      | none, some rule =>
        match found.addOption rule argument, level.word? rest with
        | .ok found, _ => readArguments level none false found rest
        | .error fault, some deeper => .ok { found with deeper := some deeper, late := some fault }
        | .error fault, none => .error fault
      | none, none => do
        let found ← found.addValue level argument
        readArguments level none false found rest
      | some _, some _ => .error .misuse
      | some .help, none => explain level.path
      | some .unknown, none => .error .misuse
      | some (.given rule value), none => do
        let found ← found.addOption rule value
        readArguments level none false found rest
      | some (.awaits rule), none => readArguments level (some rule) false found rest

/-- Read a level that leads no deeper: it takes exactly as many values as there is room for. -/
def readLast (level : Level) (arguments : List String) : Except Declined Found := do
  let found ← readArguments level none false {} arguments
  if found.values.length = level.room then .ok found else .error .misuse

def readWord (path words arguments : List String) :
    Except Declined (Found × String × List String) := do
  let level : Level := { path := path, options := commonOptions, words := words }
  let found ← readArguments level none false {} arguments
  match found.deeper with
  | some (word, rest) => .ok (found, word, rest)
  | none => .error .misuse

def taskWords : List String := ["validate", "eval", "transform", "plan", "diagnostics"]

def diagnosticWords : List String := ["list", "show", "delete"]

def readMapping (word : String) (make : String → String → Option String → Task)
    (rest : List String) : Except Declined (Task × Found) := do
  let f ← readLast
    { path := [word], options := outputOption :: commonOptions, room := 2, takesPaths := true }
    rest
  match f.values with
  | [contract, document] => .ok (make contract document (f.option? "output"), f)
  | _ => .error .misuse

def readNamed (word : String) (make : String → Task) (rest : List String) :
    Except Declined (Task × Found) := do
  let f ← readLast { path := ["diagnostics", word], options := commonOptions, room := 1 } rest
  match f.values with
  | [id] => .ok (make id, f)
  | _ => .error .misuse

def readDiagnostics (word : String) (rest : List String) : Except Declined (Task × Found) :=
  match word with
  | "list" => do
    let f ← readLast { path := ["diagnostics", "list"], options := commonOptions } rest
    .ok (.listDiagnostics, f)
  | "show" => readNamed word .showDiagnostic rest
  | "delete" => readNamed word .deleteDiagnostic rest
  | _ => explain ("diagnostics" :: rest)

/-- The task behind a word of the top level, with the levels that were read for it, the innermost
first. -/
def readTask (word : String) (rest : List String) : Except Declined (Task × List Found) :=
  match word with
  | "validate" => do
    let f ← readLast
      { path := [word], options := commonOptions, room := 1, takesPaths := true } rest
    match f.values with
    | [contract] => .ok (.validate contract, [f])
    | _ => .error .misuse
  | "eval" => do
    let f ← readLast
      { path := [word], options := fieldOption :: commonOptions, room := 1 } rest
    let fields := (f.options.filter fun o => o.1 == "field").map Prod.snd
    match f.values with
    | [expression] => .ok (.evaluate expression fields, [f])
    | _ => .error .misuse
  | "transform" => do
    let (task, f) ← readMapping word .transform rest
    .ok (task, [f])
  | "plan" => do
    let (task, f) ← readMapping word .plan rest
    .ok (task, [f])
  | "diagnostics" => do
    let (f, word, rest) ← readWord [word] ("help" :: diagnosticWords) rest
    let (task, inner) ← readDiagnostics word rest
    f.settle
    .ok (task, [inner, f])
  | _ => explain rest

def read (arguments : List String) : Except Declined Invocation := do
  let (f, word, rest) ← readWord [] ("help" :: taskWords) arguments
  let (task, levels) ← readTask word rest
  f.settle
  let levels := levels ++ [f]
  return {
    task := task
    settingsFile := levels.findSome? fun f => f.option? "config"
    diagnosticsDir := levels.findSome? fun f => f.option? "diagnostics-dir" }

end Arguments

end RowContract
