import RowContract.Text.Search

/-!
What the program says about its own use: the purpose of a command, the form of its
call, and lists of what may stand in it.  The meanings in a list stand in one
column, two spaces behind the longest entry.
-/

namespace RowContract

structure Usable where
  form : String
  meaning : String
  deriving DecidableEq, Repr

structure Explanation where
  purpose : String
  /-- What the call is made of, the name of the program first. -/
  call : List String
  commands : List Usable := []
  arguments : List Usable := []
  options : List Usable := []
  deriving DecidableEq, Repr

namespace Explanation

/-- A list under its title; an empty one is left out. -/
def listing (title : String) (entries : List Usable) : List String :=
  let width := (entries.map fun e => e.form.length).foldl max 0
  let line := fun (e : Usable) =>
    "  " ++ e.form ++ String.ofList (List.replicate (width - e.form.length + 2) ' ') ++ e.meaning
  if entries.isEmpty then [] else ["", title] ++ entries.map line

def text (e : Explanation) : String :=
  let lines := [e.purpose, "", "Usage: " ++ " ".intercalate e.call] ++
    listing "Commands:" e.commands ++ listing "Arguments:" e.arguments ++
    listing "Options:" e.options
  String.join (lines.map fun line => line ++ "\n")

/-! ### The commands -/

def program : String := "xmlmigrate"

/-- The options of every command, with others between them. -/
def optionsWith (others : List Usable) : List Usable :=
  ⟨"-c, --config <CONFIG>", "Loader configuration file (JSON)"⟩ :: others ++
    [⟨"    --diagnostics-dir <DIAGNOSTICS_DIR>",
      "Diagnostics directory (overrides configuration)"⟩,
     ⟨"-h, --help", "Print help"⟩]

def helper : Usable := ⟨"help", "Print this message or the help of the given subcommand(s)"⟩

def ofGroup (purpose : String) (words : List String) (commands : List Usable) : Explanation where
  purpose := purpose
  call := program :: words ++ ["[OPTIONS]", "<COMMAND>"]
  commands := commands ++ [helper]
  options := optionsWith []

def ofCommand (purpose : String) (words : List String) (arguments others : List Usable) :
    Explanation where
  purpose := purpose
  call := program :: words ++ "[OPTIONS]" :: arguments.map Usable.form
  arguments := arguments
  options := optionsWith others

def ofHelper (words : List String) : Explanation where
  purpose := helper.meaning
  call := program :: words ++ ["help", "[COMMAND]..."]
  arguments := [⟨"[COMMAND]...", "Print help for the subcommand(s)"⟩]

def contract : Usable := ⟨"<CONTRACT>", "Contract JSON file"⟩

def document : Usable := ⟨"<DOCUMENT>", "Parsed document JSON file"⟩

def output : Usable := ⟨"-o, --output <OUTPUT>", "Output file (default: stdout)"⟩

def field : Usable := ⟨"-f, --field <FIELDS>", "Field value as name=value (repeatable)"⟩

def diagnosticId : Usable := ⟨"<ID>", "Diagnostic ID"⟩

def tasks : List Usable :=
  [⟨"validate", "Validate a mapping contract"⟩,
   ⟨"eval", "Evaluate a calculated-field expression"⟩,
   ⟨"transform", "Resolve a document into records"⟩,
   ⟨"plan", "Dry-run a load and print the T-SQL it would execute"⟩,
   ⟨"diagnostics", "Manage stored load diagnostics"⟩]

def diagnosticTasks : List Usable :=
  [⟨"list", "List stored diagnostics"⟩,
   ⟨"show", "Show one diagnostic"⟩,
   ⟨"delete", "Delete a diagnostic"⟩]

def meaningIn (commands : List Usable) (word : String) : String :=
  ((commands.find? fun c => c.form == word).map Usable.meaning).getD ""

def ofWords? (words : List String) : Option Explanation :=
  let task := fun word => meaningIn tasks word
  let diagnostic := fun word => meaningIn diagnosticTasks word
  match words with
  | [] => some (ofGroup "Contract-driven XML to SQL Server migration" [] tasks)
  | ["validate"] => some (ofCommand (task "validate") words [contract] [])
  | ["eval"] =>
    some (ofCommand (task "eval") words [⟨"<EXPRESSION>", "Expression text"⟩] [field])
  | ["transform"] => some (ofCommand (task "transform") words [contract, document] [output])
  | ["plan"] => some (ofCommand (task "plan") words [contract, document] [output])
  | ["diagnostics"] => some (ofGroup (task "diagnostics") words diagnosticTasks)
  | ["diagnostics", "list"] => some (ofCommand (diagnostic "list") words [] [])
  | ["diagnostics", "show"] => some (ofCommand (diagnostic "show") words [diagnosticId] [])
  | ["diagnostics", "delete"] => some (ofCommand (diagnostic "delete") words [diagnosticId] [])
  | ["help"] => some (ofHelper [])
  | ["diagnostics", "help"] => some (ofHelper ["diagnostics"])
  | _ => none

end Explanation

end RowContract
