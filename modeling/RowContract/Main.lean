import RowContract.Command.Run

/-!
The program: the command line in the directory and the environment it is called in.
-/

namespace RowContract.Program

def reason : IO.Error → String
  | .noFileOrDirectory .. => FileFault.missing.message
  | .permissionDenied .. => "Permission denied (os error 13)"
  | .inappropriateType .. => FileFault.isDirectory.message
  | e => toString e

def attempt {α : Type} (action : IO α) : IO (Except String α) := do
  try
    let a ← action
    return .ok a
  catch e => return .error (reason e)

def readEntries (entries : List IO.FS.DirEntry) : IO (List (String × String)) :=
  entries.filterMapM fun entry => do
    match ← attempt (IO.FS.readFile entry.path) with
    | .ok text => return some (entry.fileName, text)
    | .error _ => return none

def listFiles (path : String) : IO (List (String × String)) := do
  let place : IO.FS.DirEntry := ⟨path, ""⟩
  match ← attempt place.root.readDir with
  | .ok entries => readEntries entries.toList
  | .error _ => return []

def console : Console IO where
  readFile path := attempt (IO.FS.readFile path)
  writeFile path text := attempt (IO.FS.writeFile path text)
  removeFile path := attempt (IO.FS.removeFile path)
  isThere path :=
    let place : IO.FS.DirEntry := ⟨path, ""⟩
    place.root.pathExists
  listFiles := listFiles
  print text := IO.print text
  notify n := IO.eprintln n.text

def readEnvironment (names : List String) : IO Environment := do
  let found ← names.filterMapM fun name => do
    match ← IO.getEnv name with
    | some value => return some (name, value)
    | none => return none
  return Fields.get? found

/-- The variables that a run may look at: those of the settings, and those that a file `.env`
mentions. -/
def variableNames : IO (List String) := do
  match ← console.readFile ".env" with
  | .ok text => return LoaderSettings.variableNames ++ EnvironmentFile.mentioned text
  | .error _ => return LoaderSettings.variableNames

end RowContract.Program

open RowContract

def main (arguments : List String) : IO UInt32 := do
  let env ← Program.readEnvironment (← Program.variableNames)
  let code ← Program.console.run env arguments
  return code.toUInt32
