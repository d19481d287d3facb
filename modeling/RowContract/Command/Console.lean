import RowContract.Fields
import RowContract.FileFault
import RowContract.Text.Search

/-!
What a command uses of its surroundings: files, a place for its output and a place
for its notices.  Commands are written for any such surroundings.  One of them is a
directory in memory, where the whole effect of a command is a value.
-/

namespace RowContract

structure Notice where
  text : String
  /-- It tells what is wrong with the text of a JSON file. -/
  aboutJsonText : Bool := false
  deriving DecidableEq, Repr

/-- What a command uses of its surroundings.  Where a file cannot be used, the reason is given. -/
structure Console (m : Type → Type) where
  readFile : String → m (Except String String)
  writeFile : String → String → m (Except String Unit)
  removeFile : String → m (Except String Unit)
  /-- Whether there is a file or directory with a path. -/
  isThere : String → m Bool
  /-- The files of a directory by name; a directory that is not there has none. -/
  listFiles : String → m (List (String × String))
  print : String → m Unit
  notify : Notice → m Unit

/-- A directory in memory: its files by their paths, and what was written to the outside. -/
structure Sandbox where
  /-- Paths are written with one slash between their parts. -/
  files : Fields String := []
  output : String := ""
  notices : List Notice := []

namespace Sandbox

def join (parts : List String) : String := "/".intercalate parts

def hasDirectory (s : Sandbox) (parts : List String) : Bool :=
  parts.isEmpty || s.files.any fun f =>
    (join parts ++ "/").toList.isPrefixOf f.1.toList

inductive Place where
  /-- To these parts below the directory. -/
  | inside (parts : List String)
  /-- To one of the directories around it. -/
  | outside
  /-- To a name in one of those, under which nothing is known to be. -/
  | unknown
  deriving DecidableEq, Repr

def named (part : String) (place : Except FileFault Place) : Except FileFault Place :=
  if FileFault.maxNameLength < part.utf8ByteSize then .error .nameTooLong else place

/-- Go from a directory to a part below it, above it or in it.  Outside nothing is known but that
there are directories around each other. -/
def enter (s : Sandbox) (place : Place) (part : String) : Except FileFault Place :=
  match place with
  | .outside =>
    if part = "" ∨ part = "." ∨ part = ".." then .ok .outside
    else named part (.ok .unknown)
  | .unknown => .error .missing
  | .inside parts =>
    if s.files.contains (join parts) then .error .notDirectory
    else if !s.hasDirectory parts then .error .missing
    else if part = "" ∨ part = "." then .ok (.inside parts)
    else if part = ".." then .ok (if parts.isEmpty then .outside else .inside parts.dropLast)
    else named part (.ok (.inside (parts ++ [part])))

def follow (s : Sandbox) : Place → List String → Except FileFault Place
  | place, [] => .ok place
  | place, part :: rest => do
    let place ← s.enter place part
    s.follow place rest

def split (path : String) : List String :=
  (Text.pieces ['/'] path.toList).map String.ofList

def start (path : String) : Place :=
  if path.toList.head? = some '/' then .outside else .inside []

def checkLength (path : String) : Except FileFault Unit :=
  if path.isEmpty then .error .missing
  else if FileFault.maxPathLength < path.utf8ByteSize then .error .nameTooLong
  else .ok ()

def locate (s : Sandbox) (path : String) : Except FileFault Place := do
  checkLength path
  s.follow (start path) (split path)

def read (s : Sandbox) (path : String) : Except FileFault String := do
  match ← s.locate path with
  | .outside => .error .isDirectory
  | .unknown => .error .missing
  | .inside parts =>
    match s.files.get? (join parts) with
    | some text => .ok text
    | none => .error (if s.hasDirectory parts then .isDirectory else .missing)

def isThere (s : Sandbox) (path : String) : Bool :=
  match s.read path with
  | .ok _ => true
  | .error fault => fault = .isDirectory

def dropSlashes (path : String) : String :=
  String.ofList (path.toList.reverse.dropWhile (· == '/')).reverse

/-- The directory after a file was written, which leaves it as it is when the file lies outside.  A
slash at the end of a path asks for a directory, whatever its last part is, once the parts before it
lead to one. -/
def write (s : Sandbox) (path text : String) : Except FileFault Sandbox := do
  checkLength path
  if dropSlashes path ≠ path then
    let _ ← s.follow (start path) ((split (dropSlashes path)).dropLast ++ ["."])
    .error .isDirectory
  else match ← s.locate path with
    | .outside => .error .isDirectory
    | .unknown => .ok s
    | .inside parts =>
      if s.hasDirectory parts then .error .isDirectory
      else .ok { s with files := s.files.set (join parts) text }

def remove (s : Sandbox) (path : String) : Except FileFault Sandbox := do
  let _ ← s.read path
  match ← s.locate path with
  | .outside => .error .isDirectory
  | .unknown => .error .missing
  | .inside parts => .ok { s with files := s.files.filter fun f => f.1 != join parts }

def list (s : Sandbox) (path : String) : List (String × String) :=
  match s.locate path with
  | .ok (.inside parts) =>
    let start := if parts.isEmpty then [] else (join parts ++ "/").toList
    s.files.filterMap fun (name, text) => do
      let rest ← Text.dropPrefix? start name.toList
      if rest.contains '/' then none else some (String.ofList rest, text)
  | _ => []

def update (change : Sandbox → Except FileFault Sandbox) :
    StateM Sandbox (Except String Unit) := fun s =>
  match change s with
  | .ok t => (.ok (), t)
  | .error fault => (.error fault.message, s)

def console : Console (StateM Sandbox) where
  readFile path := fun s => ((s.read path).mapError FileFault.message, s)
  writeFile path text := update fun s => s.write path text
  removeFile path := update fun s => s.remove path
  isThere path := fun s => (s.isThere path, s)
  listFiles path := fun s => (s.list path, s)
  print text := modify fun s => { s with output := s.output ++ text }
  notify n := modify fun s => { s with notices := s.notices ++ [n] }

end Sandbox

end RowContract
