import RowContract.FileFault
import RowContract.Load.Diagnostic

/-!
The store of diagnostics: a directory with one file for each.  Nothing is kept but
the files, so whatever else is written into the directory counts too, as far as it
can be read.  A name that could lead out of the directory names nothing.
-/

namespace RowContract

structure Store where
  files : Fields String := []
  /-- Why nothing can be written, if nothing can. -/
  blocked : Option String := none

inductive SaveError where
  | invalidId (id : String)
  | nameTooLong
  | blocked (reason : String)
  deriving DecidableEq, Repr

def SaveError.message : SaveError → String
  | .invalidId id => "invalid diagnostic id '" ++ id ++ "'"
  | .nameTooLong => FileFault.nameTooLong.message
  | .blocked reason => reason

namespace Store

/-- Names of diagnostics are made of ASCII letters, digits and hyphens. -/
def isValidId (id : String) : Bool :=
  !id.isEmpty && id.toList.all fun c => c.isAlphanum || c == '-'

def fileName? (id : String) : Option String :=
  if isValidId id then some (id ++ ".json") else none

def isDiagnosticFile (name : String) : Bool :=
  match Text.dropSuffix? ".json".toList name.toList with
  | some stem => !stem.isEmpty
  | none => false

def contents (s : Store) : List String :=
  (s.files.filter fun f => isDiagnosticFile f.1).map Prod.snd

def size (s : Store) : Nat := s.contents.length

def notBefore (a b : Diagnostic) : Bool := !a.createdAt.isBefore b.createdAt

def list (s : Store) : List Diagnostic :=
  (s.contents.filterMap Diagnostic.ofText?).mergeSort notBefore

def get? (s : Store) (id : String) : Option Diagnostic := do
  let name ← fileName? id
  let text ← s.files.get? name
  Diagnostic.ofText? text

def write (s : Store) (name text : String) : Store := { s with files := s.files.set name text }

def save (s : Store) (d : Diagnostic) : Except SaveError Store :=
  match fileName? d.id, s.blocked with
  | none, _ => .error (.invalidId d.id)
  | some _, some reason => .error (.blocked reason)
  | some name, none =>
    if FileFault.maxNameLength < name.utf8ByteSize then .error .nameTooLong
    else .ok (s.write name d.toJson.indented)

def notFound (id : String) : String := "Diagnostic not found: " ++ id

/-- The store without a diagnostic, if it was there. -/
def delete? (s : Store) (id : String) : Option Store := do
  let name ← fileName? id
  if s.files.contains name then
    some { s with files := s.files.filter fun f => f.1 != name }
  else none

end Store

end RowContract
