import RowContract.Json.Shape

/-!
Log lines, and computations that write them.  A logged computation gives its
value together with the lines it wrote, in order; putting computations one after
the other puts their lines one after the other.
-/

namespace RowContract

inductive LogLevel where
  | info
  | success
  | warning
  | error
  deriving DecidableEq, Repr

def LogLevel.name : LogLevel → String
  | .info => "info"
  | .success => "success"
  | .warning => "warning"
  | .error => "error"

def LogLevel.all : List LogLevel := [.info, .success, .warning, .error]

def LogLevel.mark : LogLevel → String
  | .info => "   "
  | .success => "   ✓"
  | .warning => "   ⚠️"
  | .error => "   ❌"

structure LogEntry where
  level : LogLevel
  message : String
  table : Option String := none
  deriving DecidableEq, Repr

namespace LogEntry

def line (e : LogEntry) : String :=
  match e.table with
  | some table => e.level.mark ++ " [" ++ table ++ "] " ++ e.message
  | none => e.level.mark ++ " " ++ e.message

def toJson (e : LogEntry) : Json :=
  .object <|
    [("level", .string e.level.name), ("message", .string e.message)] ++
    match e.table with
    | some table => [("table", .string table)]
    | none => []

end LogEntry

/-- The one of some named values that a JSON value names: as a text, or as the only field of an
object, with null under it. -/
def Json.readName {α : Type} (known : List α) (name : α → String) : Json.Reader α := fun v =>
  let find := fun s => match known.find? fun a => name a == s with
    | some a => Except.ok a
    | none => .error (.unknownVariant s (known.map name))
  match v with
  | .string s => find s
  | .object [(s, w)] => do
    let a ← find s
    match w with
    | .null => .ok a
    | w => w.wrongType "unit"
  | .object fields => .error (.invalidValue (found (.object fields)) "map with a single key")
  | v => v.wrongType "string or map"

def LogLevel.ofJson : Json.Reader LogLevel := Json.readName LogLevel.all LogLevel.name

open RowContract.Json in
def LogEntry.ofJson : Json.Reader LogEntry := fun v => do
  let fs ← readStruct "LogEntry"
    [needed "level" LogLevel.ofJson, needed "message" readText,
     spare "table" (readOption readText)] v
  return {
    level := ← require fs "level" LogLevel.ofJson
    message := ← require fs "message" readText
    table := ← getOr fs "table" (readOption readText) none }

structure Logged (α : Type) where
  value : α
  lines : List LogEntry := []

namespace Logged

def write (e : LogEntry) : Logged Unit := ⟨(), [e]⟩

def warn (table message : String) : Logged Unit := write ⟨.warning, message, some table⟩

instance : Monad Logged where
  pure a := ⟨a, []⟩
  bind x f :=
    let y := f x.value
    ⟨y.value, x.lines ++ y.lines⟩

@[simp] theorem value_pure {α : Type} (a : α) : (pure a : Logged α).value = a := rfl

@[simp] theorem lines_pure {α : Type} (a : α) : (pure a : Logged α).lines = [] := rfl

@[simp] theorem value_bind {α β : Type} (x : Logged α) (f : α → Logged β) :
    (x >>= f).value = (f x.value).value := rfl

@[simp] theorem lines_bind {α β : Type} (x : Logged α) (f : α → Logged β) :
    (x >>= f).lines = x.lines ++ (f x.value).lines := rfl

end Logged

end RowContract
