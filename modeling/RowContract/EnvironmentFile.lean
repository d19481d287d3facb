import RowContract.Fields
import RowContract.Text.Search
import RowContract.Text.Word

/-!
Files of variables.  Such a file adds variables to an environment; one that the
environment already has stays as it is.  A line gives a name, an equals sign and a
value.  A value may be quoted, may refer to variables, and goes on over several
lines while a quote is open.  The first line that cannot be read ends the reading,
and what was read before it counts.
-/

namespace RowContract

abbrev Environment := String → Option String

namespace EnvironmentFile

open RowContract.Text

/-! ### Lines -/

def physicalLines : List Char → List (List Char)
  | [] => []
  | c :: rest =>
    if c = '\n' then [c] :: physicalLines rest
    else match physicalLines rest with
      | [] => [[c]]
      | line :: lines => (c :: line) :: lines

inductive LineState where
  | plain
  /-- After a blank: a hash would start a comment. -/
  | blank
  | escape
  | single
  | singleEscape
  | double
  | doubleEscape
  deriving DecidableEq, Repr

def LineState.start (c : Char) : LineState :=
  if c = '\\' then .escape
  else if c = '"' then .double
  else if c = '\'' then .single
  else .plain

def LineState.after : LineState → Char → LineState
  | .plain, c => if isBlank c ∧ c ≠ '\n' ∧ c ≠ '\r' then .blank else .start c
  | .blank, c => .start c
  | .escape, _ => .plain
  | .single, c => if c = '\\' then .singleEscape else if c = '\'' then .plain else .single
  | .singleEscape, _ => .single
  | .double, c => if c = '\\' then .doubleEscape else if c = '"' then .plain else .double
  | .doubleEscape, _ => .double

/-- The state at the end of a line, or what stands before its comment. -/
def scanLine (s : LineState) : List Char → LineState ⊕ List Char
  | [] => .inl s
  | c :: rest =>
    if s = .blank ∧ c = '#' then .inr []
    else match scanLine (s.after c) rest with
      | .inl t => .inl t
      | .inr before => .inr (c :: before)

def dropLineEnd (cs : List Char) : List Char :=
  match cs.reverse with
  | '\n' :: '\r' :: rest => rest.reverse
  | '\n' :: rest => rest.reverse
  | _ => cs

/-- Join the lines that belong together; `none` stands for a quote or an escape that the text leaves
open, and nothing follows it. -/
def logicalLines (s : LineState) (before : List Char) :
    List (List Char) → List (Option (List Char))
  | [] => if s = .plain then [] else [none]
  | line :: rest =>
    let joined := before ++ line
    if (dropBlanks joined).head? = some '#' then some [] :: logicalLines .plain [] rest
    else match scanLine s line with
      | .inr start => some (before ++ start) :: logicalLines .plain [] rest
      | .inl .plain => some (dropLineEnd joined) :: logicalLines .plain [] rest
      | .inl t => logicalLines t joined rest

/-! ### Values -/

inductive ValueMode where
  | text
  | escape
  | single
  /-- In the name of a variable without braces. -/
  | name (cs : List Char)
  /-- In the name of a variable with braces. -/
  | braced (cs : List Char)
  /-- After a blank: only a comment may follow. -/
  | ended
  deriving DecidableEq, Repr

structure ValueState where
  mode : ValueMode := .text
  inDouble : Bool := false
  /-- The characters of the value, the last one first. -/
  output : List Char := []

namespace ValueState

def push (s : ValueState) (c : Char) : ValueState :=
  { s with mode := .text, output := c :: s.output }

/-- Add the value of a variable; one that is not there has none. -/
def insert (s : ValueState) (env : Environment) (name : List Char) : ValueState :=
  { s with
    mode := .text
    output := (((env (String.ofList name)).getD "").toList).reverse ++ s.output }

def escaped? (c : Char) : Option Char :=
  if c = 'n' then some '\n'
  else if c ∈ ['\\', '\'', '"', '$', ' '] then some c
  else none

def text (s : ValueState) (c : Char) : ValueState :=
  if c = '$' then { s with mode := .name [] }
  else if c = '\\' then { s with mode := .escape }
  else if c = '"' then { s with inDouble := !s.inDouble }
  else if s.inDouble then s.push c
  else if c = '\'' then { s with mode := .single }
  else if c = ' ' ∨ c = '\t' then { s with mode := .ended }
  else s.push c

def step? (env : Environment) (s : ValueState) (c : Char) : Option ValueState :=
  match s.mode with
  | .ended => if c = ' ' ∨ c = '\t' then some s else none
  | .escape => (escaped? c).map s.push
  | .single => some (if c = '\'' then { s with mode := .text } else
      { s with output := c :: s.output })
  | .name cs =>
    if isWordChar c then some { s with mode := .name (cs ++ [c]) }
    else if c = '\x7b' ∧ cs = [] then some { s with mode := .braced [] }
    else
      let s := s.insert env cs
      some (if c = '$' then { s with mode := .name [] } else s.push c)
  | .braced cs =>
    if c = '\x7d' then some (s.insert env cs) else some { s with mode := .braced (cs ++ [c]) }
  | .text => some (s.text c)

def finish? (env : Environment) (s : ValueState) : Option String :=
  let closed := fun (s : ValueState) =>
    if s.inDouble then none else some (String.ofList s.output.reverse)
  match s.mode with
  | .single => none
  | .braced _ => none
  | .name cs => closed (s.insert env cs)
  | _ => closed s

def read? (env : Environment) (s : ValueState) : List Char → Option String
  | [] => s.finish? env
  | c :: rest =>
    if s.mode = .ended ∧ c = '#' then s.finish? env
    else (s.step? env c).bind fun s => s.read? env rest

end ValueState

/-! ### Entries -/

def name? (cs : List Char) : Option (List Char × List Char) :=
  match cs with
  | [] => none
  | c :: _ =>
    if c.isAlpha || c == '_' then
      let inName := fun (c : Char) => c.isAlphanum || c == '_' || c == '.'
      some (cs.takeWhile inName, dropBlanks (cs.dropWhile inName))
    else none

def afterEquals? : List Char → Option (List Char)
  | '=' :: rest => some (dropBlanks rest)
  | _ => none

/-- The name and the written value of a line.  The word `export` may stand in front, unless it is
the name itself. -/
def split? (cs : List Char) : Option (List Char × List Char) := do
  let (name, rest) ← name? cs
  match afterEquals? rest with
  | some value => some (name, value)
  | none =>
    if name = "export".toList then
      let (name, rest) ← name? rest
      let value ← afterEquals? rest
      some (name, value)
    else none

/-- What a line gives: nothing, a variable, or a failure. -/
inductive Entry where
  | nothing
  | variable (name value : String)
  | failure
  deriving DecidableEq, Repr

/-- Read a line; `env` holds the variables that it may refer to. -/
def readLine (env : Environment) (line : List Char) : Entry :=
  let cs := trimChars line
  if cs.isEmpty || cs.head? == some '#' then .nothing
  else match split? cs with
    | none => .failure
    | some (name, written) =>
      if written.isEmpty || written.head? == some '#' then .variable (String.ofList name) ""
      else match ValueState.read? env {} written with
        | some value => .variable (String.ofList name) value
        | none => .failure

def extend (env : Environment) (added : Fields String) : Environment := fun name =>
  (env name).or (added.get? name)

/-- Read lines one after the other.  `added` are the variables to add so far, and `written` all that
were read, which lines may refer to as well. -/
def readLines (env : Environment) (added written : Fields String) :
    List (Option (List Char)) → Fields String
  | [] => added
  | none :: _ => added
  | some line :: rest =>
    match readLine (extend (extend env added) written) line with
    | .nothing => readLines env added written rest
    | .failure => added
    | .variable name value =>
      let added := if (extend env added name).isSome then added else added ++ [(name, value)]
      readLines env added (written.set name value) rest

def dropByteMark (cs : List Char) : List Char :=
  match cs with
  | c :: rest => if c.toNat = 0xFEFF then rest else cs
  | [] => []

def additions (env : Environment) (text : String) : Fields String :=
  readLines env [] [] (logicalLines .plain [] (physicalLines (dropByteMark text.toList)))

def runs (inClass : Char → Bool) : List Char → List (List Char)
  | [] => []
  | c :: rest =>
    if inClass c then
      match rest, runs inClass rest with
      | next :: _, run :: others =>
        if inClass next then (c :: run) :: others else [c] :: run :: others
      | _, others => [c] :: others
    else runs inClass rest

def mentioned (text : String) : List String :=
  let cs := text.toList
  (runs (fun c => c.isAlphanum || c == '_' || c == '.') cs ++ runs isWordChar cs ++
    runs (fun c => c != '\x7b' && c != '\x7d') cs).map String.ofList

def load (env : Environment) (text : String) : Environment := extend env (additions env text)

end EnvironmentFile

end RowContract
