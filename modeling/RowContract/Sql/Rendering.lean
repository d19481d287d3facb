import RowContract.Sql.Statement

/-!
Rendering: a statement with the literals of its values in their places.  A
question mark inside a name or a text is no place.
-/

namespace RowContract.Sql

inductive RenderError where
  | tooFew (text : String)
  | tooMany (text : String)
  deriving DecidableEq, Repr

def RenderError.message : RenderError → String
  | .tooFew text => "not enough parameters for: " ++ text
  | .tooMany text => "too many parameters for: " ++ text

structure Position where
  inName : Bool := false
  inText : Bool := false
  deriving DecidableEq, Repr

def Position.after (p : Position) (c : Char) : Position :=
  if c = '[' ∧ !p.inText then { p with inName := true }
  else if c = ']' ∧ !p.inText then { p with inName := false }
  else if c = '\'' ∧ !p.inName then { p with inText := !p.inText }
  else p

def Position.isPlace (p : Position) (c : Char) : Bool := c == '?' && !p.inName && !p.inText

/-- The characters of a statement with values in their places; `tooFew` and `tooMany` are the
errors to give. -/
def substitute (tooFew tooMany : RenderError) (p : Position) :
    List Char → List Value → Except RenderError (List Char)
  | [], [] => .ok []
  | [], _ :: _ => .error tooMany
  | c :: rest, vs =>
    if p.isPlace c then
      match vs with
      | [] => .error tooFew
      | v :: vs => (substitute tooFew tooMany p rest vs).map (v.sqlLiteral.toList ++ ·)
    else (substitute tooFew tooMany (p.after c) rest vs).map (c :: ·)

def render (text : String) (params : List Value) : Except RenderError String :=
  (substitute (.tooFew text) (.tooMany text) {} text.toList params).map String.ofList

end RowContract.Sql
