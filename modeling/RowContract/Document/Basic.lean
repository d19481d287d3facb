import RowContract.Fields
import RowContract.Text.Blank

/-!
Parsed documents: elements in document order, each with its path, its attributes
and the index of the element around it.  Where every parent stands before its
children, following the parents ends at a root; `isWithin` needs no such promise,
because a walk that meets no element twice has at most as many steps as there are
elements.
-/

namespace RowContract

structure Element where
  path : String
  attributes : Fields String := []
  /-- The index of the element around it. -/
  parent : Option Nat := none
  deriving DecidableEq, Repr

namespace Element

def attribute? (e : Element) (name : String) : Option String := e.attributes.get? name

/-- The text under an attribute, if it has a visible character. -/
def visible? (e : Element) (name : String) : Option String :=
  (e.attribute? name).filter fun s => !Text.isBlankText s

/-- Whether the path of the element is a proper part of a path, up to a slash. -/
def encloses (e : Element) (path : String) : Bool :=
  (e.path.toList ++ ['/']).isPrefixOf path.toList

end Element

structure Document where
  elements : List Element := []
  deriving DecidableEq, Repr

namespace Document

abbrev Entry := Element × Nat

def empty : Document := {}

def size (d : Document) : Nat := d.elements.length

def element? (d : Document) (i : Nat) : Option Element := d.elements[i]?

def entries (d : Document) : List Entry := d.elements.zipIdx

def push (d : Document) (e : Element) : Document := ⟨d.elements ++ [e]⟩

def enclosing? (d : Document) (path : String) : Option Nat :=
  (d.entries.reverse.find? fun (e, _) => e.encloses path).map Prod.snd

/-- Append an element inside the last one whose path encloses its own. -/
def pushNested (d : Document) (path : String) (attributes : Fields String) : Document :=
  d.push ⟨path, attributes, d.enclosing? path⟩

def entriesAt (d : Document) (path : String) : List Entry :=
  d.entries.filter fun (e, _) => e.path == path

def first? (d : Document) (path : String) : Option Entry :=
  d.entries.find? fun (e, _) => e.path == path

def containsPath (d : Document) (path : String) : Bool := (d.first? path).isSome

def parent? (d : Document) (i : Nat) : Option Nat := (d.element? i).bind Element.parent

/-- Whether at most `steps` steps from an element to the one around it lead from `i` to
`ancestor`. -/
def reaches (d : Document) (ancestor : Nat) : Nat → Nat → Bool
  | 0, i => i == ancestor
  | steps + 1, i =>
    i == ancestor ||
      match d.parent? i with
      | some p => d.reaches ancestor steps p
      | none => false

def isWithin (d : Document) (i ancestor : Nat) : Bool := d.reaches ancestor d.size i

/-- The first element at a path inside the element at `scope`, which may be the element itself. -/
def firstWithin? (d : Document) (path : String) (scope : Nat) : Option Entry :=
  d.entries.find? fun (e, i) => e.path == path && d.isWithin i scope

def ParentsPrecede (d : Document) : Prop :=
  ∀ e i, (e, i) ∈ d.entries → ∀ p, e.parent = some p → p < i

end Document

end RowContract
