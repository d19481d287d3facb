import RowContract.Contract.Basic
import RowContract.Document.Basic

/-!
Selection among repeated elements.  Of valid elements about one entity the last
one counts, at the place of the first; of contacts in a role, the last one that
has something to say.
-/

namespace RowContract

/-- The last visible text under an attribute among the contacts of a role. -/
abbrev ContactSource := ContactRole → String → Option String

namespace Document

/-- The text that names the entity an element is about: the visible text under the identity
attribute. -/
def identity? (identity : Option String) (e : Element) : Option String :=
  identity.bind e.visible?

/-- Put a candidate in the place of the one about the same entity, or at the end. -/
def place (identity : Option String) (c : Entry) : List Entry → List Entry
  | [] => [c]
  | s :: rest =>
    if (identity? identity c.1).isSome ∧ identity? identity s.1 = identity? identity c.1 then
      c :: rest
    else s :: place identity c rest

/-- The last candidate about each entity; candidates without an identity are all kept. -/
def selectLast (identity : Option String) (candidates : List Entry) : List Entry :=
  candidates.foldl (fun selected c => place identity c selected) []

def lastWith? (name : String) (candidates : List Entry) : Option Entry :=
  (candidates.filter fun (e, _) => (e.visible? name).isSome).getLast?

def hasRole (roles : ContactRoles) (role : ContactRole) (e : Element) : Bool :=
  (e.attribute? roles.roleAttribute).map Text.trim == some (roles.code role)

/-- The contacts of a document; without a rule all contacts are valid. -/
def contacts (d : Document) (roles : ContactRoles) (rule : Option FilterRule) : ContactSource :=
  fun role name =>
    let valid := (d.entriesAt roles.contactPath).filter fun (e, _) =>
      hasRole roles role e && rule.all fun r => r.accepts e.attributes
    (lastWith? name valid).bind fun (e, _) => e.visible? name

/-- The valid elements at the path of a rule, the last one about each entity. -/
def selected (d : Document) (rule : FilterRule) : List Entry :=
  selectLast rule.identityAttribute <|
    (d.entriesAt rule.xmlPath).filter fun (e, _) => rule.accepts e.attributes

end Document

end RowContract
