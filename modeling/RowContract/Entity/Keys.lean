import RowContract.Resolution

/-!
Foreign keys.  A row takes the key of a parent from the row that was built from
the nearest element around its own; where no such row exists, the only row of the
parent table will do.
-/

namespace RowContract

structure Built where
  record : Record
  element : Option Nat

namespace Built

/-- Whether a row was built from an element at or around the one at `i`. -/
def encloses (d : Document) (i : Nat) (b : Built) : Bool := b.element.any fun p => d.isWithin i p

/-- The row of the innermost element; of several rows of one element the last. -/
def innermost : List Built → Option Built
  | [] => none
  | b :: rest =>
    match innermost rest with
    | some best => if b.element.getD 0 ≤ best.element.getD 0 then some best else some b
    | none => some b

/-- The row that a row of the element at `i` takes its key from, among the rows of the parent
table. -/
def parent? (d : Document) (element : Option Nat) (parents : List Built) : Option Built :=
  let enclosing := element.bind fun i => innermost (parents.filter (encloses d i))
  match enclosing, parents with
  | some b, _ => some b
  | none, [only] => some only
  | none, _ => none

end Built

namespace Relationship

def parents (r : Relationship) (built : List Built) : List Built :=
  built.filter fun b => b.record.table == r.parentTable

/-- The key that a row takes along a link; it is missing if no parent has one. -/
def key (r : Relationship) (d : Document) (element : Option Nat) (built : List Built) : Value :=
  match Built.parent? d element (r.parents built) with
  | some b => b.record.getOrNull r.parentKey
  | none => .null

/-- What is said about a key that is missing although the parent table has rows. -/
def missingKey (r : Relationship) : String :=
  "no " ++ r.parentTable ++ "." ++ r.parentKey ++ " to propagate into " ++ r.foreignKeyColumn

/-- The foreign key along one link, as a list of at most one column. -/
def keyColumn (r : Relationship) (d : Document) (element : Option Nat) (built : List Built) :
    Logged (List (String × Value)) :=
  let v := r.key d element built
  if v.isNull then
    if (r.parents built).isEmpty then pure []
    else do
      Logged.warn r.childTable r.missingKey
      pure []
  else pure [(r.foreignKeyColumn, v)]

end Relationship

def keyColumns (d : Document) (element : Option Nat) (built : List Built) :
    List Relationship → Logged (List (String × Value))
  | [] => pure []
  | r :: rest => do
    let key ← r.keyColumn d element built
    let keys ← keyColumns d element built rest
    pure (key ++ keys)

/-- The foreign keys of a row of a table that is built from an element. -/
def Contract.parentKeys (c : Contract) (d : Document) (table : String) (element : Option Nat)
    (built : List Built) : Logged (List (String × Value)) :=
  keyColumns d element built (c.relationships.filter fun r => r.childTable == table)

end RowContract
