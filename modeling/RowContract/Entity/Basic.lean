import RowContract.Entity.Keys

/-!
Entities, and the rows that a document becomes.  A table whose rules read elements
with a filter has an entity for every selected element; any other table has one
entity if one of its paths occurs.  The values of an entity make one row of
columns, if there are any, and the rows that its rules append.
-/

namespace RowContract

/-- A row in the making, with what has been seen of it. -/
structure Draft where
  record : Record
  /-- The foreign keys that it started with. -/
  keys : List (String × Value)
  /-- Some rule has filled a column, if only with nothing. -/
  hasColumns : Bool := false
  /-- The rows appended so far. -/
  rows : List Built := []

namespace Draft

def start (table : String) (keys : List (String × Value)) : Draft :=
  { record := (Record.empty table).setAll keys, keys := keys }

/-- Give a column its value, unless that is missing. -/
def setColumn (w : Draft) (column : String) (v : Value) : Draft :=
  { w with
    record := if v.isNull then w.record else w.record.set column v
    hasColumns := true }

/-- Whether there is more to the row than its foreign keys. -/
def isWorthKeeping (w : Draft) : Bool := w.hasColumns && w.keys.length < w.record.size

def finish (w : Draft) (anchor : Nat) : List Built :=
  if w.isWorthKeeping then ⟨w.record, some anchor⟩ :: w.rows else w.rows

end Draft

namespace Contract

/-- The filter that the rules of a table are bound to.  Rules that fall back on contacts look at all
contacts and do not count. -/
def entityRule? (c : Contract) (rules : List FieldMapping) : Option FilterRule :=
  (rules.filter fun m => m.chain.all fun op => op.contactRole?.isNone).findSome? fun m =>
    c.filterRule? m.elementPath

/-- The indices of the elements that the entities of a table stand for. -/
def anchors (c : Contract) (d : Document) (rules : List FieldMapping) : List Nat :=
  match c.entityRule? rules with
  | some rule => (d.selected rule).map Prod.snd
  | none => ((rules.findSome? fun m => d.first? m.elementPath).map Prod.snd).toList

end Contract

/-- The element that a rule reads for an entity: the entity's own, else one inside it, else the
first at the path. -/
def FieldMapping.source? (m : FieldMapping) (d : Document) (anchor : Nat) :
    Option Document.Entry :=
  let inside := match d.element? anchor with
    | some e => if e.path = m.elementPath then some (e, anchor) else none
    | none => none
  (inside.or (d.firstWithin? m.elementPath anchor)).or (d.first? m.elementPath)

def FieldMapping.rawValue (m : FieldMapping) (source : Option Document.Entry) : Value :=
  match source, m.attributeName? with
  | some (e, _), some name =>
    match e.attribute? name with
    | some s => .text s
    | none => .null
  | _, _ => .null

/-- The names that an expression may use: the attributes of the element, and over them the columns
of the row so far. -/
def fieldValues (source : Option Document.Entry) (record : Record) : Expr.Context :=
  let attributes := match source with
    | some (e, _) => e.attributes.map fun (name, s) => (name, Value.text s)
    | none => []
  Fields.setAll attributes record.columns

/-- A document with the contract that it is mapped by. -/
structure Site where
  contract : Contract
  document : Document

namespace Site

def contacts (s : Site) : ContactSource :=
  let roles := s.contract.contactRoles
  s.document.contacts roles (s.contract.filterRule? roles.contactPath)

def applyRule (s : Site) (built : List Built) (anchor : Nat) (m : FieldMapping) (w : Draft) :
    Transform Draft := do
  let source := m.source? s.document anchor
  let ctx : ChainContext :=
    { contract := s.contract
      mapping := m
      fields := fieldValues source w.record
      contacts := some s.contacts }
  match ← ctx.resolve (m.rawValue source) with
  | .column v => pure (w.setColumn m.targetColumn v)
  | .row r => do
    let element := source.map Prod.snd
    let keys ← s.contract.parentKeys s.document r.table (element.or (some anchor)) built
    pure { w with rows := w.rows ++ [⟨r.toRecord keys, element⟩] }
  | .noRow => pure w

def applyRules (s : Site) (built : List Built) (anchor : Nat) :
    List FieldMapping → Draft → Transform Draft
  | [], w => pure w
  | m :: rest, w => do
    let w ← s.applyRule built anchor m w
    s.applyRules built anchor rest w

def buildEntity (s : Site) (table : String) (rules : List FieldMapping) (built : List Built)
    (anchor : Nat) : Transform (List Built) := do
  let keys ← s.contract.parentKeys s.document table (some anchor) built
  let w ← s.applyRules built anchor rules (Draft.start table keys)
  return w.finish anchor

def buildEntities (s : Site) (table : String) (rules : List FieldMapping) :
    List Nat → List Built → Transform (List Built)
  | [], built => pure built
  | anchor :: rest, built => do
    let rows ← s.buildEntity table rules built anchor
    s.buildEntities table rules rest (built ++ rows)

def buildTables (s : Site) : List String → List Built → Transform (List Built)
  | [], built => pure built
  | table :: rest, built => do
    let rules := s.contract.mappingsFor table
    let built ← s.buildEntities table rules (s.contract.anchors s.document rules) built
    s.buildTables rest built

def build (s : Site) : Transform (List Built) := s.buildTables s.contract.tables []

end Site

/-- The records of a document, in the order of the contract's tables. -/
def Contract.records (c : Contract) (d : Document) : Transform (List Record) := do
  let built ← Site.build ⟨c, d⟩
  return built.map Built.record

end RowContract
