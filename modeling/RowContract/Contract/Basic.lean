import RowContract.Contract.Mapping
import RowContract.Expr.Expression

/-!
Contracts: the rules of all fields, the tables of codes, the filters that tell
valid elements, and the links between tables along which keys are passed on.
-/

namespace RowContract

inductive Code where
  | int (n : Int)
  | bool (b : Bool)
  | text (s : String)
  deriving DecidableEq, Repr

def Code.toValue : Code → Value
  | .int n => .int n
  | .bool b => .bit b
  | .text s => .text s

/-- Codes by word, in the order in which a search goes through them. -/
abbrev CodeTable := Fields Code

/-- The code of a word, or else of the first that is the same but for case. -/
def CodeTable.first? (codes : CodeTable) (word : String) : Option Code :=
  (codes.get? word).or
    ((codes.find? fun e => Text.sameIgnoringCase e.1 word).map Prod.snd)

structure BitConversions where
  charToBit : CodeTable := []
  booleanToBit : CodeTable := []

inductive Requirement where
  /-- With `true`, a visible text has to be there. -/
  | present (b : Bool)
  /-- One of these texts has to be there. -/
  | oneOf (allowed : List String)
  deriving DecidableEq, Repr

def Requirement.accepts : Requirement → String → Bool
  | .present false, _ => true
  | .present true, s => !s.isEmpty
  | .oneOf allowed, s => allowed.contains s

/-- The rule that tells valid elements at a path. -/
structure FilterRule where
  elementType : String
  xmlPath : String
  requiredAttributes : Fields Requirement := []
  /-- The attribute that names the entity an element is about. -/
  identityAttribute : Option String := none

/-- Whether an element with these attributes is valid; a missing attribute counts as empty. -/
def FilterRule.accepts (rule : FilterRule) (attributes : Fields String) : Bool :=
  rule.requiredAttributes.all fun (name, requirement) =>
    requirement.accepts (Text.trim ((attributes.get? name).getD ""))

/-- Where contacts stand and which codes mark their roles. -/
structure ContactRoles where
  contactPath : String := "/Provenir/Request/CustData/application/contact"
  roleAttribute : String := "ac_role_tp_c"
  primary : String := "PR"
  secondary : String := "AUTHU"

def ContactRoles.code (roles : ContactRoles) : ContactRole → String
  | .primary => roles.primary
  | .secondary => roles.secondary

structure ElementFiltering where
  filterRules : List FilterRule := []
  contactRoles : ContactRoles := {}

/-- The filter rule for a path; the first one counts. -/
def ElementFiltering.rule? (f : ElementFiltering) (path : String) : Option FilterRule :=
  f.filterRules.find? fun r => r.xmlPath == path

/-- A link along which the key of a parent row goes into a child row. -/
structure Relationship where
  parentTable : String
  childTable : String
  foreignKeyColumn : String
  /-- The column of the parent, when it is named otherwise. -/
  parentKeyColumn : Option String := none

def Relationship.parentKey (r : Relationship) : String :=
  r.parentKeyColumn.getD r.foreignKeyColumn

structure Contract where
  sourceTable : String := ""
  sourceColumn : String := ""
  xmlRootElement : String := ""
  targetSchema : String := "dbo"
  /-- Parents before children. -/
  tableInsertionOrder : List String := []
  elementFiltering : ElementFiltering := {}
  relationships : List Relationship := []
  enumMappings : Fields CodeTable := []
  bitConversions : BitConversions := {}
  mappings : List FieldMapping
  /-- The expressions of the mappings, compiled, by their text. -/
  expressions : Fields Expression := []

namespace Contract

/-- The compiled form of a text, looked up first without the blanks around it. -/
def compiled? (c : Contract) (text : String) : Option Expression :=
  (c.expressions.get? (Text.trim text)).or (c.expressions.get? text)

def enumCode? (c : Contract) (table word : String) : Option Value := do
  let codes ← c.enumMappings.get? table
  (codes.get? word).map Code.toValue

def codeIgnoringCase? (codes : CodeTable) (word : String) : Option Value :=
  (codes.first? word).map Code.toValue

def charBit? (c : Contract) (word : String) : Option Value :=
  codeIgnoringCase? c.bitConversions.charToBit (Text.trim word)

def booleanBit? (c : Contract) (word : String) : Option Value :=
  codeIgnoringCase? c.bitConversions.booleanToBit (Text.trim word)

def qualifiedTable (c : Contract) (table : String) : String :=
  "[" ++ c.targetSchema ++ "].[" ++ table ++ "]"

/-- The tables in the order of insertion, then the other tables of mappings as they come. -/
def tables (c : Contract) : List String :=
  c.mappings.foldl (fun ts m => if ts.contains m.targetTable then ts else ts ++ [m.targetTable])
    c.tableInsertionOrder

def mappingsFor (c : Contract) (table : String) : List FieldMapping :=
  c.mappings.filter fun m => m.targetTable == table

def filterRule? (c : Contract) (path : String) : Option FilterRule := c.elementFiltering.rule? path

def contactRoles (c : Contract) : ContactRoles := c.elementFiltering.contactRoles

end Contract

end RowContract
