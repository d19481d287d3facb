/-!
The trees of calculated-field expressions.
-/

namespace RowContract.Expr

inductive BinaryOp where
  | add
  | sub
  | mul
  | div
  | floorDiv
  | mod
  | pow
  deriving DecidableEq, Repr

inductive CompareOp where
  | eq
  | notEq
  | lt
  | le
  | gt
  | ge
  deriving DecidableEq, Repr

mutual

/-- An expression that gives a value.  A number is kept as it was written. -/
inductive Tree where
  | number (lexeme : String)
  | text (s : String)
  | null
  | field (name : String)
  | neg (inner : Tree)
  | binary (op : BinaryOp) (lhs rhs : Tree)
  | case (branches : Branches)

/-- What follows in a case distinction: another arm, or its end with or without a value for all
other cases. -/
inductive Branches where
  | arm (condition : Condition) (value : Tree) (rest : Branches)
  | otherwise (value : Tree)
  | done

inductive Condition where
  | compare (op : CompareOp) (lhs rhs : Tree)
  | isNull (operand : Tree) (negated : Bool)
  | not (inner : Condition)
  | and (a b : Condition)
  | or (a b : Condition)

end

mutual

def Tree.fieldNames : Tree → List String
  | .number _ => []
  | .text _ => []
  | .null => []
  | .field name => [name]
  | .neg inner => inner.fieldNames
  | .binary _ lhs rhs => lhs.fieldNames ++ rhs.fieldNames
  | .case branches => branches.fieldNames

def Branches.fieldNames : Branches → List String
  | .arm condition value rest => condition.fieldNames ++ value.fieldNames ++ rest.fieldNames
  | .otherwise value => value.fieldNames
  | .done => []

def Condition.fieldNames : Condition → List String
  | .compare _ lhs rhs => lhs.fieldNames ++ rhs.fieldNames
  | .isNull operand _ => operand.fieldNames
  | .not inner => inner.fieldNames
  | .and a b => a.fieldNames ++ b.fieldNames
  | .or a b => a.fieldNames ++ b.fieldNames

end

/-- Put a name in its place in an ascending list without repetition. -/
def insertName (name : String) : List String → List String
  | [] => [name]
  | n :: r =>
    if name = n then n :: r
    else if name < n then name :: n :: r
    else n :: insertName name r

def sortNames (names : List String) : List String := names.foldr insertName []

def Tree.fields (t : Tree) : List String := sortNames t.fieldNames

end RowContract.Expr
