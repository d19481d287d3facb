import RowContract.Value

/-!
Statements of SQL.  Names stand in brackets, and a closing bracket inside a name is
written twice, so that no name ends its own brackets.  Values are never part of
the text: each has a question mark as its place.
-/

namespace RowContract.Sql

/-- The inside of a name in brackets. -/
def escapeName (cs : List Char) : List Char :=
  cs.flatMap fun c => if c = ']' then [']', ']'] else [c]

def quoteName (name : String) : String :=
  String.ofList ('[' :: escapeName name.toList ++ [']'])

def listed (parts : List String) : String := ", ".intercalate parts

/-- Insert one row; every column has its place. -/
def insertText (qualifiedTable : String) (columns : List String) : String :=
  "INSERT INTO " ++ qualifiedTable ++ " (" ++ listed (columns.map quoteName) ++ ") VALUES (" ++
    listed (columns.map fun _ => "?") ++ ")"

/-- Switch explicit values for the identity column on or off. -/
def identityInsertText (qualifiedTable : String) (on : Bool) : String :=
  "SET IDENTITY_INSERT " ++ qualifiedTable ++ " " ++ if on then "ON" else "OFF"

structure Command where
  text : String
  params : List Value := []

def assignment (column : String) : String := quoteName column ++ " = ?"

/-- The condition that a column has a value; for a missing one it takes no place. -/
def condition (key : String × Value) : String :=
  if key.2.isNull then quoteName key.1 ++ " IS NULL" else quoteName key.1 ++ " = ?"

def updateCommand (qualifiedTable : String) (values keys : List (String × Value)) : Command where
  text :=
    "UPDATE " ++ qualifiedTable ++ " SET " ++
      listed (values.map fun v => assignment v.1) ++ " WHERE " ++
      " AND ".intercalate (keys.map condition)
  params :=
    values.map Prod.snd ++ (keys.map Prod.snd).filter fun v => !v.isNull

end RowContract.Sql
