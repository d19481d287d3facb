import RowContract.Text.Search

/-!
Failures of a load.  A database reports a failure with a text and perhaps a
number; which kind of failure it is, the number decides if it is known, and else
the wording.
-/

namespace RowContract

structure DbError where
  message : String
  code : Option Int := none
  deriving DecidableEq, Repr

inductive LoadFault where
  | primaryKey
  | foreignKey
  | check
  | notNull
  /-- A value does not fit the type of its column. -/
  | coercion
  | system
  deriving DecidableEq, Repr

namespace LoadFault

def all : List LoadFault := [.primaryKey, .foreignKey, .check, .notNull, .coercion, .system]

def name : LoadFault → String
  | .primaryKey => "primary_key_violation"
  | .foreignKey => "foreign_key_violation"
  | .check => "check_constraint_violation"
  | .notNull => "not_null_violation"
  | .coercion => "type_coercion"
  | .system => "system"

def phrase : LoadFault → String
  | .primaryKey => "primary key violation"
  | .foreignKey => "foreign key violation"
  | .check => "check constraint violation"
  | .notNull => "not null violation"
  | .coercion => "type coercion error"
  | .system => "system error"

/-- The kind that a number stands for; one number stands for two kinds, which the wording tells
apart. -/
def ofCode? (saysCheck : Bool) (code : Int) : Option LoadFault :=
  if [2627, 2601].contains code then some .primaryKey
  else if code = 515 then some .notNull
  else if code = 547 then some (if saysCheck then .check else .foreignKey)
  else if [245, 8114, 8115, 241, 242, 2628, 8152].contains code then some .coercion
  else none

/-- Wordings in small letters, with the kinds that they tell; the first that occurs counts. -/
def wordings : List (String × LoadFault) :=
  [("primary key constraint", .primaryKey),
   ("unique key constraint", .primaryKey),
   ("duplicate key", .primaryKey),
   ("foreign key constraint", .foreignKey),
   ("reference constraint", .foreignKey),
   ("check constraint", .check),
   ("cannot insert the value null", .notNull),
   ("does not allow nulls", .notNull),
   ("cast specification", .coercion),
   ("converting", .coercion),
   ("conversion failed", .coercion),
   ("invalid character value", .coercion),
   ("string data, right truncation", .coercion),
   ("would be truncated", .coercion),
   ("out of range", .coercion),
   ("arithmetic overflow", .coercion)]

def ofWording (message : List Char) : LoadFault :=
  match wordings.find? fun w => Text.occursIn w.1.toList message with
  | some (_, fault) => fault
  | none => .system

def classify (e : DbError) : LoadFault :=
  let message := e.message.toList.map Text.small
  let saysCheck := Text.occursIn "check constraint".toList message
  (e.code.bind (ofCode? saysCheck)).getD (ofWording message)

end LoadFault

structure LoadError where
  fault : LoadFault
  table : String
  message : String
  /-- The index of the failing record, if it is known. -/
  row : Option Nat := none
  deriving DecidableEq, Repr

def LoadError.text (e : LoadError) : String :=
  e.fault.phrase ++ " on table '" ++ e.table ++ "': " ++ e.message

end RowContract
