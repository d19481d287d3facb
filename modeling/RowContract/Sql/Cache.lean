import RowContract.Sql.Statement
import RowContract.Fields

/-!
Insert statements are kept by table and set of columns.  A statement that is kept
has the order of columns that it was first made with, so rows are put in the order
of the statement and not in their own.
-/

namespace RowContract.Sql

structure InsertStatement where
  text : String
  columns : List String
  deriving DecidableEq, Repr

def InsertStatement.make (qualifiedTable : String) (columns : List String) : InsertStatement :=
  ⟨insertText qualifiedTable columns, columns⟩

/-- What a statement is kept under: the table, and the columns sorted. -/
structure CacheKey where
  qualifiedTable : String
  columns : List String
  deriving DecidableEq, Repr

def CacheKey.of (qualifiedTable : String) (columns : List String) : CacheKey :=
  ⟨qualifiedTable, columns.mergeSort fun a b => a ≤ b⟩

structure StatementCache where
  entries : List (CacheKey × InsertStatement) := []
  hits : Nat := 0
  misses : Nat := 0
  deriving DecidableEq, Repr

namespace StatementCache

def size (c : StatementCache) : Nat := c.entries.length

def find? (c : StatementCache) (key : CacheKey) : Option InsertStatement :=
  (c.entries.find? fun e => e.1 == key).map Prod.snd

/-- The statement for a table and columns, made if it is not kept yet. -/
def statement (c : StatementCache) (qualifiedTable : String) (columns : List String) :
    InsertStatement × StatementCache :=
  let key := CacheKey.of qualifiedTable columns
  match c.find? key with
  | some s => (s, { c with hits := c.hits + 1 })
  | none =>
    let s := InsertStatement.make qualifiedTable columns
    (s, { c with
      entries := c.entries ++ [(key, s)]
      misses := c.misses + 1 })

end StatementCache

end RowContract.Sql
