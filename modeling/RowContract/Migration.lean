import RowContract.Entity.Basic
import RowContract.Load.Loader

/-!
Migration of documents: a contract is opened, a document becomes records, the
records become batches, and the batches are loaded one after the other until one
fails.
-/

namespace RowContract

inductive MigrationError where
  | contract (e : ContractError)
  | transform (e : TransformError)
  | load (e : LoadError)

/-- The wording of the error; `syntaxText` stands for what is said about a text that is no JSON. -/
def MigrationError.message (syntaxText : String) : MigrationError → String
  | .contract e => "Contract error: " ++ e.message syntaxText
  | .transform e => "Transform error: " ++ e.message
  | .load e => "Load error: " ++ e.text

structure TableLoad where
  table : String
  qualifiedTable : String
  /-- How many records there were. -/
  submitted : Nat
  /-- How many of them were inserted or became updates. -/
  applied : Nat
  deriving DecidableEq, Repr

structure LoadSummary where
  tables : List TableLoad := []
  deriving DecidableEq, Repr

namespace LoadSummary

def submitted (s : LoadSummary) : Nat := (s.tables.map TableLoad.submitted).foldl (· + ·) 0

def applied (s : LoadSummary) : Nat := (s.tables.map TableLoad.applied).foldl (· + ·) 0

def appliedFor? (s : LoadSummary) (table : String) : Option Nat :=
  (s.tables.find? fun t => t.table == table).map TableLoad.applied

end LoadSummary

namespace Contract

def withSettings (c : Contract) (s : LoaderSettings) : Contract :=
  { c with targetSchema := s.targetSchema.getD c.targetSchema }

def openText (text : String) (s : LoaderSettings) : Logged (Except ContractError Contract) :=
  match ofText text with
  | .error e => pure (.error e)
  | .ok c => do
    let c := c.withSettings s
    Logged.write
      ⟨.success, "Contract loaded: " ++ toString c.mappings.length ++ " mappings, schema [" ++
        c.targetSchema ++ "]", none⟩
    return .ok c

def plan (c : Contract) (d : Document) (s : LoaderSettings) : Transform (List Batch) := do
  let records ← c.records d
  return Batch.ofRecords c s.identityInsertTables records

end Contract

def Work.ofLogged {σ α : Type} (x : Logged α) : Work σ α := fun s =>
  ⟨x.value, s, x.lines.map .line⟩

namespace Loader

variable {σ : Type}

def loadAll (c : Cursor σ) (l : Loader) :
    List Batch → Work σ (Except LoadError (List TableLoad) × Loader)
  | [] => pure (.ok [], l)
  | b :: rest => do
    match ← l.load c b with
    | (.error e, l) =>
      Work.log ⟨.error, "Document load stopped at " ++ b.qualifiedTable ++ ": " ++ e.text, none⟩
      return (.error e, l)
    | (.ok applied, l) =>
      match ← loadAll c l rest with
      | (.error e, l) => return (.error e, l)
      | (.ok tables, l) => return (.ok (⟨b.table, b.qualifiedTable, b.size, applied⟩ :: tables), l)

def loadDocument (c : Cursor σ) (l : Loader) (contract : Contract) (d : Document) :
    Work σ (Except MigrationError LoadSummary × Loader) := do
  match ← Work.ofLogged (contract.plan d l.settings).run with
  | .error e => return (.error (.transform e), l)
  | .ok batches =>
    Work.log ⟨.info, toString batches.length ++ " batches to load", none⟩
    match ← l.loadAll c batches with
    | (.error e, l) => return (.error (.load e), l)
    | (.ok tables, l) =>
      let summary : LoadSummary := ⟨tables⟩
      Work.log ⟨.success, "Document loaded: " ++ toString summary.applied ++ "/" ++
        toString summary.submitted ++ " rows applied", none⟩
      return (.ok summary, l)

end Loader

end RowContract
