import RowContract.EnvironmentFile
import RowContract.Json.Typed
import RowContract.Log

/-!
Settings of the loader.  What a file does not set keeps its usual value, and
variables of the environment override single settings.
-/

namespace RowContract

/-- A table of keys with values: a second insert of a key becomes an update. -/
structure KeyValueTable where
  table : String
  keyColumns : List String
  /-- What the update sets. -/
  valueColumns : List String
  deriving DecidableEq, Repr

structure LoaderSettings where
  /-- How many rows go into one call of the fast path. -/
  batchSize : Nat := 500
  /-- A schema that replaces the one of the contract. -/
  targetSchema : Option String := none
  /-- Tables that are always loaded row by row. -/
  rowByRowTables : List String := ["app_historical_lookup"]
  keyValueTables : List KeyValueTable :=
    [⟨"scores", ["app_id", "score_identifier"], ["score"]⟩,
     ⟨"indicators", ["app_id", "indicator"], ["value"]⟩,
     ⟨"app_historical_lookup", ["app_id", "name"], ["value"]⟩,
     ⟨"app_report_results_lookup", ["app_id", "name"], ["value"]⟩]
  /-- Tables in which the first row with a key stays. -/
  firstWriteWinsTables : List String := ["contact_base"]
  /-- Tables whose identity column is given. -/
  identityInsertTables : List String := ["app_base", "contact_base"]
  diagnosticsDir : String := ".xmlmigrate/diagnostics"
  /-- How many rows a diagnostic keeps. -/
  diagnosticSampleRows : Nat := 5
  deriving DecidableEq, Repr

namespace LoaderSettings

/-- How many rows go into one call: at least one. -/
def chunkSize (s : LoaderSettings) : Nat := max s.batchSize 1

def isRowByRow (s : LoaderSettings) (table : String) : Bool := s.rowByRowTables.contains table

/-- The keys and values of a table, if it is a table of these. -/
def keyValueTable? (s : LoaderSettings) (table : String) : Option KeyValueTable :=
  s.keyValueTables.find? fun t => t.table == table

def isFirstWriteWins (s : LoaderSettings) (table : String) : Bool :=
  s.firstWriteWinsTables.contains table

end LoaderSettings

open RowContract.Json

def readNames : TextReader (List String) := .list (.leaf readText)

def KeyValueTable.reader : TextReader KeyValueTable := fun s => do
  let fs ← TextReader.fields "KeyValueTable"
    [.needed "table" (.leaf readText), .needed "key_columns" readNames,
     .needed "value_columns" readNames] s
  return {
    table := ← TextReader.require fs "table" (.leaf readText)
    keyColumns := ← TextReader.require fs "key_columns" readNames
    valueColumns := ← TextReader.require fs "value_columns" readNames }

def KeyValueTable.toJson (t : KeyValueTable) : Json :=
  .object
    [("table", .string t.table),
     ("key_columns", .array (t.keyColumns.map .string)),
     ("value_columns", .array (t.valueColumns.map .string))]

def readPath : Reader String
  | .string s => .ok s
  | v => v.wrongType "path string"

namespace LoaderSettings

def rules : List TextRule :=
  [.spare "batch_size" (.leaf readCount),
   .spare "target_schema" (.option (.leaf readText)),
   .spare "force_fallback_tables" readNames,
   .spare "key_value_tables" (.list KeyValueTable.reader),
   .spare "first_write_wins_tables" readNames,
   .spare "identity_insert_tables" readNames,
   .spare "diagnostics_dir" (.leaf readPath),
   .spare "diagnostic_sample_rows" (.leaf readCount)]

open TextReader in
def reader : TextReader LoaderSettings := fun s => do
  let usual : LoaderSettings := {}
  let fs ← fields "LoaderConfig" rules s
  return {
    batchSize := ← getOr fs "batch_size" (leaf readCount) usual.batchSize
    targetSchema := ← getOr fs "target_schema" (option (leaf readText)) none
    rowByRowTables := ← getOr fs "force_fallback_tables" readNames usual.rowByRowTables
    keyValueTables :=
      ← getOr fs "key_value_tables" (list KeyValueTable.reader) usual.keyValueTables
    firstWriteWinsTables :=
      ← getOr fs "first_write_wins_tables" readNames usual.firstWriteWinsTables
    identityInsertTables :=
      ← getOr fs "identity_insert_tables" readNames usual.identityInsertTables
    diagnosticsDir := ← getOr fs "diagnostics_dir" (leaf readPath) usual.diagnosticsDir
    diagnosticSampleRows :=
      ← getOr fs "diagnostic_sample_rows" (leaf readCount) usual.diagnosticSampleRows }

def ofJson (v : Json) : Except TextError LoaderSettings := reader v.source

def toJson (s : LoaderSettings) : Json :=
  .object
    [("batch_size", .ofNat s.batchSize),
     ("target_schema", match s.targetSchema with
       | some schema => .string schema
       | none => .null),
     ("force_fallback_tables", .array (s.rowByRowTables.map .string)),
     ("key_value_tables", .array (s.keyValueTables.map KeyValueTable.toJson)),
     ("first_write_wins_tables", .array (s.firstWriteWinsTables.map .string)),
     ("identity_insert_tables", .array (s.identityInsertTables.map .string)),
     ("diagnostics_dir", .string s.diagnosticsDir),
     ("diagnostic_sample_rows", .ofNat s.diagnosticSampleRows)]

def countVariable (env : Environment) (name : String) : Logged (Option Nat) :=
  match env name with
  | none => pure none
  | some raw =>
    match Text.unsigned? Text.maxWord (Text.trimChars raw.toList) with
    | some n => pure (some n)
    | none => do
      Logged.write
        ⟨.warning, "ignoring " ++ name ++ ": '" ++ raw ++ "' is not a number", none⟩
      pure none

def textVariable? (env : Environment) (name : String) : Option String :=
  (env name).filter fun s => !Text.isBlankText s

def batchSizeVariable : String := "XMLMIGRATE_BATCH_SIZE"

def sampleRowsVariable : String := "XMLMIGRATE_DIAGNOSTIC_SAMPLE_ROWS"

def diagnosticsDirVariable : String := "XMLMIGRATE_DIAGNOSTICS_DIR"

def targetSchemaVariable : String := "XMLMIGRATE_TARGET_SCHEMA"

def variableNames : List String :=
  [batchSizeVariable, sampleRowsVariable, diagnosticsDirVariable, targetSchemaVariable]

def withEnvironment (s : LoaderSettings) (env : Environment) : Logged LoaderSettings := do
  let batchSize ← countVariable env batchSizeVariable
  let sampleRows ← countVariable env sampleRowsVariable
  pure { s with
    batchSize := batchSize.getD s.batchSize
    diagnosticSampleRows := sampleRows.getD s.diagnosticSampleRows
    diagnosticsDir := (textVariable? env diagnosticsDirVariable).getD s.diagnosticsDir
    targetSchema := ((textVariable? env targetSchemaVariable).map Text.trim).or s.targetSchema }

def ofText (s : String) : Except TextError LoaderSettings := reader.ofText s

end LoaderSettings

end RowContract
