import RowContract.Calendar.Instant
import RowContract.Json.Typed
import RowContract.Load.Fault
import RowContract.Log
import RowContract.Value

/-!
Diagnostics: what is kept about a failed load, namely the statement, some rows of
its parameters and the error.
-/

namespace RowContract

structure Report where
  table : String
  statement : String
  /-- What the values of a row of parameters belong to. -/
  columns : List String
  sampleParams : List (List Json)
  /-- The index of the failing record, if it is known. -/
  row : Option Nat
  fault : LoadFault
  message : String

def Report.ofError (e : LoadError) (statement : String) (columns : List String)
    (rows : List (List Value)) (sampleRows : Nat) : Report where
  table := e.table
  statement := statement
  columns := columns
  sampleParams := (rows.take sampleRows).map fun row => row.map Value.toJson
  row := e.row
  fault := e.fault
  message := e.message

structure Diagnostic extends Report where
  id : String
  createdAt : DateTime

namespace Diagnostic

open RowContract.Json

def readFault : TextReader LoadFault := .whole (Json.readName LoadFault.all LoadFault.name)

def readTime : Reader DateTime
  | .string s => (Calendar.readInstant s).mapError fun fault => .refused fault.message
  | v => v.wrongType "an RFC 3339 formatted date and time string"

def readColumns : TextReader (List String) := .list (.leaf readText)

def readRows : TextReader (List (List Json)) := .list (.list (.whole .ok))

def rules : List TextRule :=
  [.needed "id" (.leaf readText),
   .needed "table" (.leaf readText),
   .needed "statement" (.leaf readText),
   .spare "columns" readColumns,
   .needed "sample_params" readRows,
   .spare "row" (.option (.leaf readCount)),
   .needed "error_kind" readFault,
   .needed "error_message" (.leaf readText),
   .needed "created_at" (.leaf readTime)]

open TextReader in
def reader : TextReader Diagnostic := fun s => do
  let fs ← fields "LoadDiagnostic" rules s
  return {
    id := ← require fs "id" (leaf readText)
    table := ← require fs "table" (leaf readText)
    statement := ← require fs "statement" (leaf readText)
    columns := ← getOr fs "columns" readColumns []
    sampleParams := ← require fs "sample_params" readRows
    row := ← getOr fs "row" (option (leaf readCount)) none
    fault := ← require fs "error_kind" readFault
    message := ← require fs "error_message" (leaf readText)
    createdAt := ← require fs "created_at" (leaf readTime) }

def ofJson (v : Json) : Except TextError Diagnostic := reader v.source

def reportFields (r : Report) : List (String × Json) :=
  [("table", .string r.table),
   ("statement", .string r.statement),
   ("columns", .array (r.columns.map .string)),
   ("sample_params", .array (r.sampleParams.map .array)),
   ("row", match r.row with
     | some n => .ofNat n
     | none => .null),
   ("error_kind", .string r.fault.name),
   ("error_message", .string r.message)]

def toJson (d : Diagnostic) : Json :=
  .object <|
    ("id", .string d.id) :: reportFields d.toReport ++
      [("created_at", .string (Calendar.instantText d.createdAt))]

def ofText? (s : String) : Option Diagnostic := (reader.ofText s).toOption

end Diagnostic

end RowContract
