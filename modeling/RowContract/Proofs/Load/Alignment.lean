import RowContract.Load.Rehearsal
import RowContract.Proofs.Batch
import RowContract.Proofs.Load.Reporting

/-!
The samples of a report.  A report shows the rows of the call that failed, and says to which
columns their values belong.  The two agree, with one exception: the update that takes the place
of an insert looks for a missing key without a parameter for it, and then the columns name more
than the sample has values for.
-/

namespace RowContract

open LoadEvent

variable {σ : Type}

/-- The samples have a row for each of some records: its values for the columns of the report, in
their order. -/
def Report.AlignedWith (r : Report) (records : List Record) : Prop :=
  r.sampleParams = records.map fun record =>
    r.columns.map fun column => (record.getOrNull column).toJson

/-- The report of an update that looks for a missing key of a record: the key is among the columns,
and has no value in the sample. -/
structure Report.OmitsKey (r : Report) (kv : KeyValueTable) (b : Batch) (record : Record) :
    Prop where
  columns : r.columns = kv.valueColumns.filter (· ∈ b.columns) ++ kv.keyColumns
  sample : r.sampleParams =
    [(kv.valueColumns.filter (· ∈ b.columns) ++
      kv.keyColumns.filter fun key => !(record.getOrNull key).isNull).map
        fun column => (record.getOrNull column).toJson]
  missing : ∃ key ∈ kv.keyColumns, (record.getOrNull key).isNull = true

/-- The records that a report is about: those of the call that failed, as the events of the load
have it. -/
inductive Report.Concerns (r : Report) (b : Batch) (es : List LoadEvent) : List Record → Prop
  | switch (on : Bool) (e : DbError) (hrow : r.row = none)
      (hcall : .executed ⟨Sql.identityInsertText b.qualifiedTable on, []⟩ (.error e) ∈ es) :
      Concerns r b es []
  | bulk (records : List Record) (e : DbError) (hrow : r.row = none)
      (hrecords : records <:+: b.records)
      (hcall : .executedMany r.statement (records.map (Batch.row r.columns)) (.error e) ∈ es) :
      Concerns r b es records
  | single (index : Nat) (record : Record) (params : List Value) (e : DbError)
      (hrow : r.row = some index) (hrecord : b.records[index]? = some record)
      (hcall : .executed ⟨r.statement, params⟩ (.error e) ∈ es) :
      Concerns r b es [record]

namespace Report

variable {r : Report} {kv : KeyValueTable} {b : Batch} {record : Record}

theorem AlignedWith.length_eq {records : List Record} (h : r.AlignedWith records) :
    ∀ row ∈ r.sampleParams, row.length = r.columns.length := by
  intro row hrow
  rw [h] at hrow
  obtain ⟨record, -, rfl⟩ := List.mem_map.mp hrow
  exact List.length_map _

/-- Then no records whatever are those of the sample. -/
theorem OmitsKey.not_alignedWith (h : r.OmitsKey kv b record) (records : List Record) :
    ¬ r.AlignedWith records := by
  intro haligned
  have hlength := haligned.length_eq _ (h.sample ▸ List.mem_singleton_self _)
  obtain ⟨key, hkey, hnull⟩ := h.missing
  -- The one row of the sample is shorter than the columns, by as many values as keys are missing.
  have hshort : (kv.keyColumns.filter fun key => !(record.getOrNull key).isNull).length <
      kv.keyColumns.length :=
    List.length_filter_lt_length_iff_exists.mpr ⟨key, hkey, by simp [hnull]⟩
  rw [List.length_map, List.length_append, h.columns, List.length_append] at hlength
  omega

end Report

namespace LoadTask

/-- Rows that are those of records for the columns of their report are aligned with them. -/
theorem report_alignedWith (t : LoadTask) (e : LoadError) (text : String) (columns : List String)
    (records : List Record) :
    (t.report e text columns (records.map (Batch.row columns))).AlignedWith
      (records.take t.settings.diagnosticSampleRows) := by
  show ((records.map (Batch.row columns)).take _).map (fun row => row.map Value.toJson) = _
  rw [← List.map_take, List.map_map]
  refine List.map_congr_left fun record _ => ?_
  exact List.map_map

section
variable {t : LoadTask} {order : List String} (horder : t.statement.columns = order)
  {kv : KeyValueTable} {r : Record}
  (hkeys : ∀ column ∈ kv.keyColumns, column ∉ order → r.getOrNull column = .null)
include horder hkeys

/-- The columns of the report of an update: all that it sets, and all keys. -/
theorem update_columns :
    (t.updateValues kv (Batch.row order r) ++ t.updateKeys kv (Batch.row order r)).map Prod.fst =
      kv.valueColumns.filter (· ∈ order) ++ kv.keyColumns := by
  rw [updateValues_row horder, updateKeys_row horder hkeys]
  simp [Function.comp_def]

/-- The parameters of an update: the values of all that it sets, and of the keys that are there. -/
theorem compensation_params :
    (t.compensation kv (Batch.row order r)).params =
      Batch.row (kv.valueColumns.filter (· ∈ order) ++
        kv.keyColumns.filter fun key => !(r.getOrNull key).isNull) r := by
  rw [compensation, updateValues_row horder, updateKeys_row horder hkeys]
  simp only [Sql.updateCommand, Batch.row, List.map_map, List.map_append, List.filter_map]
  rfl

end

/-- The report of an update is aligned with its record unless the record lacks a key. -/
theorem report_update (t : LoadTask) (e : LoadError) (text : String) (kv : KeyValueTable)
    (b : Batch) (record : Record) {r : Report}
    (hr : r = t.report e text (kv.valueColumns.filter (· ∈ b.columns) ++ kv.keyColumns)
      [Batch.row (kv.valueColumns.filter (· ∈ b.columns) ++
        kv.keyColumns.filter fun key => !(record.getOrNull key).isNull) record]) :
    r.AlignedWith ([record].take t.settings.diagnosticSampleRows) ∨
      0 < t.settings.diagnosticSampleRows ∧ r.OmitsKey kv b record := by
  by_cases hmissing : ∃ key ∈ kv.keyColumns, (record.getOrNull key).isNull = true
  · rcases Nat.eq_zero_or_pos t.settings.diagnosticSampleRows with hnone | hsome
    · -- Without samples there is nothing to be aligned.
      left
      rw [hr, Report.AlignedWith, report, Report.ofError, hnone]
      rfl
    · refine .inr ⟨hsome, by rw [hr]; rfl, ?_, hmissing⟩
      rw [hr, report, Report.ofError, List.take_of_length_le hsome]
      exact congrArg (fun row => [row]) List.map_map
  · have hall : kv.keyColumns.filter (fun key => !(record.getOrNull key).isNull) =
        kv.keyColumns := by
      refine List.filter_eq_self.mpr fun key hkey => ?_
      cases hnull : (record.getOrNull key).isNull with
      | true => exact absurd ⟨key, hkey, hnull⟩ hmissing
      | false => rfl
    rw [hr, hall]
    exact .inl (t.report_alignedWith e text _ [record])

section
variable {l : Loader} {b : Batch} {order : List String} (horder : order.Perm b.columns)
include horder

theorem Failure.concerns {call : LoadEvent} {e : LoadError} {r : Report} {es : List LoadEvent}
    (h : (l.task b order).Failure (b.records.map (Batch.row order)) call e r) (hcall : call ∈ es) :
    ∃ records, r.Concerns b es records ∧
      (r.AlignedWith (records.take l.settings.diagnosticSampleRows) ∨
        ∃ kv record, l.settings.keyValueTable? b.table = some kv ∧ records = [record] ∧
          0 < l.settings.diagnosticSampleRows ∧ r.OmitsKey kv b record) := by
  cases h with
  | switch on e failure hrow =>
      exact ⟨[], .switch on e hrow hcall, .inl (report_alignedWith _ _ _ _ [])⟩
  | bulk chunk e hchunk =>
      obtain ⟨records, hrecords, rfl⟩ := List.infix_map_iff.mp hchunk
      exact ⟨records, .bulk records e rfl hrecords hcall, .inl (report_alignedWith _ _ _ _ records)⟩
  | insert index row e hrow =>
      rw [List.getElem?_map] at hrow
      obtain ⟨record, hrecord, rfl⟩ := Option.map_eq_some_iff.mp hrow
      exact ⟨[record], .single index record _ e rfl hrecord hcall,
        .inl (report_alignedWith _ _ _ _ [record])⟩
  | update index row kv e hrow hkv =>
      rw [List.getElem?_map] at hrow
      obtain ⟨record, hrecord, rfl⟩ := Option.map_eq_some_iff.mp hrow
      refine ⟨[record], .single index record _ e rfl hrecord hcall, ?_⟩
      -- A column that the statement lacks is missing from the record too, so the columns of the
      -- batch and those of the statement, which are in another order, make no difference.
      have hpresent :
          kv.valueColumns.filter (· ∈ order) = kv.valueColumns.filter (· ∈ b.columns) :=
        List.filter_congr fun column _ => decide_eq_decide.mpr horder.mem_iff
      have hkeys : ∀ column ∈ kv.keyColumns, column ∉ order → record.getOrNull column = .null :=
        fun column _ hmissing => Batch.getOrNull_of_not_mem_columns (List.mem_of_getElem? hrecord)
          fun h => hmissing (horder.mem_iff.mpr h)
      have hstatement : (l.task b order).statement.columns = order := rfl
      rw [update_columns hstatement hkeys, compensation_params hstatement hkeys, hpresent]
      rcases report_update (l.task b order) _ _ kv b record rfl with haligned | ⟨hsome, homits⟩
      · exact .inl haligned
      · exact .inr ⟨kv, record, hkv, rfl, hsome, homits⟩

end

end LoadTask

namespace Loader

/-- Every report that a load saves shows rows of the call that failed, and its columns are those of
the values in them; unless an update in place of an insert fails and the record lacks a key, which
then is among the columns and not in the sample. -/
theorem load_alignedWith_iff (c : Cursor σ) {l : Loader} (hcache : l.cache.Reachable) (b : Batch)
    (s : Session σ) {d : Diagnostic} (hd : d ∈ savedReports (l.load c b s).events) :
    ∃ records, d.Concerns b (l.load c b s).events records ∧
      (d.AlignedWith (records.take l.settings.diagnosticSampleRows) ↔
        ¬ ∃ kv record, l.settings.keyValueTable? b.table = some kv ∧ records = [record] ∧
          0 < l.settings.diagnosticSampleRows ∧ d.OmitsKey kv b record) := by
  obtain ⟨order, horder, htask⟩ := prepare_eq_task hcache b
  have hreports := load_reports c l b s
  rw [htask] at hreports
  obtain ⟨e, -, call, hcall, hfailure⟩ := hreports.of_saved hd
  obtain ⟨records, hconcerns, hcases⟩ := hfailure.concerns horder hcall
  refine ⟨records, hconcerns, ?_, hcases.resolve_right⟩
  rintro haligned ⟨kv, record, -, -, -, homits⟩
  exact homits.not_alignedWith _ haligned

/-- A database that has the key of each row already, and updates nothing. -/
def contended : List AnswerRule :=
  [{ part := some "INSERT", answer := .error ⟨"Violation of PRIMARY KEY constraint", some 2627⟩ },
    { part := some "UPDATE", answer := .error ⟨"Transaction was deadlocked", some 1205⟩ }]

def namelessScore : Batch where
  table := "scores"
  qualifiedTable := "[dbo].[scores]"
  records :=
    [⟨"scores", [("score", .int 7), ("app_id", .int 1), ("score_identifier", .null)]⟩]

def namelessReport : Report where
  table := "scores"
  statement := "UPDATE [dbo].[scores] SET [score] = ? WHERE [app_id] = ? " ++
    "AND [score_identifier] IS NULL"
  columns := ["score", "app_id", "score_identifier"]
  sampleParams := [[Value.toJson (.int 7), Value.toJson (.int 1)]]
  row := some 0
  fault := .system
  message := "Transaction was deadlocked"

theorem saved_namelessScore :
    savedReports (Loader.load Rehearsal.cursor {} namelessScore
      ⟨contended, some tallied⟩).events = [tallied.next namelessReport] := by
  rw [load_of_not_isEmpty Rehearsal.cursor {} rfl, run_eq_rowPhase_bind]
  unfold rowPhase LoadTask.insertAll
  rw [if_neg (by decide), chunks.eq_def]
  rfl

/-- The report of the update is the one that omits a key. -/
theorem load_alignedWith_iff_namelessScore :
    tallied.next namelessReport ∈ savedReports (Loader.load Rehearsal.cursor {} namelessScore
        ⟨contended, some tallied⟩).events ∧
      ∃ kv record, LoaderSettings.keyValueTable? {} "scores" = some kv ∧
        record ∈ namelessScore.records ∧ namelessReport.OmitsKey kv namelessScore record := by
  have hd : tallied.next namelessReport ∈ savedReports (Loader.load Rehearsal.cursor {}
      namelessScore ⟨contended, some tallied⟩).events := by
    rw [saved_namelessScore]
    exact List.mem_singleton_self _
  obtain ⟨records, hconcerns, haligned⟩ :=
    load_alignedWith_iff Rehearsal.cursor (l := {}) Sql.StatementCache.Reachable.empty
      namelessScore _ hd
  have hshort : ¬ (tallied.next namelessReport).AlignedWith (records.take 5) :=
    fun h => absurd (h.length_eq _ (List.mem_singleton_self _)) (by decide)
  obtain ⟨kv, record, hkv, rfl, -, homits⟩ := Classical.not_not.mp (mt haligned.mpr hshort)
  refine ⟨hd, kv, record, hkv, ?_, homits⟩
  cases hconcerns with
  | bulk _ e hrow hrecords hcall => exact hrecords.subset (List.mem_singleton_self record)
  | single index _ params e hrow hrecord hcall => exact List.mem_of_getElem? hrecord

/-- The load of the score saves a sample that is shorter than its columns. -/
theorem load_misaligns_namelessScore :
    ¬ ∀ d ∈ savedReports (Loader.load Rehearsal.cursor {} namelessScore
        ⟨contended, some tallied⟩).events,
      ∀ row ∈ d.sampleParams, row.length = d.columns.length := by
  rw [saved_namelessScore]
  intro haligned
  exact absurd (haligned _ (List.mem_singleton_self _) _ (List.mem_singleton_self _)) (by decide)

end Loader

end RowContract
