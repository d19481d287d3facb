import Mathlib.Algebra.GroupWithZero.Nat
import RowContract.Proofs.Load.Switches
import RowContract.Proofs.Plan

/-!
Loads of whole documents.  A document that does not become records is not loaded at all.  Of the
batches of any other the loader loads one after the other and stops at the first that fails; what it
asks of the cursor until then is what the loads of these batches ask for, and nothing more.  If none
fails, the summary accounts for every batch and so for every record.
-/

namespace RowContract

open LoadEvent

variable {σ : Type}

/-! ### The records of a plan -/

namespace Batch

/-- A plan has a place for every record. -/
theorem sum_size_ofRecords (c : Contract) (identityTables : List String) (records : List Record) :
    ((ofRecords c identityTables records).map size).sum = records.length := by
  rw [← (ofRecords_perm c identityTables records).length_eq, List.length_flatMap]
  rfl

end Batch

theorem Contract.plan_eq_error {c : Contract} {d : Document} {s : LoaderSettings}
    {e : TransformError} (h : (c.plan d s).run.value = .error e) :
    (c.records d).run.value = .error e := by
  rw [plan, Transform.value_bind] at h
  cases hrecords : (c.records d).run.value with
  | error e' =>
      rw [hrecords] at h
      exact congrArg Except.error (Except.error.inj h)
  | ok records =>
      rw [hrecords] at h
      cases h

namespace LoadEvent

theorem calls_map_line (lines : List LogEntry) : calls (lines.map .line) = [] := by
  induction lines with
  | nil => rfl
  | cons line rest ih => rw [List.map_cons, calls_line, ih]

end LoadEvent

/-- An entry of a summary names the table of a batch and counts its records, and no more of them as
applied than there are. -/
structure TableLoad.Tells (t : TableLoad) (b : Batch) : Prop where
  table : t.table = b.table
  qualifiedTable : t.qualifiedTable = b.qualifiedTable
  submitted : t.submitted = b.size
  applied : t.applied ≤ b.size

namespace LoadSummary

/-- A summary with an entry for each batch counts the records of all batches. -/
theorem submitted_eq_sum {tables : List TableLoad} {batches : List Batch}
    (h : List.Forall₂ TableLoad.Tells tables batches) :
    submitted ⟨tables⟩ = (batches.map Batch.size).sum := by
  rw [submitted, ← List.sum_eq_foldl]
  induction h with
  | nil => rfl
  | cons hfirst _ ih => rw [List.map_cons, List.map_cons, List.sum_cons, List.sum_cons, ih,
      hfirst.submitted]

end LoadSummary

namespace Loader

/-! ### Single batches -/

/-- A load keeps the settings, and only its statements may change. -/
theorem settings_load (c : Cursor σ) (l : Loader) (b : Batch) (s : Session σ) :
    (l.load c b s).value.2.settings = l.settings := by
  cases hempty : b.records.isEmpty with
  | true => rw [load_of_isEmpty c l hempty]
  | false =>
      rw [load_of_not_isEmpty c l hempty]
      rfl

theorem le_size_of_load {c : Cursor σ} {l : Loader} {b : Batch} {s : Session σ} {n : Nat}
    (h : (l.load c b s).value.1 = .ok n) : n ≤ b.size := by
  cases hempty : b.records.isEmpty with
  | true =>
      rw [load_of_isEmpty c l hempty] at h
      cases h
      exact Nat.zero_le _
  | false =>
      rw [load_of_not_isEmpty c l hempty] at h
      rcases hphase : (rowPhase c (l.prepare b).1 b).run s with ⟨e | k, s', es⟩
      · rw [run_run_of_error hphase] at h
        cases h
      · obtain ⟨line, hrun⟩ := run_run_of_ok hphase
        rw [hrun] at h
        cases h
        exact Nat.min_le_right _ _

/-! ### Batches, one after the other -/

section
variable {c : Cursor σ} {l l' l'' : Loader} {b : Batch} {rest : List Batch} {s s' s'' : Session σ}
  {es more : List LoadEvent} {n : Nat} {e : LoadError}

theorem loadAll_cons_of_error (h : l.load c b s = ⟨(.error e, l'), s', es⟩) (rest : List Batch) :
    ∃ line, l.loadAll c (b :: rest) s = ⟨(.error e, l'), s', es ++ [.line line]⟩ := by
  refine ⟨⟨.error, "Document load stopped at " ++ b.qualifiedTable ++ ": " ++ e.text, none⟩, ?_⟩
  rw [loadAll, Work.bind_run, h]
  rfl

theorem loadAll_cons_of_rest_error (h : l.load c b s = ⟨(.ok n, l'), s', es⟩)
    (hrest : l'.loadAll c rest s' = ⟨(.error e, l''), s'', more⟩) :
    l.loadAll c (b :: rest) s = ⟨(.error e, l''), s'', es ++ more⟩ := by
  rw [loadAll, Work.bind_run, h]
  dsimp only
  rw [Work.bind_run, hrest]
  simp [Work.pure_run]

theorem loadAll_cons_of_ok {tables : List TableLoad}
    (h : l.load c b s = ⟨(.ok n, l'), s', es⟩)
    (hrest : l'.loadAll c rest s' = ⟨(.ok tables, l''), s'', more⟩) :
    l.loadAll c (b :: rest) s =
      ⟨(.ok (⟨b.table, b.qualifiedTable, b.size, n⟩ :: tables), l''), s'', es ++ more⟩ := by
  rw [loadAll, Work.bind_run, h]
  dsimp only
  rw [Work.bind_run, hrest]
  simp [Work.pure_run]

end

def loads (l : Loader) (batches : List Batch) : List (LoaderSettings × Batch) :=
  batches.map fun b => (l.settings, b)

theorem loadEach_loads_cons {c : Cursor σ} {l l' l'' : Loader} {b : Batch} {rest : List Batch}
    {s s' s'' : Session σ} {es more : List LoadEvent} {result : Except LoadError Nat}
    {results : List (Except LoadError Nat)} (h : l.load c b s = ⟨(result, l'), s', es⟩)
    (hrest : l'.loadEach c (l'.loads rest) s' = ⟨(results, l''), s'', more⟩) :
    l.loadEach c (l.loads (b :: rest)) s = ⟨(result :: results, l''), s'', es ++ more⟩ := by
  have hsettings : l'.settings = l.settings := by
    have hkept := settings_load c l b s
    rwa [h] at hkept
  refine (loadEach_cons c l l.settings b _ h).trans ?_
  rw [loads, hsettings] at hrest
  rw [hrest]

/-- A load of some batches that stops at the first failure, by the loads of single batches. -/
inductive LoadsAll (c : Cursor σ) (l : Loader) (s : Session σ) :
    List Batch → Episode σ (Except LoadError (List TableLoad) × Loader) → Prop
  /-- Each batch is loaded, and the tables say what was loaded of each. -/
  | loaded {batches : List Batch} {tables : List TableLoad} {l' : Loader} {s' : Session σ}
      {each es : List LoadEvent}
      (hloads : l.loadEach c (l.loads batches) s =
        ⟨(tables.map fun t => .ok t.applied, l'), s', each⟩)
      (htables : List.Forall₂ TableLoad.Tells tables batches)
      (hcalls : calls es = calls each) : LoadsAll c l s batches ⟨(.ok tables, l'), s', es⟩
  /-- A batch fails, and no batch after it is tried. -/
  | stopped {before after : List Batch} {b : Batch} {counts : List Nat} {e : LoadError}
      {l' : Loader} {s' : Session σ} {each es : List LoadEvent}
      (hcounts : counts.length = before.length)
      (hloads : l.loadEach c (l.loads (before ++ [b])) s =
        ⟨(counts.map .ok ++ [.error e], l'), s', each⟩)
      (hcalls : calls es = calls each) :
      LoadsAll c l s (before ++ b :: after) ⟨(.error e, l'), s', es⟩

theorem LoadsAll.single {c : Cursor σ} {l l' : Loader} {b : Batch} {s s' : Session σ}
    {es : List LoadEvent} {e : LoadError} (h : l.load c b s = ⟨(.error e, l'), s', es⟩)
    (rest : List Batch) : LoadsAll c l s (b :: rest) (l.loadAll c (b :: rest) s) := by
  obtain ⟨line, hall⟩ := loadAll_cons_of_error h rest
  rw [hall]
  have heach : l.loadEach c (l.loads ([] ++ [b])) s =
      ⟨(([] : List Nat).map .ok ++ [.error e], l'), s', es ++ []⟩ :=
    loadEach_loads_cons h rfl
  show LoadsAll c l s ([] ++ b :: rest) _
  refine .stopped rfl heach ?_
  rw [calls_append, calls_append, calls_line]

theorem LoadsAll.cons {c : Cursor σ} {l l' : Loader} {b : Batch} {rest : List Batch}
    {s s' : Session σ} {es : List LoadEvent} {n : Nat}
    (h : l.load c b s = ⟨(.ok n, l'), s', es⟩)
    (hrest : LoadsAll c l' s' rest (l'.loadAll c rest s')) :
    LoadsAll c l s (b :: rest) (l.loadAll c (b :: rest) s) := by
  have hle : n ≤ b.size := le_size_of_load (by rw [h])
  generalize hep : l'.loadAll c rest s' = ep at hrest
  cases hrest with
  | loaded hloads htables hcalls =>
      rw [loadAll_cons_of_ok h hep]
      refine .loaded (loadEach_loads_cons h hloads) (.cons ⟨rfl, rfl, rfl, hle⟩ htables) ?_
      rw [calls_append, calls_append, hcalls]
  | @stopped before after b' counts _ _ _ _ _ hcounts hloads hcalls =>
      rw [loadAll_cons_of_rest_error h hep]
      have hlength : (n :: counts).length = (b :: before).length := by
        rw [List.length_cons, List.length_cons, hcounts]
      show LoadsAll c l s ((b :: before) ++ b' :: after) _
      refine .stopped hlength (loadEach_loads_cons h hloads) ?_
      rw [calls_append, calls_append, hcalls]

theorem loadAll_loadsAll (c : Cursor σ) (l : Loader) (batches : List Batch) (s : Session σ) :
    LoadsAll c l s batches (l.loadAll c batches s) := by
  induction batches generalizing l s with
  | nil =>
      have heach : l.loadEach c (l.loads []) s =
          ⟨(([] : List TableLoad).map fun t => .ok t.applied, l), s, []⟩ := rfl
      exact .loaded heach .nil rfl
  | cons b rest ih =>
      rcases hload : l.load c b s with ⟨⟨e | n, l'⟩, s', es⟩
      · exact .single hload rest
      · exact .cons hload (ih l' s')

/-! ### Documents -/

/-- A load of a document, by its records, the batches planned for them and the loads of these. -/
inductive LoadsDocument (c : Cursor σ) (l : Loader) (contract : Contract) (d : Document)
    (s : Session σ) : Episode σ (Except MigrationError LoadSummary × Loader) → Prop
  /-- Without records there is no call, and the loader is as it was. -/
  | untransformed {e : TransformError} {es : List LoadEvent}
      (hrecords : (contract.records d).run.value = .error e)
      (hcalls : calls es = []) :
      LoadsDocument c l contract d s ⟨(.error (.transform e), l), s, es⟩
  /-- Each batch is loaded, and the summary accounts for all records. -/
  | loaded {records : List Record} {batches : List Batch} {summary : LoadSummary} {l' : Loader}
      {s' : Session σ} {each es : List LoadEvent}
      (hrecords : (contract.records d).run.value = .ok records)
      (hplan : (contract.plan d l.settings).run.value = .ok batches)
      (hloads : l.loadEach c (l.loads batches) s =
        ⟨(summary.tables.map fun t => .ok t.applied, l'), s', each⟩)
      (htables : List.Forall₂ TableLoad.Tells summary.tables batches)
      (hsubmitted : summary.submitted = records.length)
      (hcalls : calls es = calls each) :
      LoadsDocument c l contract d s ⟨(.ok summary, l'), s', es⟩
  /-- A batch fails with the error of the load, and no batch after it is tried. -/
  | stopped {before after : List Batch} {b : Batch} {counts : List Nat} {e : LoadError}
      {l' : Loader} {s' : Session σ} {each es : List LoadEvent}
      (hplan : (contract.plan d l.settings).run.value = .ok (before ++ b :: after))
      (hcounts : counts.length = before.length)
      (hloads : l.loadEach c (l.loads (before ++ [b])) s =
        ⟨(counts.map .ok ++ [.error e], l'), s', each⟩)
      (hcalls : calls es = calls each) :
      LoadsDocument c l contract d s ⟨(.error (.load e), l'), s', es⟩

section
variable {c : Cursor σ} {l l' : Loader} {contract : Contract} {d : Document} {s s' : Session σ}
  {batches : List Batch} {es : List LoadEvent}

theorem run_loadDocument_of_plan_error {e : TransformError}
    (h : (contract.plan d l.settings).run.value = .error e) :
    ∃ lines : List LogEntry, l.loadDocument c contract d s =
      ⟨(.error (.transform e), l), s, lines.map LoadEvent.line⟩ := by
  refine ⟨(contract.plan d l.settings).run.lines, ?_⟩
  rw [loadDocument, Work.bind_run]
  simp only [Work.ofLogged, h]
  rw [Work.pure_run, List.append_nil]

theorem run_loadDocument_of_error {e : LoadError}
    (h : (contract.plan d l.settings).run.value = .ok batches)
    (hall : l.loadAll c batches s = ⟨(.error e, l'), s', es⟩) :
    ∃ lines : List LogEntry, l.loadDocument c contract d s =
      ⟨(.error (.load e), l'), s', lines.map LoadEvent.line ++ es⟩ := by
  refine ⟨(contract.plan d l.settings).run.lines ++
    [⟨.info, toString batches.length ++ " batches to load", none⟩], ?_⟩
  rw [loadDocument, Work.bind_run]
  simp only [Work.ofLogged, h]
  rw [Work.bind_run, Work.bind_run]
  simp [Work.log, hall, Work.pure_run]

theorem run_loadDocument_of_ok {tables : List TableLoad}
    (h : (contract.plan d l.settings).run.value = .ok batches)
    (hall : l.loadAll c batches s = ⟨(.ok tables, l'), s', es⟩) :
    ∃ (lines : List LogEntry) (last : LogEntry), l.loadDocument c contract d s =
      ⟨(.ok ⟨tables⟩, l'), s', lines.map LoadEvent.line ++ es ++ [.line last]⟩ := by
  refine ⟨(contract.plan d l.settings).run.lines ++
    [⟨.info, toString batches.length ++ " batches to load", none⟩],
    ⟨.success, "Document loaded: " ++ toString (LoadSummary.applied ⟨tables⟩) ++ "/" ++
      toString (LoadSummary.submitted ⟨tables⟩) ++ " rows applied", none⟩, ?_⟩
  rw [loadDocument, Work.bind_run]
  simp only [Work.ofLogged, h]
  rw [Work.bind_run, Work.bind_run]
  simp [Work.log, hall, Work.pure_run, Work.bind_run]

end

/-- The load of a document, for any contract, loader and cursor. -/
theorem loadDocument_accounts (c : Cursor σ) (l : Loader) (contract : Contract) (d : Document)
    (s : Session σ) :
    LoadsDocument c l contract d s (l.loadDocument c contract d s) := by
  cases hplan : (contract.plan d l.settings).run.value with
  | error e =>
      obtain ⟨lines, hrun⟩ := run_loadDocument_of_plan_error hplan
      rw [hrun]
      exact .untransformed (Contract.plan_eq_error hplan) (calls_map_line lines)
  | ok batches =>
      obtain ⟨records, hrecords, hbatches⟩ := Contract.plan_eq_ok hplan
      generalize hep : l.loadAll c batches s = ep
      have hall := loadAll_loadsAll c l batches s
      rw [hep] at hall
      cases hall with
      | @loaded _ tables _ _ each es hloads htables hcalls =>
          obtain ⟨lines, last, hrun⟩ := run_loadDocument_of_ok hplan hep
          rw [hrun]
          refine .loaded hrecords hplan hloads htables ?_ ?_
          · rw [LoadSummary.submitted_eq_sum htables, ← hbatches, Batch.sum_size_ofRecords]
          · rw [calls_append, calls_append, calls_map_line, calls_line, calls_nil,
              List.append_nil, List.nil_append, hcalls]
      | stopped hcounts hloads hcalls =>
          obtain ⟨lines, hrun⟩ := run_loadDocument_of_error hplan hep
          rw [hrun]
          refine .stopped hplan hcounts hloads ?_
          rw [calls_append, calls_map_line, List.nil_append, hcalls]

end Loader

end RowContract
