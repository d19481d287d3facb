import RowContract.Load.Loader
import RowContract.Proofs.Fields
import RowContract.Proofs.Sql.Cache

/-!
Runs of the steps of a load.  A step started in a session gives an episode: a value
or an error, the session after it, and the events of the run.  The lemmas here take
the runs of composed steps apart, and say what the steps at the bottom do; proofs
about the loader use these and never open the monad again.
-/

namespace RowContract

variable {σ α β : Type}

/-- Chunks lose no item and keep the order. -/
theorem flatten_chunks {α : Type} (size : Nat) (xs : List α) :
    (chunks size xs).flatten = xs := by
  induction xs using chunks.induct size with
  | case1 => simp [chunks]
  | case2 a rest ih =>
      unfold chunks
      rw [List.flatten_cons, ih, List.cons_append, List.take_append_drop]

namespace Loading

theorem run_pure (a : α) (s : Session σ) : (pure a : Loading σ α).run s = ⟨.ok a, s, []⟩ := rfl

theorem run_throw (e : LoadError) (s : Session σ) :
    (throw e : Loading σ α).run s = ⟨.error e, s, []⟩ := rfl

theorem run_bind_of_ok {x : Loading σ α} {s s' : Session σ} {a : α} {es : List LoadEvent}
    (h : x.run s = ⟨.ok a, s', es⟩) (f : α → Loading σ β) :
    (x >>= f).run s =
      ⟨((f a).run s').value, ((f a).run s').session, es ++ ((f a).run s').events⟩ := by
  rw [ExceptT.run_bind, Work.bind_run, h]

theorem run_bind_of_error {x : Loading σ α} {s s' : Session σ} {e : LoadError}
    {es : List LoadEvent} (h : x.run s = ⟨.error e, s', es⟩) (f : α → Loading σ β) :
    (x >>= f).run s = ⟨.error e, s', es⟩ := by
  rw [ExceptT.run_bind, Work.bind_run, h]
  simp [Work.pure_run]

theorem run_lift (x : Work σ α) (s : Session σ) :
    (ExceptT.lift x : Loading σ α).run s = ⟨.ok (x s).value, (x s).session, (x s).events⟩ := by
  change (⟨_, _, (x s).events ++ []⟩ : Episode σ (Except LoadError α)) = _
  rw [List.append_nil]
  rfl

theorem run_lift_bind (x : Work σ α) (f : α → Loading σ β) (s : Session σ) :
    (ExceptT.lift x >>= f : Loading σ β).run s =
      ⟨((f (x s).value).run (x s).session).value, ((f (x s).value).run (x s).session).session,
        (x s).events ++ ((f (x s).value).run (x s).session).events⟩ :=
  run_bind_of_ok (run_lift x s) f

theorem run_lift_bind_eq (x : Work σ α) (f : α → Loading σ β) :
    (ExceptT.lift x >>= f : Loading σ β).run = x >>= fun a => (f a).run :=
  funext (run_lift_bind x f)

/-- A statement that is run goes on with its answer. -/
theorem run_execute_bind (c : Cursor σ) (command : Sql.Command)
    (f : Except DbError Nat → Loading σ β) {s : Session σ} {answer : Except DbError Nat} {m : σ}
    (h : c.execute command s.cursor = (answer, m)) :
    (ExceptT.lift (Work.execute c command) >>= f).run s =
      ⟨((f answer).run { s with cursor := m }).value,
        ((f answer).run { s with cursor := m }).session,
        .executed command answer :: ((f answer).run { s with cursor := m }).events⟩ := by
  rw [run_lift_bind]
  simp only [Work.execute, h]
  rfl

/-- A statement that is run for many rows goes on with its answer. -/
theorem run_executeMany_bind (c : Cursor σ) (text : String) (rows : List (List Value))
    (f : Except DbError Unit → Loading σ β) {s : Session σ} {answer : Except DbError Unit} {m : σ}
    (h : c.executeMany text rows s.cursor = (answer, m)) :
    (ExceptT.lift (Work.executeMany c text rows) >>= f).run s =
      ⟨((f answer).run { s with cursor := m }).value,
        ((f answer).run { s with cursor := m }).session,
        .executedMany text rows answer :: ((f answer).run { s with cursor := m }).events⟩ := by
  rw [run_lift_bind]
  simp only [Work.executeMany, h]
  rfl

theorem run_setFast_bind (c : Cursor σ) (on : Bool) (f : Unit → Loading σ β) (s : Session σ) :
    (ExceptT.lift (Work.setFast c on) >>= f).run s =
      ⟨((f ()).run { s with cursor := c.setFast on s.cursor }).value,
        ((f ()).run { s with cursor := c.setFast on s.cursor }).session,
        .fast on :: ((f ()).run { s with cursor := c.setFast on s.cursor }).events⟩ :=
  run_lift_bind _ f s

theorem run_log_bind (e : LogEntry) (f : Unit → Loading σ β) (s : Session σ) :
    (ExceptT.lift (Work.log e) >>= f).run s =
      ⟨((f ()).run s).value, ((f ()).run s).session, .line e :: ((f ()).run s).events⟩ :=
  run_lift_bind _ f s

end Loading

/-! ### Failures -/

/-- The events of a failure that is recorded: it is logged, and kept as a report if there is an
archive that takes it. -/
inductive Recorded (e : LoadError) (r : Report) : List LoadEvent → Prop
  | unkept : Recorded e r [.line ⟨.error, e.text, some e.table⟩]
  | kept (d : Diagnostic) (h : d.toReport = r) :
      Recorded e r
        [.line ⟨.error, e.text, some e.table⟩, .saved d,
          .line ⟨.warning, "diagnostic saved as " ++ d.id, some e.table⟩]
  | refused (why : SaveError) :
      Recorded e r
        [.line ⟨.error, e.text, some e.table⟩,
          .line ⟨.error, "could not save diagnostic: " ++ why.message, some e.table⟩]

theorem keep_of_none (r : Report) {s : Session σ} (h : s.archive = none) :
    Work.keep r s = ⟨none, s, []⟩ := by
  simp only [Work.keep, h]

theorem keep_of_ok (r : Report) {s : Session σ} {a : Archive} {store : Store}
    (h : s.archive = some a) (hsave : a.store.save (a.next r) = .ok store) :
    Work.keep r s =
      ⟨some (.ok (a.next r).id),
        { s with archive := some { a with issued := a.issued + 1, store := store } },
        [.saved (a.next r)]⟩ := by
  simp only [Work.keep, h, hsave]

theorem keep_of_error (r : Report) {s : Session σ} {a : Archive} {why : SaveError}
    (h : s.archive = some a) (hsave : a.store.save (a.next r) = .error why) :
    Work.keep r s =
      ⟨some (.error why), { s with archive := some { a with issued := a.issued + 1 } }, []⟩ := by
  simp only [Work.keep, h, hsave]

namespace LoadTask

def report (t : LoadTask) (e : LoadError) (text : String) (columns : List String)
    (rows : List (List Value)) : Report :=
  Report.ofError e text columns rows t.settings.diagnosticSampleRows

/-- Recording a failure asks nothing of the cursor. -/
theorem record_run (t : LoadTask) (e : LoadError) (text : String) (columns : List String)
    (rows : List (List Value)) (s : Session σ) :
    ∃ archive es,
      record t.settings e text columns rows s = ⟨(), { s with archive := archive }, es⟩ ∧
      Recorded e (t.report e text columns rows) es := by
  unfold record
  rw [Work.bind_run, Work.bind_run]
  cases harchive : s.archive with
  | none =>
      refine ⟨none, _, ?_, .unkept⟩
      simp only [Work.complain, Work.log, keep_of_none _ harchive, Work.pure_run]
      rw [← harchive]
      rfl
  | some a =>
      cases hsave : a.store.save (a.next (t.report e text columns rows)) with
      | ok store =>
          refine ⟨some { a with issued := a.issued + 1, store := store }, _, ?_,
            .kept (a.next (t.report e text columns rows)) rfl⟩
          have hkeep := keep_of_ok (s := s) _ harchive hsave
          simp only [report] at hkeep
          simp only [Work.complain, Work.log, hkeep]
          rfl
      | error why =>
          refine ⟨some { a with issued := a.issued + 1 }, _, ?_, .refused why⟩
          have hkeep := keep_of_error (s := s) _ harchive hsave
          simp only [report] at hkeep
          simp only [Work.complain, Work.log, hkeep]
          rfl

/-- A failure is recorded and ends the load with the error. -/
theorem run_fail (α : Type) (t : LoadTask) (e : LoadError) (text : String) (columns : List String)
    (rows : List (List Value)) (s : Session σ) :
    ∃ archive es,
      (t.fail e text columns rows : Loading σ α).run s =
        ⟨.error e, { s with archive := archive }, es⟩ ∧
      Recorded e (t.report e text columns rows) es := by
  obtain ⟨archive, es, hrecord, hes⟩ := t.record_run e text columns rows s
  refine ⟨archive, es, ?_, hes⟩
  unfold fail
  rw [Loading.run_lift_bind, hrecord]
  simp [Loading.run_throw]

/-! ### Single rows -/

def insertion (t : LoadTask) (row : List Value) : Sql.Command := ⟨t.statement.text, row⟩

/-- The update that takes the place of an insert. -/
def compensation (t : LoadTask) (kv : KeyValueTable) (row : List Value) : Sql.Command :=
  Sql.updateCommand t.qualifiedTable (t.updateValues kv row) (t.updateKeys kv row)

section
variable {t : LoadTask} {order : List String} (horder : t.statement.columns = order)
include horder

theorem valueOf?_row (r : Record) (column : String) :
    t.valueOf? (Batch.row order r) column =
      if column ∈ order then some (r.getOrNull column) else none := by
  rw [valueOf?, horder, Fields.map_find?_eq_get?, Batch.row, Fields.get?_zip_map]

/-- An update sets the value columns that the statement has. -/
theorem updateValues_row (kv : KeyValueTable) (r : Record) :
    t.updateValues kv (Batch.row order r) =
      (kv.valueColumns.filter (· ∈ order)).map fun column => (column, r.getOrNull column) := by
  rw [updateValues, ← List.filterMap_eq_map, List.filterMap_filter]
  refine List.filterMap_congr fun column _ => ?_
  rw [valueOf?_row horder]
  by_cases hmem : column ∈ order <;> simp [hmem]

/-- An update looks for all keys, if those that the statement lacks are null in the record. -/
theorem updateKeys_row {kv : KeyValueTable} {r : Record}
    (hkeys : ∀ column ∈ kv.keyColumns, column ∉ order → r.getOrNull column = .null) :
    t.updateKeys kv (Batch.row order r) =
      kv.keyColumns.map fun column => (column, r.getOrNull column) := by
  refine List.map_congr_left fun column hcolumn => ?_
  rw [valueOf?_row horder]
  by_cases hmem : column ∈ order
  · rw [if_pos hmem]
    rfl
  · rw [if_neg hmem, hkeys column hcolumn hmem]
    rfl

end

variable {c : Cursor σ} {t : LoadTask} {kv : KeyValueTable} {row : List Value} {s : Session σ}
  {m : σ} {e : DbError}

theorem run_update_of_eq_nil (c : Cursor σ) (h : t.updateValues kv row = []) (index : Nat)
    (s : Session σ) :
    ∃ line, (t.update c kv index row).run s = ⟨.ok 0, s, [.line line]⟩ := by
  refine ⟨⟨.warning, "row " ++ toString index ++ " duplicates a key but carries no value column",
    some t.table⟩, ?_⟩
  unfold update
  rw [h]
  exact Loading.run_log_bind _ _ s

theorem run_update_of_ok {n : Nat} (h : t.updateValues kv row ≠ [])
    (hanswer : c.execute (t.compensation kv row) s.cursor = (.ok n, m)) (index : Nat) :
    (t.update c kv index row).run s =
      ⟨.ok (min n 1), { s with cursor := m }, [.executed (t.compensation kv row) (.ok n)]⟩ := by
  unfold update
  simp only [List.isEmpty_iff, h, if_false]
  exact Loading.run_execute_bind c _ _ hanswer

theorem run_update_of_error (h : t.updateValues kv row ≠ [])
    (hanswer : c.execute (t.compensation kv row) s.cursor = (.error e, m)) (index : Nat) :
    ∃ archive es,
      (t.update c kv index row).run s =
        ⟨.error ⟨LoadFault.classify e, t.table, e.message, some index⟩, ⟨m, archive⟩,
          .executed (t.compensation kv row) (.error e) :: es⟩ ∧
      Recorded ⟨LoadFault.classify e, t.table, e.message, some index⟩
        (t.report ⟨LoadFault.classify e, t.table, e.message, some index⟩
          (t.compensation kv row).text
          ((t.updateValues kv row ++ t.updateKeys kv row).map Prod.fst)
          [(t.compensation kv row).params]) es := by
  obtain ⟨archive, es, hfail, hes⟩ :=
    t.run_fail Nat ⟨LoadFault.classify e, t.table, e.message, some index⟩
      (t.compensation kv row).text ((t.updateValues kv row ++ t.updateKeys kv row).map Prod.fst)
      [(t.compensation kv row).params] { s with cursor := m }
  refine ⟨archive, es, ?_, hes⟩
  unfold update
  simp only [List.isEmpty_iff, h, if_false]
  refine (Loading.run_execute_bind c _ _ hanswer).trans ?_
  dsimp only [compensation] at hfail ⊢
  rw [hfail]

theorem settle_of_keyValueTable (h : LoadFault.classify e = .primaryKey)
    (hkv : t.settings.keyValueTable? t.table = some kv) (index : Nat) :
    t.settle c index row e = t.update c kv index row := by
  simp only [settle, h, if_true, hkv]

theorem run_settle_of_firstWriteWins (c : Cursor σ) (h : LoadFault.classify e = .primaryKey)
    (hkv : t.settings.keyValueTable? t.table = none)
    (hfirst : t.settings.isFirstWriteWins t.table = true) (index : Nat) (s : Session σ) :
    ∃ line, (t.settle c index row e).run s = ⟨.ok 0, s, [.line line]⟩ := by
  refine ⟨⟨.warning, "row " ++ toString index ++ " duplicates an existing key, first write kept",
    some t.table⟩, ?_⟩
  simp only [settle, h, if_true, hkv, hfirst]
  exact Loading.run_log_bind _ _ s

/-- The error of an insert that nothing makes up for. -/
theorem settle_eq_fail
    (h : LoadFault.classify e = .primaryKey →
      t.settings.keyValueTable? t.table = none ∧ t.settings.isFirstWriteWins t.table = false)
    (index : Nat) :
    t.settle c index row e =
      t.fail ⟨LoadFault.classify e, t.table, e.message, some index⟩ t.statement.text
        t.statement.columns [row] := by
  by_cases hkey : LoadFault.classify e = .primaryKey
  · obtain ⟨hkv, hfirst⟩ := h hkey
    simp only [settle, hkey, if_true, hkv, hfirst, Bool.false_eq_true, if_false]
  · simp only [settle, hkey, if_false]

theorem run_insertRow_of_ok {n : Nat}
    (hanswer : c.execute (t.insertion row) s.cursor = (.ok n, m)) (index : Nat) :
    (t.insertRow c index row).run s =
      ⟨.ok 1, { s with cursor := m }, [.executed (t.insertion row) (.ok n)]⟩ := by
  unfold insertRow
  exact Loading.run_execute_bind c _ _ hanswer

theorem run_insertRow_of_error {ep : Episode σ (Except LoadError Nat)}
    (hanswer : c.execute (t.insertion row) s.cursor = (.error e, m)) {index : Nat}
    (hsettle : (t.settle c index row e).run { s with cursor := m } = ep) :
    (t.insertRow c index row).run s =
      ⟨ep.value, ep.session, .executed (t.insertion row) (.error e) :: ep.events⟩ := by
  unfold insertRow
  rw [← hsettle]
  exact Loading.run_execute_bind c _ _ hanswer

/-! ### Switches

The load of the rows stands between the switch on and the switch off, unless the first of them
fails. -/

def refusal (t : LoadTask) (e : DbError) : LoadError :=
  ⟨LoadFault.classify e, t.table, e.message, none⟩

/-- The error of a switch off that fails after a load that did not. -/
def offError (t : LoadTask) (e : DbError) : LoadError :=
  ⟨.system, t.table, "failed to disable IDENTITY_INSERT: " ++ e.message, none⟩

/-- What the switches make of the result of the rows between them, with the events of the switch
off. -/
inductive Closing (t : LoadTask) :
    Except LoadError Nat → List LoadEvent → Except LoadError Nat → Prop
  | off (result : Except LoadError Nat) (n : Nat) :
      Closing t result [.executed (t.identityCommand false) (.ok n)] result
  | failed (applied : Nat) (e : DbError) (es : List LoadEvent)
      (hes : Recorded (t.offError e)
        (t.report (t.offError e) (t.identityCommand false).text [] []) es) :
      Closing t (.ok applied) (.executed (t.identityCommand false) (.error e) :: es)
        (.error (t.offError e))
  | failedAfter (failure : LoadError) (e : DbError) (line : LogEntry) :
      Closing t (.error failure) [.executed (t.identityCommand false) (.error e), .line line]
        (.error failure)

theorem Closing.eq_of_error {t : LoadTask} {failure : LoadError} {es : List LoadEvent}
    {outer : Except LoadError Nat} (h : t.Closing (.error failure) es outer) :
    outer = .error failure := by
  cases h <;> rfl

theorem run_forbidIdentity (c : Cursor σ) (t : LoadTask) (result : Except LoadError Nat)
    (s : Session σ) :
    t.Closing result ((t.forbidIdentity c result).run s).events
      ((t.forbidIdentity c result).run s).value := by
  unfold forbidIdentity
  rcases hanswer : c.execute (t.identityCommand false) s.cursor with ⟨e | n, m⟩ <;>
    rw [Loading.run_execute_bind c _ _ hanswer]
  · cases result with
    | ok applied =>
        obtain ⟨archive, es, hrun, hes⟩ :=
          t.run_fail Nat (t.offError e) (t.identityCommand false).text [] []
            { s with cursor := m }
        dsimp only [offError] at hrun ⊢
        rw [hrun]
        exact .failed applied e es hes
    | error failure =>
        dsimp only
        rw [Work.complain, Loading.run_log_bind]
        exact .failedAfter failure e _
  · cases result with
    | ok applied => exact .off (.ok applied) n
    | error failure => exact .off (.error failure) n

/-- Without the switch on nothing else is done. -/
theorem run_insertWithIdentity_of_error {c : Cursor σ} {t : LoadTask} {s : Session σ} {m : σ}
    {e : DbError} (hanswer : c.execute (t.identityCommand true) s.cursor = (.error e, m))
    (rows : List (List Value)) :
    ∃ archive es,
      (t.insertWithIdentity c rows).run s =
        ⟨.error (t.refusal e), ⟨m, archive⟩,
          .executed (t.identityCommand true) (.error e) :: es⟩ ∧
      Recorded (t.refusal e) (t.report (t.refusal e) (t.identityCommand true).text [] []) es := by
  obtain ⟨archive, es, hfail, hes⟩ :=
    t.run_fail Unit (t.refusal e) (t.identityCommand true).text [] []
      { s with cursor := m }
  refine ⟨archive, es, ?_, hes⟩
  unfold insertWithIdentity
  refine Loading.run_bind_of_error ?_ _
  unfold allowIdentity
  refine (Loading.run_execute_bind c _ _ hanswer).trans ?_
  dsimp only [refusal] at hfail ⊢
  rw [hfail]

theorem run_insertWithIdentity_of_ok {c : Cursor σ} {t : LoadTask} {s : Session σ} {m : σ}
    {n : Nat} (hanswer : c.execute (t.identityCommand true) s.cursor = (.ok n, m))
    (rows : List (List Value)) :
    ∃ ep, ep = (t.insertAll c rows).run { s with cursor := m } ∧
      (t.insertWithIdentity c rows).run s =
        ⟨((t.forbidIdentity c ep.value).run ep.session).value,
          ((t.forbidIdentity c ep.value).run ep.session).session,
          .executed (t.identityCommand true) (.ok n) :: ep.events ++
            ((t.forbidIdentity c ep.value).run ep.session).events⟩ := by
  refine ⟨_, rfl, ?_⟩
  have hallow : (t.allowIdentity c).run s =
      ⟨.ok (), { s with cursor := m }, [.executed (t.identityCommand true) (.ok n)]⟩ := by
    unfold allowIdentity
    exact Loading.run_execute_bind c _ _ hanswer
  unfold insertWithIdentity
  rw [Loading.run_bind_of_ok hallow, Loading.run_lift_bind]
  rfl

end LoadTask

/-! ### Whole batches -/

namespace Loader

/-- The task of a batch whose statement has its columns in a given order. -/
def task (l : Loader) (b : Batch) (order : List String) : LoadTask :=
  ⟨l.settings, b.table, b.qualifiedTable, .make b.qualifiedTable order⟩

theorem prepare_eq_task {l : Loader} (hcache : l.cache.Reachable) (b : Batch) :
    ∃ order, order.Perm b.columns ∧ (l.prepare b).1 = l.task b order := by
  obtain ⟨order, horder, hstatement⟩ :=
    hcache.statement_eq_make b.qualifiedTable b.columns
  refine ⟨order, horder, ?_⟩
  unfold task
  rw [← hstatement]
  rfl

/-- The load of the rows of a batch, between switches if there are some. -/
def rowPhase (c : Cursor σ) (t : LoadTask) (b : Batch) : Loading σ Nat :=
  if b.identityInsert then
    t.insertWithIdentity c (b.records.map (Batch.row t.statement.columns))
  else t.insertAll c (b.records.map (Batch.row t.statement.columns))

variable {c : Cursor σ} {t : LoadTask} {b : Batch} {s s' : Session σ} {es : List LoadEvent}

theorem rowPhase_of_plain (c : Cursor σ) (t : LoadTask) (h : b.identityInsert = false) :
    rowPhase c t b = t.insertAll c (b.records.map (Batch.row t.statement.columns)) := by
  unfold rowPhase
  rw [h, if_neg Bool.false_ne_true]

theorem rowPhase_of_identity (c : Cursor σ) (t : LoadTask) (h : b.identityInsert = true) :
    rowPhase c t b = t.insertWithIdentity c (b.records.map (Batch.row t.statement.columns)) := by
  unfold rowPhase
  rw [h, if_pos rfl]

/-- After its rows, the load of a batch only says how many were applied. -/
theorem run_eq_rowPhase_bind (c : Cursor σ) (t : LoadTask) (b : Batch) :
    run c t b = rowPhase c t b >>= fun applied => do
      ExceptT.lift <| Work.log ⟨.info, b.qualifiedTable ++ ": " ++ toString (min applied b.size) ++
        "/" ++ toString b.size ++ " rows applied", none⟩
      return min applied b.size := by
  unfold run rowPhase
  cases b.identityInsert <;> rfl

theorem run_run_of_ok {n : Nat} (h : (rowPhase c t b).run s = ⟨.ok n, s', es⟩) :
    ∃ line, (run c t b).run s = ⟨.ok (min n b.size), s', es ++ [.line line]⟩ := by
  refine ⟨⟨.info, b.qualifiedTable ++ ": " ++ toString (min n b.size) ++ "/" ++ toString b.size ++
    " rows applied", none⟩, ?_⟩
  rw [run_eq_rowPhase_bind, Loading.run_bind_of_ok h]
  rfl

theorem run_run_of_error {e : LoadError} (h : (rowPhase c t b).run s = ⟨.error e, s', es⟩) :
    (run c t b).run s = ⟨.error e, s', es⟩ := by
  rw [run_eq_rowPhase_bind, Loading.run_bind_of_error h]

theorem load_of_isEmpty (c : Cursor σ) (l : Loader) (h : b.records.isEmpty = true)
    (s : Session σ) : l.load c b s = ⟨(.ok 0, l), s, []⟩ := by
  unfold load
  rw [h]
  rfl

/-- A batch with records is loaded with its statement, and the loader keeps the statement. -/
theorem load_of_not_isEmpty (c : Cursor σ) (l : Loader) (h : b.records.isEmpty = false)
    (s : Session σ) :
    l.load c b s =
      ⟨(((run c (l.prepare b).1 b).run s).value, (l.prepare b).2),
        ((run c (l.prepare b).1 b).run s).session, ((run c (l.prepare b).1 b).run s).events⟩ := by
  unfold load
  rw [h, if_neg Bool.false_ne_true]
  change ((run c (l.prepare b).1 b).run >>= fun result => pure (result, (l.prepare b).2)) s = _
  rw [Work.bind_run, Work.pure_run, List.append_nil]

theorem reachable_load (c : Cursor σ) {l : Loader} (hcache : l.cache.Reachable) (b : Batch)
    (s : Session σ) : (l.load c b s).value.2.cache.Reachable := by
  cases hempty : b.records.isEmpty with
  | true =>
      rw [load_of_isEmpty c l hempty]
      exact hcache
  | false =>
      rw [load_of_not_isEmpty c l hempty]
      exact .statement hcache b.qualifiedTable b.columns

/-- Load batches one after the other, each with settings of its own; statements are kept from one to
the next. -/
def loadEach (c : Cursor σ) :
    Loader → List (LoaderSettings × Batch) → Work σ (List (Except LoadError Nat) × Loader)
  | l, [] => pure ([], l)
  | l, (settings, b) :: rest => do
    let (result, l) ← load c { l with settings := settings } b
    let (results, l) ← loadEach c l rest
    return (result :: results, l)

theorem loadEach_cons (c : Cursor σ) (l : Loader) (settings : LoaderSettings) (b : Batch)
    (rest : List (LoaderSettings × Batch)) {s s' : Session σ} {result : Except LoadError Nat}
    {l' : Loader} {es : List LoadEvent}
    (h : load c { l with settings := settings } b s = ⟨(result, l'), s', es⟩) :
    l.loadEach c ((settings, b) :: rest) s =
      ⟨(result :: (l'.loadEach c rest s').value.1, (l'.loadEach c rest s').value.2),
        (l'.loadEach c rest s').session, es ++ (l'.loadEach c rest s').events⟩ := by
  rw [loadEach, Work.bind_run, h]
  dsimp only
  rw [Work.bind_run, Work.pure_run, List.append_nil]

/-- What each of some loads establishes of the loads so far, their results and the session after
them, holds of all of them. -/
theorem loadEach_induction {c : Cursor σ} {loads : List (LoaderSettings × Batch)}
    {P : List (LoaderSettings × Batch) → List (Except LoadError Nat) → Session σ → Prop}
    {l : Loader} (hcache : l.cache.Reachable) {s : Session σ} (hstart : P [] [] s)
    (hload : ∀ (l : Loader) (b : Batch) (earlier : List (LoaderSettings × Batch))
      (results : List (Except LoadError Nat)) (s : Session σ), l.cache.Reachable →
      (l.settings, b) ∈ loads → P earlier results s →
      P (earlier ++ [(l.settings, b)]) (results ++ [(l.load c b s).value.1])
        (l.load c b s).session) :
    P loads (l.loadEach c loads s).value.1 (l.loadEach c loads s).session := by
  have hrest : ∀ (rest earlier : List (LoaderSettings × Batch))
      (results : List (Except LoadError Nat)) (l : Loader) (s : Session σ),
      l.cache.Reachable → (∀ load ∈ rest, load ∈ loads) → P earlier results s →
      P (earlier ++ rest) (results ++ (l.loadEach c rest s).value.1)
        (l.loadEach c rest s).session := by
    intro rest
    induction rest with
    | nil =>
        intro earlier results l s _ _ hearlier
        rw [List.append_nil]
        change P earlier (results ++ []) s
        rwa [List.append_nil]
    | cons first rest ih =>
        obtain ⟨settings, b⟩ := first
        intro earlier results l s hcache hmem hearlier
        have hfirst := hload { l with settings := settings } b earlier results s hcache
          (hmem _ List.mem_cons_self) hearlier
        have hnext := reachable_load c (l := { l with settings := settings }) hcache b s
        have hlast := ih _ _ _ _ hnext (fun load h => hmem load (List.mem_cons_of_mem _ h)) hfirst
        rw [loadEach_cons c l settings b rest rfl]
        rwa [List.append_assoc, List.append_assoc] at hlast
  exact hrest loads [] [] l s hcache (fun _ h => h) hstart

end Loader

end RowContract
