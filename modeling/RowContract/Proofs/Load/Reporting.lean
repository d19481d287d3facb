import RowContract.Proofs.Contract.DataType
import RowContract.Proofs.Load.Switches

/-!
What a load tells of its failure.  A load that fails keeps one report, that of the error
which it ends with; a load that succeeds keeps none, whatever it recovered from on the way.
What becomes of the report does not matter to the load: without an archive, or with one
that does not take it, the calls and the result are the same.

Both are said of any step of a load, and hold of a load as its steps are put together.
-/

namespace RowContract

theorem LoadEvent.savedReports_append (es more : List LoadEvent) :
    savedReports (es ++ more) = savedReports es ++ savedReports more :=
  List.filterMap_append

open LoadEvent

variable {σ α β : Type}

/-! ### Runs with different archives -/

/-- Two runs that ask the same of the cursor and give the same. -/
structure Episode.Alike (ep ep' : Episode σ α) : Prop where
  value : ep.value = ep'.value
  calls : LoadEvent.calls ep.events = LoadEvent.calls ep'.events
  cursor : ep.session.cursor = ep'.session.cursor

def Work.Unaffected (x : Work σ α) : Prop :=
  ∀ s s', s.cursor = s'.cursor → (x s).Alike (x s')

structure Work.Quiet (x : Work σ α) : Prop where
  unaffected : x.Unaffected
  saves : ∀ s, savedReports (x s).events = []
  archive : ∀ s, (x s).session.archive = s.archive

namespace Work

theorem Unaffected.pure (a : α) : (pure a : Work σ α).Unaffected :=
  fun _ _ h => ⟨rfl, rfl, h⟩

theorem Unaffected.bind {x : Work σ α} {f : α → Work σ β} (hx : x.Unaffected)
    (hf : ∀ a, (f a).Unaffected) : (x >>= f).Unaffected := by
  intro s s' h
  obtain ⟨hvalue, hcalls, hcursor⟩ := hx s s' h
  obtain ⟨hlast, hmore, hend⟩ := hf (x s').value _ _ hcursor
  simp only [bind_run]
  rw [hvalue]
  exact ⟨hlast, by rw [calls_append, calls_append, hcalls, hmore], hend⟩

theorem Quiet.pure (a : α) : (pure a : Work σ α).Quiet := ⟨.pure a, fun _ => rfl, fun _ => rfl⟩

theorem Quiet.bind {x : Work σ α} {f : α → Work σ β} (hx : x.Quiet) (hf : ∀ a, (f a).Quiet) :
    (x >>= f).Quiet where
  unaffected := hx.unaffected.bind fun a => (hf a).unaffected
  saves s := by
    rw [bind_run, savedReports_append, hx.saves, (hf _).saves]
    rfl
  archive s := by
    rw [bind_run, (hf _).archive, hx.archive]

theorem quiet_log (e : LogEntry) : (log e : Work σ Unit).Quiet :=
  ⟨fun _ _ h => ⟨rfl, rfl, h⟩, fun _ => rfl, fun _ => rfl⟩

theorem quiet_setFast (c : Cursor σ) (on : Bool) : (setFast c on).Quiet :=
  ⟨fun _ _ h => ⟨rfl, rfl, congrArg (c.setFast on) h⟩, fun _ => rfl, fun _ => rfl⟩

theorem quiet_execute (c : Cursor σ) (command : Sql.Command) : (execute c command).Quiet where
  unaffected s s' h := by
    unfold execute
    rw [h]
    exact ⟨rfl, rfl, rfl⟩
  saves _ := rfl
  archive _ := rfl

theorem quiet_executeMany (c : Cursor σ) (text : String) (rows : List (List Value)) :
    (executeMany c text rows).Quiet where
  unaffected s s' h := by
    unfold executeMany
    rw [h]
    exact ⟨rfl, rfl, rfl⟩
  saves _ := rfl
  archive _ := rfl

/-- What becomes of a report depends on the archive only. -/
theorem keep_congr (r : Report) {s s' : Session σ} (h : s.archive = s'.archive) :
    (keep r s).events = (keep r s').events ∧
      (keep r s).session.archive = (keep r s').session.archive := by
  unfold keep
  rw [h]
  cases s'.archive with
  | none => exact ⟨rfl, h⟩
  | some a =>
      dsimp only
      cases a.store.save (a.next r) <;> exact ⟨rfl, rfl⟩

/-- Keeping a report asks nothing of the cursor. -/
theorem keep_run (r : Report) (s : Session σ) :
    calls (keep r s).events = [] ∧ (keep r s).session.cursor = s.cursor := by
  unfold keep
  cases s.archive with
  | none => exact ⟨rfl, rfl⟩
  | some a =>
      dsimp only
      cases a.store.save (a.next r) <;> exact ⟨rfl, rfl⟩

theorem toReport_of_keep {r : Report} {s : Session σ} {d : Diagnostic}
    (h : d ∈ savedReports (keep r s).events) : d.toReport = r := by
  cases harchive : s.archive with
  | none =>
      rw [keep_of_none r harchive] at h
      cases h
  | some a =>
      cases hsave : a.store.save (a.next r) with
      | ok store =>
          rw [keep_of_ok r harchive hsave] at h
          rw [List.mem_singleton.mp h]
          rfl
      | error why =>
          rw [keep_of_error r harchive hsave] at h
          cases h

end Work

/-! ### Steps that report their failure -/

/-- What a kind of reports relates: the call that failed, the error and the report. -/
abbrev ReportKind := LoadEvent → LoadError → Report → Prop

/-- A run, started in `s` after the events in `past`, that keeps a report exactly if it fails. -/
structure Episode.Reports (P : ReportKind) (past : List LoadEvent) (s : Session σ)
    (ep : Episode σ (Except LoadError α)) : Prop where
  ok : ∀ a, ep.value = .ok a → savedReports ep.events = [] ∧ ep.session.archive = s.archive
  error : ∀ e, ep.value = .error e →
    ∃ call ∈ past ++ ep.events, ∃ r, P call e r ∧
      savedReports ep.events = savedReports (Work.keep r s).events ∧
      ep.session.archive = (Work.keep r s).session.archive

namespace Episode.Reports

variable {P : ReportKind} {past : List LoadEvent} {s s' : Session σ} {es : List LoadEvent}
  {ep : Episode σ (Except LoadError α)}

theorem mono {more : List LoadEvent} (hpast : past ⊆ more) (h : ep.Reports P past s) :
    ep.Reports P more s where
  ok := h.ok
  error e he := by
    obtain ⟨call, hcall, hrest⟩ := h.error e he
    refine ⟨call, ?_, hrest⟩
    rcases List.mem_append.mp hcall with hcall | hcall
    · exact List.mem_append_left _ (hpast hcall)
    · exact List.mem_append_right _ hcall

/-- Some events that keep no report may go before. -/
theorem after (hsaves : savedReports es = []) (harchive : s'.archive = s.archive)
    (h : ep.Reports P (es ++ past) s') :
    Reports P past s ⟨ep.value, ep.session, es ++ ep.events⟩ where
  ok a ha := by
    obtain ⟨hnone, hsame⟩ := h.ok a ha
    rw [savedReports_append, hsaves, hnone, hsame, harchive]
    exact ⟨rfl, rfl⟩
  error e he := by
    obtain ⟨call, hcall, r, hr, hsaved, hsession⟩ := h.error e he
    -- The archive has not changed before the report, so it makes of it what it would have made.
    obtain ⟨hkept, hleft⟩ := Work.keep_congr r harchive
    rw [savedReports_append, hsaves, List.nil_append, hsaved, hsession, hkept, hleft]
    refine ⟨call, ?_, r, hr, rfl, rfl⟩
    simp only [List.mem_append] at hcall ⊢
    exact or_assoc.mp (hcall.imp_left Or.symm)

/-- Some events that keep no report may follow, if the error stays. -/
theorem before {e : LoadError} {more : List LoadEvent} (hsaves : savedReports more = [])
    (harchive : s'.archive = ep.session.archive) (h : ep.Reports P past s)
    (he : ep.value = .error e) :
    Reports P past s (⟨.error e, s', ep.events ++ more⟩ : Episode σ (Except LoadError β)) where
  ok _ h := nomatch h
  error e' he' := by
    cases he'
    obtain ⟨call, hcall, r, hr, hsaved, hsession⟩ := h.error e he
    rw [savedReports_append, hsaves, List.append_nil, hsaved, harchive, hsession]
    exact ⟨call, (List.append_assoc ..) ▸ List.mem_append_left _ hcall, r, hr, rfl, rfl⟩

/-- What is saved is the report of the error. -/
theorem of_saved (h : ep.Reports P past s) {d : Diagnostic} (hd : d ∈ savedReports ep.events) :
    ∃ e, ep.value = .error e ∧ ∃ call ∈ past ++ ep.events, P call e d.toReport := by
  cases hvalue : ep.value with
  | ok a =>
      rw [(h.ok a hvalue).1] at hd
      cases hd
  | error e =>
      obtain ⟨call, hcall, r, hr, hsaved, -⟩ := h.error e hvalue
      rw [hsaved] at hd
      exact ⟨e, rfl, call, hcall, Work.toReport_of_keep hd ▸ hr⟩

end Episode.Reports

/-- A step of a load that keeps a report exactly if it fails, and takes no notice of what becomes
of it. -/
structure Loading.Reports (P : ReportKind) (past : List LoadEvent) (x : Loading σ α) : Prop where
  unaffected : Work.Unaffected x.run
  run : ∀ s, (x.run s).Reports P past s

namespace Loading.Reports

variable {P : ReportKind} {past : List LoadEvent}

theorem pure (a : α) : Reports P past (pure a : Loading σ α) where
  unaffected := .pure _
  run _ := ⟨fun _ _ => ⟨rfl, rfl⟩, fun _ h => nomatch h⟩

/-- Some calls may go before. -/
theorem after {x : Work σ α} {f : α → Loading σ β} (hx : x.Quiet)
    (hf : ∀ s, Reports P ((x s).events ++ past) (f (x s).value)) :
    Reports P past (ExceptT.lift x >>= f) where
  unaffected s s' h := by
    -- Both runs go on with the one value, so what is known of the rest from `s` will do.
    obtain ⟨hvalue, hcalls, hcursor⟩ := hx.unaffected s s' h
    obtain ⟨hlast, hmore, hend⟩ := (hf s).unaffected _ _ hcursor
    rw [run_lift_bind, run_lift_bind, ← hvalue]
    exact ⟨hlast, by rw [calls_append, calls_append, hcalls, hmore], hend⟩
  run s := by
    rw [run_lift_bind]
    exact ((hf s).run _).after (hx.saves s) (hx.archive s)

theorem skip {x : Work σ α} {f : α → Loading σ β} (hx : x.Quiet)
    (hf : ∀ a, Reports P past (f a)) : Reports P past (ExceptT.lift x >>= f) :=
  .after hx fun _ =>
    ⟨(hf _).unaffected, fun s' => ((hf _).run s').mono (List.subset_append_right _ _)⟩

theorem execute {c : Cursor σ} {command : Sql.Command} {f : Except DbError Nat → Loading σ β}
    (hf : ∀ answer, Reports P (.executed command answer :: past) (f answer)) :
    Reports P past (ExceptT.lift (Work.execute c command) >>= f) :=
  .after (Work.quiet_execute c command) fun _ => hf _

theorem executeMany {c : Cursor σ} {text : String} {rows : List (List Value)}
    {f : Except DbError Unit → Loading σ β}
    (hf : ∀ answer, Reports P (.executedMany text rows answer :: past) (f answer)) :
    Reports P past (ExceptT.lift (Work.executeMany c text rows) >>= f) :=
  .after (Work.quiet_executeMany c text rows) fun _ => hf _

/-- The first of two steps that fails is the one to report. -/
theorem bind {x : Loading σ α} {f : α → Loading σ β} (hx : Reports P past x)
    (hf : ∀ a, Reports P past (f a)) : Reports P past (x >>= f) where
  unaffected := by
    rw [ExceptT.run_bind]
    refine hx.unaffected.bind fun result => ?_
    cases result with
    | ok a => exact (hf a).unaffected
    | error e => exact .pure _
  run s := by
    have hfirst := hx.run s
    rcases hrun : x.run s with ⟨e | a, s', es⟩ <;> rw [hrun] at hfirst
    · have hlast := hfirst.before (β := β) (show savedReports [] = [] from rfl) rfl rfl
      rw [List.append_nil] at hlast
      rwa [run_bind_of_error hrun]
    · obtain ⟨hnone, harchive⟩ := hfirst.ok a rfl
      rw [run_bind_of_ok hrun]
      exact (((hf a).run s').mono (List.subset_append_right _ _)).after hnone harchive

/-- A step that is taken however the one before ends, and hands its error on. -/
theorem ensuring {x : Loading σ α} {f : Except LoadError α → Loading σ β} (hx : Reports P past x)
    (hok : ∀ a, Reports P past (f (.ok a))) (hquiet : ∀ e, Work.Quiet (f (.error e)).run)
    (herror : ∀ e s, ((f (.error e)).run s).value = .error e) :
    Reports P past (ExceptT.lift x.run >>= f) where
  unaffected := by
    rw [run_lift_bind_eq]
    refine hx.unaffected.bind fun result => ?_
    cases result with
    | ok a => exact (hok a).unaffected
    | error e => exact (hquiet e).unaffected
  run s := by
    rw [run_lift_bind]
    have hfirst := hx.run s
    rcases hrun : x.run s with ⟨e | a, s', es⟩ <;> rw [hrun] at hfirst
    · -- The error has its report already, so the last step must not keep another.
      dsimp only
      rw [herror]
      exact hfirst.before ((hquiet e).saves s') ((hquiet e).archive s') rfl
    · obtain ⟨hnone, harchive⟩ := hfirst.ok a rfl
      exact (((hok a).run s').mono (List.subset_append_right _ _)).after hnone harchive

end Loading.Reports

/-! ### The steps of a load -/

namespace LoadTask

/-- The reports on the load of some rows, with the call that failed and the error. -/
inductive Failure (t : LoadTask) (rows : List (List Value)) : ReportKind
  | switch (on : Bool) (e : DbError) (failure : LoadError) (hrow : failure.row = none) :
      Failure t rows (.executed (t.identityCommand on) (.error e)) failure
        (t.report failure (t.identityCommand on).text [] [])
  | bulk (chunk : List (List Value)) (e : DbError) (hchunk : chunk <:+: rows) :
      Failure t rows (.executedMany t.statement.text chunk (.error e))
        ⟨LoadFault.classify e, t.table, e.message, none⟩
        (t.report ⟨LoadFault.classify e, t.table, e.message, none⟩ t.statement.text
          t.statement.columns chunk)
  | insert (index : Nat) (row : List Value) (e : DbError) (hrow : rows[index]? = some row) :
      Failure t rows (.executed (t.insertion row) (.error e))
        ⟨LoadFault.classify e, t.table, e.message, some index⟩
        (t.report ⟨LoadFault.classify e, t.table, e.message, some index⟩ t.statement.text
          t.statement.columns [row])
  | update (index : Nat) (row : List Value) (kv : KeyValueTable) (e : DbError)
      (hrow : rows[index]? = some row) (hkv : t.settings.keyValueTable? t.table = some kv) :
      Failure t rows (.executed (t.compensation kv row) (.error e))
        ⟨LoadFault.classify e, t.table, e.message, some index⟩
        (t.report ⟨LoadFault.classify e, t.table, e.message, some index⟩
          (t.compensation kv row).text ((t.updateValues kv row ++ t.updateKeys kv row).map Prod.fst)
          [(t.compensation kv row).params])

/-- A failure that is recorded is kept as a report and logged. -/
theorem record_keeps (t : LoadTask) (e : LoadError) (text : String) (columns : List String)
    (rows : List (List Value)) (s : Session σ) :
    calls (record t.settings e text columns rows s).events = [] ∧
      savedReports (record t.settings e text columns rows s).events =
        savedReports (Work.keep (t.report e text columns rows) s).events ∧
      (record t.settings e text columns rows s).session =
        (Work.keep (t.report e text columns rows) s).session := by
  have hcalls := (Work.keep_run (t.report e text columns rows) s).1
  unfold record
  rw [Work.bind_run, Work.bind_run]
  simp only [report, Work.complain, Work.warn, Work.log] at hcalls ⊢
  rw [calls_append, calls_append, savedReports_append, savedReports_append, hcalls]
  -- Whether it is kept is only a matter of what is logged next.
  rcases (Work.keep _ s).value with _ | (why | id) <;> exact ⟨rfl, List.append_nil _, rfl⟩

open Loading

variable {P : ReportKind} {past : List LoadEvent}

theorem fail_reports (α : Type) {t : LoadTask} {call : LoadEvent} {e : LoadError} {text : String}
    {columns : List String} {rows : List (List Value)} (hcall : call ∈ past)
    (h : P call e (t.report e text columns rows)) :
    Reports P past (t.fail e text columns rows : Loading σ α) := by
  have hrun : ∀ s, (t.fail e text columns rows : Loading σ α).run s =
      ⟨.error e, (record t.settings e text columns rows s).session,
        (record t.settings e text columns rows s).events⟩ := by
    intro s
    unfold fail
    rw [run_lift_bind, run_throw, List.append_nil]
  refine ⟨fun s s' hcursor => ?_, fun s => ?_⟩
  · obtain ⟨hcalls, -, hsession⟩ := t.record_keeps e text columns rows s
    obtain ⟨hcalls', -, hsession'⟩ := t.record_keeps e text columns rows s'
    rw [hrun, hrun, hsession, hsession']
    refine ⟨rfl, hcalls.trans hcalls'.symm, ?_⟩
    rw [(Work.keep_run _ s).2, (Work.keep_run _ s').2, hcursor]
  · obtain ⟨-, hsaved, hsession⟩ := t.record_keeps e text columns rows s
    rw [hrun, hsession]
    refine ⟨fun a ha => (nomatch ha), fun e' he' => ?_⟩
    cases he'
    exact ⟨call, List.mem_append_left _ hcall, _, h, hsaved, rfl⟩

section
variable (c : Cursor σ) {t : LoadTask} {rows : List (List Value)}

theorem update_reports {kv : KeyValueTable} (hkv : t.settings.keyValueTable? t.table = some kv)
    {index : Nat} {row : List Value} (hrow : rows[index]? = some row) :
    Reports (t.Failure rows) past (t.update c kv index row) := by
  unfold update
  dsimp only
  split
  · exact .skip (Work.quiet_log _) fun _ => .pure 0
  · refine .execute fun answer => ?_
    cases answer with
    | ok affected => exact .pure _
    | error e => exact fail_reports Nat List.mem_cons_self (.update index row kv e hrow hkv)

theorem settle_reports {index : Nat} {row : List Value} (hrow : rows[index]? = some row)
    {e : DbError} (hpast : .executed (t.insertion row) (.error e) ∈ past) :
    Reports (t.Failure rows) past (t.settle c index row e) := by
  -- All branches that do not make up for the row end in this one failure.
  have hstop := fail_reports (σ := σ) Nat hpast (Failure.insert (t := t) index row e hrow)
  unfold settle
  dsimp only
  split
  · split
    · exact update_reports c ‹_› hrow
    · split
      · exact .skip (Work.quiet_log _) fun _ => .pure 0
      · exact hstop
  · exact hstop

theorem insertRow_reports {index : Nat} {row : List Value} (hrow : rows[index]? = some row) :
    Reports (t.Failure rows) past (t.insertRow c index row) := by
  unfold insertRow
  refine .execute fun answer => ?_
  cases answer with
  | ok n => exact .pure 1
  | error e => exact settle_reports c hrow List.mem_cons_self

theorem insertRows_reports {index : Nat} {part : List (List Value)}
    (hpart : part <+: rows.drop index) :
    Reports (t.Failure rows) past (t.insertRows c index part) := by
  induction part generalizing index with
  | nil => exact .pure 0
  | cons row rest ih =>
      unfold insertRows
      obtain ⟨tail, htail⟩ := hpart
      have hrow : rows[index]? = some row := by
        rw [← Nat.add_zero index, ← List.getElem?_drop, ← htail]
        rfl
      have hrest : rest <+: rows.drop (index + 1) := ⟨tail, by rw [← List.drop_drop, ← htail]; rfl⟩
      exact .bind (insertRow_reports c hrow) fun _ => .bind (ih hrest) fun _ => .pure _

theorem insertSlowly_reports {index : Nat} {chunk : List (List Value)}
    (hchunk : chunk <+: rows.drop index) :
    Reports (t.Failure rows) past (t.insertSlowly c index chunk) := by
  unfold insertSlowly
  exact .skip (Work.quiet_setFast c false) fun _ => insertRows_reports c hchunk

theorem insertFast_reports {index : Nat} {chunk : List (List Value)}
    (hchunk : chunk <+: rows.drop index) :
    Reports (t.Failure rows) past (t.insertFast c index chunk) := by
  unfold insertFast
  refine .skip (Work.quiet_setFast c true) fun _ => .executeMany fun answer => ?_
  cases answer with
  | ok => exact .pure _
  | error e =>
      dsimp only
      split
      · exact .skip (Work.quiet_log _) fun _ => insertSlowly_reports c hchunk
      · have hinfix : chunk <:+: rows := hchunk.isInfix.trans (List.drop_suffix index rows).isInfix
        exact fail_reports Nat List.mem_cons_self (.bulk chunk e hinfix)

theorem insertChunk_reports {index : Nat} {chunk : List (List Value)}
    (hchunk : chunk <+: rows.drop index) :
    Reports (t.Failure rows) past (t.insertChunk c index chunk) := by
  unfold insertChunk
  split
  · exact insertFast_reports c hchunk
  · exact insertSlowly_reports c hchunk

theorem insertChunks_reports {index : Nat} {parts : List (List (List Value))}
    (hparts : parts.flatten <+: rows.drop index) :
    Reports (t.Failure rows) past (t.insertChunks c index parts) := by
  induction parts generalizing index with
  | nil => exact .pure 0
  | cons chunk rest ih =>
      unfold insertChunks
      -- The index of a chunk counts the rows before it, so its rows go by the index in `rows`.
      obtain ⟨tail, htail⟩ := hparts
      rw [List.flatten_cons, List.append_assoc] at htail
      have hrest : rest.flatten <+: rows.drop (index + chunk.length) :=
        ⟨tail, by rw [← List.drop_drop, ← htail, List.drop_left]⟩
      exact .bind (insertChunk_reports c ⟨_, htail⟩) fun _ => .bind (ih hrest) fun _ => .pure _

theorem insertAll_reports : Reports (t.Failure rows) past (t.insertAll c rows) := by
  unfold insertAll
  refine insertChunks_reports c ?_
  rw [flatten_chunks]
  exact List.prefix_rfl

theorem allowIdentity_reports : Reports (t.Failure rows) past (t.allowIdentity c) := by
  unfold allowIdentity
  refine .execute fun answer => ?_
  cases answer with
  | ok n => exact .pure ()
  | error e => exact fail_reports Unit List.mem_cons_self (.switch true e _ rfl)

theorem forbidIdentity_reports (applied : Nat) :
    Reports (t.Failure rows) past (t.forbidIdentity c (.ok applied)) := by
  unfold forbidIdentity
  refine .execute fun answer => ?_
  cases answer with
  | ok n => exact .pure applied
  | error e => exact fail_reports Nat List.mem_cons_self (.switch false e _ rfl)

/-- The error of the rows has been reported, so that of the switch off is only logged. -/
theorem forbidIdentity_quiet (failure : LoadError) :
    Work.Quiet (t.forbidIdentity c (.error failure)).run := by
  unfold forbidIdentity
  rw [run_lift_bind_eq]
  refine .bind (Work.quiet_execute c _) fun answer => ?_
  cases answer with
  | ok n => exact .pure _
  | error e =>
      dsimp only
      rw [run_lift_bind_eq]
      exact .bind (Work.quiet_log _) fun _ => .pure _

theorem insertWithIdentity_reports :
    Reports (t.Failure rows) past (t.insertWithIdentity c rows) := by
  unfold insertWithIdentity
  exact .bind (allowIdentity_reports c) fun _ => (insertAll_reports c).ensuring
    (forbidIdentity_reports c) (forbidIdentity_quiet c)
    fun _ s => (run_forbidIdentity c t _ s).eq_of_error

end

end LoadTask

/-! ### Whole loads -/

/-- An archive that takes the next report, whatever it says. -/
def Archive.Accepts (a : Archive) : Prop := ∀ r, ∃ store, a.store.save (a.next r) = .ok store

/-- A store that is not blocked takes any report under a valid name of usual length. -/
theorem Archive.accepts_of_fileName {a : Archive} {name : String}
    (hblocked : a.store.blocked = none) (hname : Store.fileName? (a.stamp a.issued).1 = some name)
    (hlength : name.utf8ByteSize ≤ FileFault.maxNameLength) : a.Accepts := by
  intro r
  have hid : Store.fileName? (a.next r).id = some name := hname
  unfold Store.save
  rw [hid, hblocked]
  exact ⟨_, if_neg (Nat.not_lt.mpr hlength)⟩

structure Report.Describes (r : Report) (e : LoadError) : Prop where
  table : r.table = e.table
  fault : r.fault = e.fault
  message : r.message = e.message
  row : r.row = e.row

theorem LoadTask.length_sampleParams_report_le (t : LoadTask) (e : LoadError) (text : String)
    (columns : List String) (rows : List (List Value)) :
    (t.report e text columns rows).sampleParams.length ≤ t.settings.diagnosticSampleRows := by
  show ((rows.take _).map _).length ≤ _
  rw [List.length_map]
  exact List.length_take_le _ _

theorem LoadTask.Failure.describes {t : LoadTask} {rows : List (List Value)} {call : LoadEvent}
    {e : LoadError} {r : Report} (h : t.Failure rows call e r) :
    r.Describes e ∧ r.sampleParams.length ≤ t.settings.diagnosticSampleRows := by
  cases h <;> exact ⟨⟨rfl, rfl, rfl, rfl⟩, t.length_sampleParams_report_le ..⟩

namespace Loader

open Loading

variable {past : List LoadEvent}

theorem rowPhase_reports (c : Cursor σ) (t : LoadTask) (b : Batch) :
    Reports (t.Failure (b.records.map (Batch.row t.statement.columns))) past (rowPhase c t b) := by
  unfold rowPhase
  split
  · exact t.insertWithIdentity_reports c
  · exact t.insertAll_reports c

theorem run_reports (c : Cursor σ) (t : LoadTask) (b : Batch) :
    Reports (t.Failure (b.records.map (Batch.row t.statement.columns))) past (run c t b) := by
  rw [run_eq_rowPhase_bind]
  exact .bind (rowPhase_reports c t b) fun _ => .skip (Work.quiet_log _) fun _ => .pure _

/-- A load keeps a report exactly if it fails. -/
theorem load_reports (c : Cursor σ) (l : Loader) (b : Batch) (s : Session σ) :
    Episode.Reports
      ((l.prepare b).1.Failure (b.records.map (Batch.row (l.prepare b).1.statement.columns))) [] s
      ⟨(l.load c b s).value.1, (l.load c b s).session, (l.load c b s).events⟩ := by
  cases hempty : b.records.isEmpty with
  | true =>
      rw [load_of_isEmpty c l hempty]
      exact (Reports.pure 0).run s
  | false =>
      rw [load_of_not_isEmpty c l hempty]
      exact (run_reports c (l.prepare b).1 b).run s

/-- A load takes no notice of the archive. -/
theorem load_unaffected (c : Cursor σ) (l : Loader) (b : Batch) :
    Work.Unaffected (l.load c b) := by
  intro s s' hcursor
  cases hempty : b.records.isEmpty with
  | true =>
      rw [load_of_isEmpty c l hempty, load_of_isEmpty c l hempty]
      exact ⟨rfl, rfl, hcursor⟩
  | false =>
      have hrun : Reports _ [] (run c (l.prepare b).1 b) := run_reports c (l.prepare b).1 b
      obtain ⟨hvalue, hcalls, hend⟩ := hrun.unaffected s s' hcursor
      rw [load_of_not_isEmpty c l hempty, load_of_not_isEmpty c l hempty]
      exact ⟨congrArg (·, (l.prepare b).2) hvalue, hcalls, hend⟩

/-- If reports are taken, a load that fails leaves one, of the error that it gives, and a load that
succeeds leaves none.  If they are not, or if there is no archive, all else is the same: the
result, the calls with their answers, and the state that they leave. -/
theorem load_leavesReport (c : Cursor σ) (l : Loader) (b : Batch) (m : σ) :
    (∀ a : Archive, a.Accepts →
      (∀ n, (l.load c b ⟨m, some a⟩).value.1 = .ok n →
        savedReports (l.load c b ⟨m, some a⟩).events = [] ∧
          (l.load c b ⟨m, some a⟩).session.archive = some a) ∧
      ∀ e, (l.load c b ⟨m, some a⟩).value.1 = .error e →
        ∃ d store, savedReports (l.load c b ⟨m, some a⟩).events = [d] ∧
          a.store.save d = .ok store ∧
          (l.load c b ⟨m, some a⟩).session.archive =
            some { a with issued := a.issued + 1, store := store } ∧
          d.Describes e ∧ d.sampleParams.length ≤ l.settings.diagnosticSampleRows) ∧
    ∀ archive archive' : Option Archive,
      (l.load c b ⟨m, archive⟩).Alike (l.load c b ⟨m, archive'⟩) := by
  refine ⟨fun a ha => ?_, fun archive archive' => load_unaffected c l b _ _ rfl⟩
  have hreports := load_reports c l b ⟨m, some a⟩
  refine ⟨hreports.ok, fun e he => ?_⟩
  obtain ⟨call, -, r, hr, hsaved, harchive⟩ := hreports.error e he
  obtain ⟨hdescribes, hsample⟩ := hr.describes
  obtain ⟨store, hstore⟩ := ha r
  rw [keep_of_ok r rfl hstore] at hsaved harchive
  exact ⟨a.next r, store, hsaved, hstore, harchive, hdescribes, hsample⟩

def readOnly : Cursor Unit where
  execute _ s := (.error ⟨"The INSERT permission was denied", some 229⟩, s)
  executeMany _ _ s := (.error ⟨"The INSERT permission was denied", some 229⟩, s)
  setFast _ s := s

def tallied : Archive where
  stamp n := (String.ofList (List.replicate (n + 1) 'i'), Calendar.firstMoment)

/-- The load of two scores leaves one report of the refusal, and makes the same calls without an
archive. -/
theorem load_leavesReport_readOnly :
    tallied.Accepts ∧
      (∃ d, savedReports (Loader.load readOnly {} repeatedScore ⟨(), some tallied⟩).events = [d] ∧
        d.Describes ⟨.system, "scores", "The INSERT permission was denied", none⟩ ∧
        d.sampleParams.length ≤ 5) ∧
      (Loader.load readOnly {} repeatedScore ⟨(), some tallied⟩).Alike
        (Loader.load readOnly {} repeatedScore ⟨(), none⟩) := by
  have haccepts : tallied.Accepts :=
    Archive.accepts_of_fileName rfl (show _ = some "i.json" by decide) (by decide)
  have herror : (Loader.load readOnly {} repeatedScore ⟨(), some tallied⟩).value.1 =
      .error ⟨.system, "scores", "The INSERT permission was denied", none⟩ := by
    rw [load_of_not_isEmpty readOnly {} rfl, run_eq_rowPhase_bind]
    unfold rowPhase LoadTask.insertAll
    rw [if_neg (by decide), chunks.eq_def]
    rfl
  obtain ⟨htaken, halike⟩ := load_leavesReport readOnly {} repeatedScore ()
  obtain ⟨d, -, hsaved, -, -, hd⟩ := (htaken tallied haccepts).2 _ herror
  exact ⟨haccepts, ⟨d, hsaved, hd⟩, halike _ _⟩

end Loader

end RowContract
