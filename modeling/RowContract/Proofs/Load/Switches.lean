import RowContract.Proofs.Load.Accounting

/-!
The calls of a load, for any cursor.  A load of no records makes none.  A load with
explicit identity values begins with one switch on; if that fails there is no further
call, and else the calls for the rows follow, inserts and updates of the one table,
and one switch off ends the load however the rows went.  The result of the rows is
that of the load, unless only the switch off failed.  The answers are those of the
cursor, each in the state that the call before it leaves.
-/

namespace RowContract

variable {σ : Type}

namespace LoadEvent

def isCall : LoadEvent → Bool
  | .fast _ => true
  | .executed .. => true
  | .executedMany .. => true
  | .line _ => false
  | .saved _ => false

def calls (es : List LoadEvent) : List LoadEvent := es.filter isCall

/-- The text of the statement that a call sends; a change of the way to bind rows sends none. -/
def statement? : LoadEvent → Option String
  | .executed command _ => some command.text
  | .executedMany text _ _ => some text
  | _ => none

/-- Whether the call sends a statement that sets an option of the session. -/
def setsOption (e : LoadEvent) : Bool :=
  e.statement?.any fun text => "SET ".toList.isPrefixOf text.toList

/-- A call for rows of a table: a change of the way to bind rows, or an insert or update of the
table. -/
def IsRowCall (table : String) : LoadEvent → Prop
  | .fast _ => True
  | .executed command _ =>
    (∃ columns, command.text = Sql.insertText table columns) ∨
      ∃ values keys, command = Sql.updateCommand table values keys
  | .executedMany text _ _ => ∃ columns, text = Sql.insertText table columns
  | .line _ => False
  | .saved _ => False

@[simp] theorem calls_nil : calls [] = [] := rfl

@[simp] theorem calls_append (es more : List LoadEvent) :
    calls (es ++ more) = calls es ++ calls more :=
  List.filter_append ..

@[simp] theorem calls_fast (on : Bool) (es : List LoadEvent) :
    calls (.fast on :: es) = .fast on :: calls es := rfl

@[simp] theorem calls_executed (command : Sql.Command) (answer : Except DbError Nat)
    (es : List LoadEvent) :
    calls (.executed command answer :: es) = .executed command answer :: calls es := rfl

@[simp] theorem calls_executedMany (text : String) (rows : List (List Value))
    (answer : Except DbError Unit) (es : List LoadEvent) :
    calls (.executedMany text rows answer :: es) = .executedMany text rows answer :: calls es :=
  rfl

@[simp] theorem calls_line (e : LogEntry) (es : List LoadEvent) :
    calls (.line e :: es) = calls es := rfl

@[simp] theorem calls_saved (d : Diagnostic) (es : List LoadEvent) :
    calls (.saved d :: es) = calls es := rfl

/-- Between its calls a trace does nothing to the cursor. -/
theorem replay_calls (c : Cursor σ) (es : List LoadEvent) (m : σ) :
    c.replay (calls es) m = (calls (c.replay es m).1, (c.replay es m).2) := by
  induction es generalizing m with
  | nil => rfl
  | cons e es ih => cases e <;> simp [Cursor.replay, Cursor.redo, ih]

/-- A trace with one call, played again, says what the cursor answers to it. -/
theorem execute_of_replay {c : Cursor σ} {es : List LoadEvent} {m m' : σ}
    (h : c.replay es m = (es, m')) {command : Sql.Command} {answer : Except DbError Nat}
    (hcalls : calls es = [.executed command answer]) : c.execute command m = (answer, m') := by
  have hcall := replay_calls c es m
  rw [h, hcalls] at hcall
  simp only [Cursor.replay, Cursor.redo, Prod.map, id, Prod.mk.injEq, List.cons.injEq,
    LoadEvent.executed.injEq, true_and, and_true] at hcall
  exact Prod.ext hcall.1 hcall.2

/-- Inserts and updates begin with words of their own, so none of them sets an option. -/
theorem IsRowCall.setsOption_eq_false {table : String} {call : LoadEvent}
    (h : call.IsRowCall table) : call.setsOption = false := by
  have hprefix : ∀ {a : Char} {cs : List Char}, a ≠ 'S' →
      "SET ".toList.isPrefixOf (a :: cs) = false := by
    intro a cs ha
    show ('S' == a && _) = false
    rw [beq_eq_false_iff_ne.mpr ha.symm, Bool.false_and]
  have hinsert : ∀ columns, "SET ".toList.isPrefixOf (Sql.insertText table columns).toList =
      false := by
    intro columns
    rw [Sql.toList_insertText]
    exact hprefix (by decide)
  cases call with
  | fast on => rfl
  | executed command answer =>
      rcases h with ⟨columns, htext⟩ | ⟨values, keys, rfl⟩
      · show "SET ".toList.isPrefixOf command.text.toList = false
        rw [htext]
        exact hinsert columns
      · show "SET ".toList.isPrefixOf (Sql.updateCommand table values keys).text.toList = false
        rw [Sql.toList_updateCommand]
        exact hprefix (by decide)
  | executedMany text rows answer =>
      obtain ⟨columns, rfl⟩ := h
      exact hinsert columns
  | line => rfl
  | saved => rfl

end LoadEvent

open LoadEvent

/-- Recording a failure asks nothing of the cursor. -/
theorem Recorded.calls_eq_nil {e : LoadError} {r : Report} {es : List LoadEvent}
    (h : Recorded e r es) : calls es = [] := by
  cases h <;> rfl

namespace LoadTask

/-! ### The calls for rows

What one step calls for, the runs of all steps call for; the switches are not among them. -/

def InsertsIntoTable (t : LoadTask) : Prop :=
  ∃ columns, t.statement.text = Sql.insertText t.qualifiedTable columns

section
variable {t : LoadTask} (ht : t.InsertsIntoTable)
include ht

theorem InsertsIntoTable.insertion (row : List Value) (answer : Except DbError Nat) :
    (LoadEvent.executed (t.insertion row) answer).IsRowCall t.qualifiedTable :=
  .inl ht

theorem Step.isRowCall {rows rest : List (List Value)} {es : List LoadEvent}
    {fates : List Fate} (h : t.Step rows es fates rest) :
    ∀ call ∈ calls es, call.IsRowCall t.qualifiedTable := by
  intro call hcall
  cases h with
  | fast _ on =>
      rw [calls_fast, calls_nil, List.mem_singleton] at hcall
      rw [hcall]
      trivial
  | bulk chunk =>
      rw [calls_executedMany, calls_nil, List.mem_singleton] at hcall
      rw [hcall]
      exact ht
  | attempt chunk =>
      rw [calls_executedMany, calls_line, calls_nil, List.mem_singleton] at hcall
      rw [hcall]
      exact ht
  | inserted row =>
      rw [calls_executed, calls_nil, List.mem_singleton] at hcall
      rw [hcall]
      exact ht.insertion row _
  | updated row _ e kv n =>
      rw [calls_executed, calls_executed, calls_nil, List.mem_cons, List.mem_singleton] at hcall
      rcases hcall with rfl | rfl
      · exact ht.insertion row _
      · exact .inr ⟨_, _, rfl⟩
  | valueless row =>
      rw [calls_executed, calls_line, calls_nil, List.mem_singleton] at hcall
      rw [hcall]
      exact ht.insertion row _
  | later row =>
      rw [calls_executed, calls_line, calls_nil, List.mem_singleton] at hcall
      rw [hcall]
      exact ht.insertion row _

theorem Progress.isRowCall {rows rest : List (List Value)} {es : List LoadEvent}
    {fates : List Fate} (h : t.Progress rows es fates rest) :
    ∀ call ∈ calls es, call.IsRowCall t.qualifiedTable := by
  induction h with
  | refl => simp
  | step hstep _ ih =>
      intro call hcall
      rw [calls_append] at hcall
      rcases List.mem_append.mp hcall with hcall | hcall
      · exact hstep.isRowCall ht call hcall
      · exact ih call hcall

theorem Stop.isRowCall {index : Nat} {rows : List (List Value)} {es : List LoadEvent}
    {e : LoadError} (h : t.Stop index rows es e) :
    ∀ call ∈ calls es, call.IsRowCall t.qualifiedTable := by
  intro call hcall
  cases h with
  | bulk chunk rest e es _ hes =>
      rw [calls_executedMany, hes.calls_eq_nil, List.mem_singleton] at hcall
      rw [hcall]
      exact ht
  | insert row rest e es _ hes =>
      rw [calls_executed, hes.calls_eq_nil, List.mem_singleton] at hcall
      rw [hcall]
      exact ht.insertion row _
  | update row rest e e' kv es _ _ _ hes =>
      rw [calls_executed, calls_executed, hes.calls_eq_nil, List.mem_cons,
        List.mem_singleton] at hcall
      rcases hcall with rfl | rfl
      · exact ht.insertion row _
      · exact .inr ⟨_, _, rfl⟩

theorem Advances.isRowCall {index : Nat} {rows more : List (List Value)}
    {ep : Episode σ (Except LoadError Nat)} (h : t.Advances index rows more ep) :
    ∀ call ∈ calls ep.events, call.IsRowCall t.qualifiedTable := by
  obtain ⟨value, session, es⟩ := ep
  cases value with
  | ok n =>
      obtain ⟨fates, hprogress, -⟩ := h
      exact hprogress.isRowCall ht
  | error e =>
      obtain ⟨before, ending, fates, left, rfl, hprogress, hstop⟩ := h
      intro call hcall
      rw [calls_append] at hcall
      rcases List.mem_append.mp hcall with hcall | hcall
      · exact hprogress.isRowCall ht call hcall
      · exact hstop.isRowCall ht call hcall

end

/-! ### The switches around them -/

/-- The result of a load between switches, by the result of its rows and the answer to the switch
off: a failure of the rows stays, and otherwise a failure of the switch is one of the system. -/
def closing (t : LoadTask) (rows : Except LoadError Nat) (off : Except DbError Nat) :
    Except LoadError Nat :=
  match rows, off with
  | .error failure, _ => .error failure
  | .ok applied, .ok _ => .ok applied
  | .ok _, .error e => .error (t.offError e)

/-- Only the rows give a number. -/
theorem eq_of_closing_eq_ok {t : LoadTask} {rows : Except LoadError Nat}
    {off : Except DbError Nat} {n : Nat} (h : t.closing rows off = .ok n) : rows = .ok n := by
  unfold closing at h
  split at h
  · cases h
  · exact h
  · cases h

/-- The switch off is one call, and the result follows from its answer. -/
theorem Closing.calls_eq {t : LoadTask} {rows outer : Except LoadError Nat}
    {es : List LoadEvent} (h : t.Closing rows es outer) :
    ∃ off, calls es = [.executed (t.identityCommand false) off] ∧ outer = t.closing rows off := by
  cases h with
  | off _ n =>
      refine ⟨.ok n, rfl, ?_⟩
      cases rows <;> rfl
  | failed applied e es hes =>
      refine ⟨.error e, ?_, rfl⟩
      rw [calls_executed, hes.calls_eq_nil]
  | failedAfter failure e line => exact ⟨.error e, rfl, rfl⟩

end LoadTask

namespace Loader

/-- One load of a batch in a session, by the calls it makes and its result. -/
inductive Bracketed (c : Cursor σ) (settings : LoaderSettings) (b : Batch) (s : Session σ) :
    Episode σ (Except LoadError Nat) → Prop
  | idle (hempty : b.records = []) : Bracketed c settings b s ⟨.ok 0, s, []⟩
  /-- Without explicit identity values the rows are all there is. -/
  | plain (hempty : b.records ≠ []) (hidentity : b.identityInsert = false)
      {order : List String} (horder : order.Perm b.columns)
      {phase ep : Episode σ (Except LoadError Nat)}
      (hphase : phase = ((task { settings := settings } b order).insertAll c
        (b.records.map (Batch.row order))).run s)
      (hrows : ∀ call ∈ calls phase.events, call.IsRowCall b.qualifiedTable)
      (hset : ∀ call ∈ calls phase.events, call.setsOption = false)
      (hcalls : calls ep.events = calls phase.events)
      (hsession : ep.session = phase.session)
      (hvalue : ep.value = phase.value) : Bracketed c settings b s ep
  /-- The switch on fails, and nothing else is tried. -/
  | refused (hempty : b.records ≠ []) (hidentity : b.identityInsert = true) {e : DbError}
      {failure : LoadError} {ep : Episode σ (Except LoadError Nat)}
      (hanswer : c.execute ⟨Sql.identityInsertText b.qualifiedTable true, []⟩ s.cursor =
        (.error e, ep.session.cursor))
      (hcalls : calls ep.events =
        [.executed ⟨Sql.identityInsertText b.qualifiedTable true, []⟩ (.error e)])
      (hvalue : ep.value = .error failure) : Bracketed c settings b s ep
  /-- The rows are loaded in the state that the switch on leaves, and the switch off is executed in
  the state that they leave. -/
  | switched (hempty : b.records ≠ []) (hidentity : b.identityInsert = true) {n : Nat} {m : σ}
      (hanswer : c.execute ⟨Sql.identityInsertText b.qualifiedTable true, []⟩ s.cursor =
        (.ok n, m))
      {order : List String} (horder : order.Perm b.columns)
      {phase ep : Episode σ (Except LoadError Nat)}
      (hphase : phase = ((task { settings := settings } b order).insertAll c
        (b.records.map (Batch.row order))).run ⟨m, s.archive⟩)
      (hrows : ∀ call ∈ calls phase.events, call.IsRowCall b.qualifiedTable)
      (hset : ∀ call ∈ calls phase.events, call.setsOption = false)
      {off : Except DbError Nat}
      (hoff : c.execute ⟨Sql.identityInsertText b.qualifiedTable false, []⟩ phase.session.cursor =
        (off, ep.session.cursor))
      (hcalls : calls ep.events =
        .executed ⟨Sql.identityInsertText b.qualifiedTable true, []⟩ (.ok n) ::
          (calls phase.events ++
            [.executed ⟨Sql.identityInsertText b.qualifiedTable false, []⟩ off]))
      (hvalue : ep.value = (task { settings := settings } b order).closing phase.value off) :
      Bracketed c settings b s ep

/-- Loads in a session, one after the other, each with the calls and the result of its own. -/
inductive EachBracketed (c : Cursor σ) :
    Session σ → List (LoaderSettings × Batch) → List (Except LoadError Nat) → List LoadEvent →
      Session σ → Prop
  | nil (s : Session σ) : EachBracketed c s [] [] [] s
  | cons {settings : LoaderSettings} {b : Batch} {rest : List (LoaderSettings × Batch)}
      {s s' s'' : Session σ} {result : Except LoadError Nat}
      {results : List (Except LoadError Nat)} {es more : List LoadEvent}
      (h : Bracketed c settings b s ⟨result, s', es⟩)
      (hrest : EachBracketed c s' rest results more s'') :
      EachBracketed c s ((settings, b) :: rest) (result :: results) (es ++ more) s''

/-- The rows of a batch are loaded by row calls, and no more of them count than there are. -/
theorem insertAll_task (c : Cursor σ) (l : Loader) (b : Batch) (order : List String)
    (s : Session σ) {phase : Episode σ (Except LoadError Nat)}
    (hphase : phase = ((l.task b order).insertAll c (b.records.map (Batch.row order))).run s) :
    (∀ call ∈ calls phase.events, call.IsRowCall b.qualifiedTable) ∧
      (∀ call ∈ calls phase.events, call.setsOption = false) ∧
      ∀ n, phase.value = .ok n → n ≤ b.size := by
  have hrows : ∀ row ∈ b.records.map (Batch.row order), row.length = order.length := by
    intro row hrow
    obtain ⟨r, -, rfl⟩ := List.mem_map.mp hrow
    exact List.length_map _
  have hadvances := LoadTask.insertAll_advances c (l.task b order) _ hrows s
  rw [← hphase] at hadvances
  have hcalls := hadvances.isRowCall ⟨order, rfl⟩
  refine ⟨hcalls, fun call hcall => (hcalls call hcall).setsOption_eq_false, fun n hn => ?_⟩
  have haccounts := hadvances.accounts
  rw [hn] at haccounts
  have hle := haccounts.le_length
  rwa [List.length_map] at hle

section
variable {c : Cursor σ} {t : LoadTask} {b : Batch} {s : Session σ}

/-- After its rows a load makes no call and leaves the session as it is, and it gives the number of
rows that count if that is not more than there are. -/
theorem run_calls (hle : ∀ n, ((rowPhase c t b).run s).value = .ok n → n ≤ b.size) :
    calls ((run c t b).run s).events = calls ((rowPhase c t b).run s).events ∧
      ((run c t b).run s).session = ((rowPhase c t b).run s).session ∧
      ((run c t b).run s).value = ((rowPhase c t b).run s).value := by
  rcases hrun : (rowPhase c t b).run s with ⟨e | n, s', es⟩
  · rw [run_run_of_error hrun]
    exact ⟨rfl, rfl, rfl⟩
  · obtain ⟨line, hline⟩ := run_run_of_ok hrun
    rw [hline]
    have hmin : min n b.size = n := Nat.min_eq_left (hle n (by rw [hrun]))
    simp [hmin]

end

section
variable {c : Cursor σ} {l : Loader} {b : Batch} (hrecords : b.records ≠ []) {order : List String}
  {s : Session σ}
include hrecords

theorem bracketed_of_plain (hidentity : b.identityInsert = false)
    (horder : order.Perm b.columns) :
    Bracketed c l.settings b s ((run c (l.task b order) b).run s) := by
  have hphase : rowPhase c (l.task b order) b =
      (l.task b order).insertAll c (b.records.map (Batch.row order)) :=
    rowPhase_of_plain c _ hidentity
  obtain ⟨hrows, hset, hle⟩ := insertAll_task c l b order s rfl
  rw [← hphase] at hrows hset hle
  obtain ⟨hcalls, hsession, hvalue⟩ := run_calls hle
  exact .plain hrecords hidentity horder (congrArg (fun x => x.run s) hphase) hrows hset hcalls
    hsession hvalue

variable (hidentity : b.identityInsert = true) {m : σ}
include hidentity

theorem bracketed_of_refused {e : DbError}
    (hanswer : c.execute ((l.task b order).identityCommand true) s.cursor = (.error e, m)) :
    Bracketed c l.settings b s ((run c (l.task b order) b).run s) := by
  obtain ⟨archive, es, hrun, hes⟩ := LoadTask.run_insertWithIdentity_of_error hanswer
    (b.records.map (Batch.row (l.task b order).statement.columns))
  rw [← rowPhase_of_identity c (l.task b order) hidentity] at hrun
  rw [run_run_of_error hrun]
  refine .refused hrecords hidentity hanswer ?_ rfl
  show calls (_ :: es) = _
  rw [calls_executed, hes.calls_eq_nil]
  rfl

theorem bracketed_of_switched (horder : order.Perm b.columns) {n : Nat}
    (hanswer : c.execute ((l.task b order).identityCommand true) s.cursor = (.ok n, m)) :
    Bracketed c l.settings b s ((run c (l.task b order) b).run s) := by
  obtain ⟨phase, hep, hrun⟩ := LoadTask.run_insertWithIdentity_of_ok hanswer
    (b.records.map (Batch.row (l.task b order).statement.columns))
  rw [← rowPhase_of_identity c (l.task b order) hidentity] at hrun
  obtain ⟨hrows, hset, hle⟩ := insertAll_task c l b order { s with cursor := m } hep
  obtain ⟨off, hlast, hclosing⟩ := (LoadTask.run_forbidIdentity c (l.task b order)
    phase.value phase.session).calls_eq
  -- The switch off is the only call behind the rows, so its answer is that of the cursor there.
  have hoff := execute_of_replay
    (LoadTask.forbidIdentity_faithful c (l.task b order) phase.value phase.session) hlast
  obtain ⟨hcalls, hsession, hvalue⟩ := run_calls (c := c) (t := l.task b order) (b := b) (s := s)
    fun k hk => by
      rw [hrun, hclosing] at hk
      exact hle k (LoadTask.eq_of_closing_eq_ok hk)
  rw [hrun] at hcalls hsession hvalue
  rw [hclosing] at hvalue
  refine .switched hrecords hidentity hanswer horder hep hrows hset (hsession ▸ hoff) ?_ hvalue
  rw [hcalls, List.cons_append, calls_executed, calls_append, hlast]
  rfl

end

/-- One load, whatever the cursor answers. -/
theorem load_bracketed (c : Cursor σ) {l : Loader} (hcache : l.cache.Reachable) (b : Batch)
    (s : Session σ) :
    Bracketed c l.settings b s
      ⟨(l.load c b s).value.1, (l.load c b s).session, (l.load c b s).events⟩ := by
  cases hempty : b.records.isEmpty with
  | true =>
      rw [load_of_isEmpty c l hempty]
      exact .idle (List.isEmpty_iff.mp hempty)
  | false =>
      have hrecords : b.records ≠ [] := List.isEmpty_eq_false_iff.mp hempty
      obtain ⟨order, horder, hprepare⟩ := prepare_eq_task hcache b
      rw [load_of_not_isEmpty c l hempty, hprepare]
      cases hidentity : b.identityInsert with
      | false => exact bracketed_of_plain hrecords hidentity horder
      | true =>
          rcases hanswer : c.execute ((l.task b order).identityCommand true) s.cursor with
            ⟨e | n, m⟩
          · exact bracketed_of_refused hrecords hidentity hanswer
          · exact bracketed_of_switched hrecords hidentity horder hanswer

/-- Any loads, one after the other, by a loader that starts without statements.  Their calls, put to
the cursor again, get the same answers and lead to the state after the loads. -/
theorem loadEach_bracketed (c : Cursor σ) (loads : List (LoaderSettings × Batch))
    (s : Session σ) :
    EachBracketed c s loads ((({} : Loader).loadEach c loads s).value.1)
        (({} : Loader).loadEach c loads s).events (({} : Loader).loadEach c loads s).session ∧
      c.replay (({} : Loader).loadEach c loads s).events s.cursor =
        ((({} : Loader).loadEach c loads s).events,
          (({} : Loader).loadEach c loads s).session.cursor) := by
  have hrun : ∀ (l : Loader) (s : Session σ), l.cache.Reachable →
      EachBracketed c s loads (l.loadEach c loads s).value.1 (l.loadEach c loads s).events
        (l.loadEach c loads s).session := by
    -- What a load needs of those before it is that they leave a cache of statements made for them.
    induction loads with
    | nil => exact fun l s _ => .nil s
    | cons first rest ih =>
        obtain ⟨settings, b⟩ := first
        intro l s hcache
        have hload := load_bracketed c (l := { l with settings := settings }) hcache b s
        have hnext := reachable_load c (l := { l with settings := settings }) hcache b s
        rw [loadEach_cons c l settings b rest rfl]
        exact .cons hload (ih _ _ hnext)
  exact ⟨hrun {} s .empty, loadEach_faithful c {} loads s⟩

end Loader

end RowContract
