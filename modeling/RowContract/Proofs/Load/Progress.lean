import RowContract.Proofs.Load.Steps

/-!
The progress of a load.  `Step` says all that can happen to the rows that are still to
be loaded, with the calls made for it and their answers, and `Stop` how the load of
rows can end early.  Every run of the loader is a sequence of steps, perhaps with one
such end; what holds of all runs is proved from that, for any cursor.
-/

namespace RowContract

variable {σ : Type}

inductive Fate where
  /-- It was part of one call for many rows that succeeded. -/
  | bulk
  /-- Its own insert succeeded. -/
  | inserted
  /-- Its insert repeated a key, and an update took its place. -/
  | updated (affected : Nat)
  /-- Its insert repeated a key, and it was passed over. -/
  | skipped
  deriving DecidableEq, Repr

/-- Whether the row counts as applied: it does not if it was passed over, or if its update found no
row. -/
def Fate.counts : Fate → Bool
  | .bulk => true
  | .inserted => true
  | .updated affected => 0 < affected
  | .skipped => false

namespace LoadTask

/-- A step of the load of some rows: the rows before it, its events, what became of the rows that it
settled, and the rows after it. -/
inductive Step (t : LoadTask) :
    List (List Value) → List LoadEvent → List Fate → List (List Value) → Prop
  | fast (rows : List (List Value)) (on : Bool) : Step t rows [.fast on] [] rows
  | bulk (chunk rest : List (List Value)) :
      Step t (chunk ++ rest) [.executedMany t.statement.text chunk (.ok ())]
        (List.replicate chunk.length .bulk) rest
  /-- A call for many rows that fails in a way to be retried settles nothing. -/
  | attempt (chunk rest : List (List Value)) (e : DbError) (line : LogEntry)
      (h : t.isRetried (LoadFault.classify e) = true) :
      Step t (chunk ++ rest) [.executedMany t.statement.text chunk (.error e), .line line] []
        (chunk ++ rest)
  | inserted (row : List Value) (rest : List (List Value)) (n : Nat) :
      Step t (row :: rest) [.executed (t.insertion row) (.ok n)] [.inserted] rest
  | updated (row : List Value) (rest : List (List Value)) (e : DbError) (kv : KeyValueTable)
      (n : Nat) (h : LoadFault.classify e = .primaryKey)
      (hkv : t.settings.keyValueTable? t.table = some kv)
      (hvalues : ∃ column ∈ kv.valueColumns, column ∈ t.statement.columns) :
      Step t (row :: rest)
        [.executed (t.insertion row) (.error e), .executed (t.compensation kv row) (.ok n)]
        [.updated n] rest
  /-- Without a value column there is nothing to update. -/
  | valueless (row : List Value) (rest : List (List Value)) (e : DbError) (kv : KeyValueTable)
      (line : LogEntry) (h : LoadFault.classify e = .primaryKey)
      (hkv : t.settings.keyValueTable? t.table = some kv)
      (hvalues : ∀ column ∈ kv.valueColumns, column ∉ t.statement.columns) :
      Step t (row :: rest) [.executed (t.insertion row) (.error e), .line line] [.skipped] rest
  | later (row : List Value) (rest : List (List Value)) (e : DbError) (line : LogEntry)
      (h : LoadFault.classify e = .primaryKey)
      (hkv : t.settings.keyValueTable? t.table = none)
      (hfirst : t.settings.isFirstWriteWins t.table = true) :
      Step t (row :: rest) [.executed (t.insertion row) (.error e), .line line] [.skipped] rest

/-- An end of the load before all rows are settled: the index of the first row that is not, these
rows, the events, and the error. -/
inductive Stop (t : LoadTask) (index : Nat) :
    List (List Value) → List LoadEvent → LoadError → Prop
  | bulk (chunk rest : List (List Value)) (e : DbError) (es : List LoadEvent)
      (h : t.isRetried (LoadFault.classify e) = false)
      (hes : Recorded ⟨LoadFault.classify e, t.table, e.message, none⟩
        (t.report ⟨LoadFault.classify e, t.table, e.message, none⟩ t.statement.text
          t.statement.columns chunk) es) :
      Stop t index (chunk ++ rest) (.executedMany t.statement.text chunk (.error e) :: es)
        ⟨LoadFault.classify e, t.table, e.message, none⟩
  | insert (row : List Value) (rest : List (List Value)) (e : DbError) (es : List LoadEvent)
      (h : LoadFault.classify e = .primaryKey →
        t.settings.keyValueTable? t.table = none ∧ t.settings.isFirstWriteWins t.table = false)
      (hes : Recorded ⟨LoadFault.classify e, t.table, e.message, some index⟩
        (t.report ⟨LoadFault.classify e, t.table, e.message, some index⟩ t.statement.text
          t.statement.columns [row]) es) :
      Stop t index (row :: rest) (.executed (t.insertion row) (.error e) :: es)
        ⟨LoadFault.classify e, t.table, e.message, some index⟩
  | update (row : List Value) (rest : List (List Value)) (e e' : DbError) (kv : KeyValueTable)
      (es : List LoadEvent) (h : LoadFault.classify e = .primaryKey)
      (hkv : t.settings.keyValueTable? t.table = some kv)
      (hvalues : ∃ column ∈ kv.valueColumns, column ∈ t.statement.columns)
      (hes : Recorded ⟨LoadFault.classify e', t.table, e'.message, some index⟩
        (t.report ⟨LoadFault.classify e', t.table, e'.message, some index⟩
          (t.compensation kv row).text
          ((t.updateValues kv row ++ t.updateKeys kv row).map Prod.fst)
          [(t.compensation kv row).params]) es) :
      Stop t index (row :: rest)
        (.executed (t.insertion row) (.error e) ::
          .executed (t.compensation kv row) (.error e') :: es)
        ⟨LoadFault.classify e', t.table, e'.message, some index⟩

inductive Progress (t : LoadTask) :
    List (List Value) → List LoadEvent → List Fate → List (List Value) → Prop
  | refl (rows : List (List Value)) : Progress t rows [] [] rows
  | step {rows middle rest : List (List Value)} {es more : List LoadEvent}
      {fates others : List Fate} (h : Step t rows es fates middle)
      (hrest : Progress t middle more others rest) :
      Progress t rows (es ++ more) (fates ++ others) rest

theorem Step.progress {t : LoadTask} {rows rest : List (List Value)} {es : List LoadEvent}
    {fates : List Fate} (h : t.Step rows es fates rest) : t.Progress rows es fates rest := by
  have hprogress := Progress.step h (.refl rest)
  rwa [List.append_nil, List.append_nil] at hprogress

theorem Progress.trans {t : LoadTask} {rows middle rest : List (List Value)}
    {es more : List LoadEvent} {fates others : List Fate} (h : t.Progress rows es fates middle)
    (hrest : t.Progress middle more others rest) :
    t.Progress rows (es ++ more) (fates ++ others) rest := by
  induction h with
  | refl => exact hrest
  | step hstep _ ih =>
      rw [List.append_assoc, List.append_assoc]
      exact .step hstep (ih hrest)

/-! ### The rows that are settled

Steps settle rows from the front, each once. -/

theorem Step.rows_eq {t : LoadTask} {rows rest : List (List Value)} {es : List LoadEvent}
    {fates : List Fate} (h : t.Step rows es fates rest) :
    ∃ settled, rows = settled ++ rest ∧ settled.length = fates.length := by
  cases h with
  | fast => exact ⟨[], rfl, rfl⟩
  | bulk chunk => exact ⟨chunk, rfl, by rw [List.length_replicate]⟩
  | attempt => exact ⟨[], rfl, rfl⟩
  | inserted row => exact ⟨[row], rfl, rfl⟩
  | updated row => exact ⟨[row], rfl, rfl⟩
  | valueless row => exact ⟨[row], rfl, rfl⟩
  | later row => exact ⟨[row], rfl, rfl⟩

theorem Progress.rows_eq {t : LoadTask} {rows rest : List (List Value)} {es : List LoadEvent}
    {fates : List Fate} (h : t.Progress rows es fates rest) :
    ∃ settled, rows = settled ++ rest ∧ settled.length = fates.length := by
  induction h with
  | refl => exact ⟨[], rfl, rfl⟩
  | step hstep _ ih =>
      obtain ⟨first, rfl, hfirst⟩ := hstep.rows_eq
      obtain ⟨later, rfl, hlater⟩ := ih
      refine ⟨first ++ later, (List.append_assoc ..).symm, ?_⟩
      rw [List.length_append, List.length_append, hfirst, hlater]

theorem Stop.rows_ne_nil {t : LoadTask} {index : Nat} {rows : List (List Value)}
    {es : List LoadEvent} {e : LoadError} (h : t.Stop index rows es e) {i : Nat}
    (hi : e.row = some i) : i = index ∧ rows ≠ [] := by
  cases h with
  | bulk => cases hi
  | insert => cases hi; exact ⟨rfl, by simp⟩
  | update => cases hi; exact ⟨rfl, by simp⟩

/-! ### Every run is a progress -/

/-- What the run of a step of a load says about some rows that it is to load, of which `index` is
the index of the first: it settles them all and gives the number of those that count, or it stops at
one of them.  The rows in `more` are none of its business. -/
def Advances (t : LoadTask) (index : Nat) (rows more : List (List Value))
    (ep : Episode σ (Except LoadError Nat)) : Prop :=
  match ep.value with
  | .ok n => ∃ fates, t.Progress (rows ++ more) ep.events fates more ∧
      n = fates.countP Fate.counts
  | .error e => ∃ es ending fates left, ep.events = es ++ ending ∧
      t.Progress (rows ++ more) es fates left ∧ t.Stop (index + fates.length) left ending e

theorem valueOf?_eq_none_iff {t : LoadTask} {row : List Value}
    (hrow : row.length = t.statement.columns.length) (column : String) :
    t.valueOf? row column = none ↔ column ∉ t.statement.columns := by
  rw [valueOf?, Option.map_eq_none_iff, List.find?_eq_none]
  constructor
  · intro h hcolumn
    have hnames := List.map_fst_zip (Nat.le_of_eq hrow.symm)
    rw [← hnames] at hcolumn
    obtain ⟨entry, hentry, rfl⟩ := List.mem_map.mp hcolumn
    exact h entry hentry (beq_self_eq_true _)
  · intro h entry hentry heq
    exact h (eq_of_beq heq ▸ (List.of_mem_zip hentry).1)

/-- There is nothing to update exactly if the statement has no value column. -/
theorem updateValues_eq_nil_iff {t : LoadTask} {row : List Value}
    (hrow : row.length = t.statement.columns.length) (kv : KeyValueTable) :
    t.updateValues kv row = [] ↔ ∀ column ∈ kv.valueColumns, column ∉ t.statement.columns := by
  simp only [updateValues, List.filterMap_eq_nil_iff, Option.map_eq_none_iff,
    valueOf?_eq_none_iff hrow]

theorem updateValues_ne_nil_iff {t : LoadTask} {row : List Value}
    (hrow : row.length = t.statement.columns.length) (kv : KeyValueTable) :
    t.updateValues kv row ≠ [] ↔ ∃ column ∈ kv.valueColumns, column ∈ t.statement.columns := by
  simp [updateValues_eq_nil_iff hrow]

/-- An update that takes the place of an insert settles the row, or its failure ends the load. -/
theorem update_advances (c : Cursor σ) {t : LoadTask} {kv : KeyValueTable}
    (hkv : t.settings.keyValueTable? t.table = some kv) {row : List Value}
    (hrow : row.length = t.statement.columns.length) {e : DbError}
    (he : LoadFault.classify e = .primaryKey) (index : Nat) (s : Session σ)
    (more : List (List Value)) {ep : Episode σ (Except LoadError Nat)}
    (hep : (t.update c kv index row).run s = ep) :
    t.Advances index [row] more
      ⟨ep.value, ep.session, .executed (t.insertion row) (.error e) :: ep.events⟩ := by
  subst hep
  by_cases hvalues : t.updateValues kv row = []
  · obtain ⟨line, hrun⟩ := run_update_of_eq_nil c hvalues index s
    rw [hrun]
    have hstep : t.Step ([row] ++ more) [.executed (t.insertion row) (.error e), .line line]
        [.skipped] more :=
      .valueless row more e kv line he hkv ((updateValues_eq_nil_iff hrow kv).mp hvalues)
    exact ⟨[.skipped], hstep.progress, rfl⟩
  · have hcolumn := (updateValues_ne_nil_iff hrow kv).mp hvalues
    rcases hanswer : c.execute (t.compensation kv row) s.cursor with ⟨e' | n, m⟩
    · obtain ⟨archive, es, hrun, hes⟩ := run_update_of_error hvalues hanswer index
      rw [hrun]
      exact ⟨[], _, [], [row] ++ more, rfl, .refl _, .update row more e e' kv es he hkv hcolumn hes⟩
    · rw [run_update_of_ok hvalues hanswer index]
      refine ⟨[.updated n], (Step.updated row more e kv n he hkv hcolumn).progress, ?_⟩
      rcases Nat.eq_zero_or_pos n with rfl | hn
      · rfl
      · simp [Fate.counts, hn, Nat.min_eq_right hn]

/-- An insert that nothing makes up for ends the load. -/
theorem insert_stops (t : LoadTask) (index : Nat) (row : List Value) {e : DbError}
    (h : LoadFault.classify e = .primaryKey →
      t.settings.keyValueTable? t.table = none ∧ t.settings.isFirstWriteWins t.table = false)
    (c : Cursor σ) (s : Session σ) (more : List (List Value))
    {ep : Episode σ (Except LoadError Nat)} (hep : (t.settle c index row e).run s = ep) :
    t.Advances index [row] more
      ⟨ep.value, ep.session, .executed (t.insertion row) (.error e) :: ep.events⟩ := by
  subst hep
  obtain ⟨archive, es, hrun, hes⟩ :=
    t.run_fail Nat ⟨LoadFault.classify e, t.table, e.message, some index⟩ t.statement.text
      t.statement.columns [row] s
  rw [settle_eq_fail h, hrun]
  exact ⟨[], _, [], [row] ++ more, rfl, .refl _, .insert row more e es h hes⟩

/-- A row is inserted, or else made up for or passed over; if not, it ends the load. -/
theorem insertRow_advances (c : Cursor σ) (t : LoadTask) (index : Nat) {row : List Value}
    (hrow : row.length = t.statement.columns.length) (s : Session σ)
    (more : List (List Value)) :
    t.Advances index [row] more ((t.insertRow c index row).run s) := by
  rcases hanswer : c.execute (t.insertion row) s.cursor with ⟨e | n, m⟩
  · rw [run_insertRow_of_error hanswer rfl]
    by_cases hkey : LoadFault.classify e = .primaryKey
    · cases hkv : t.settings.keyValueTable? t.table with
      | some kv =>
          rw [settle_of_keyValueTable hkey hkv]
          exact update_advances c hkv hrow hkey index _ more rfl
      | none =>
          cases hfirst : t.settings.isFirstWriteWins t.table with
          | true =>
              obtain ⟨line, hrun⟩ :=
                run_settle_of_firstWriteWins c hkey hkv hfirst index { s with cursor := m }
              rw [hrun]
              exact ⟨[.skipped], (Step.later row more e line hkey hkv hfirst).progress, rfl⟩
          | false =>
              exact insert_stops t index row (fun _ => ⟨hkv, hfirst⟩) c _ more rfl
    · exact insert_stops t index row (fun h => absurd h hkey) c _ more rfl
  · rw [run_insertRow_of_ok hanswer]
    exact ⟨[.inserted], (Step.inserted row more n).progress, rfl⟩

/-- What settles nothing may go before. -/
theorem Advances.after {t : LoadTask} {index : Nat} {rows more : List (List Value)}
    {es : List LoadEvent} (h : t.Progress (rows ++ more) es [] (rows ++ more))
    {ep : Episode σ (Except LoadError Nat)} (hep : t.Advances index rows more ep) :
    t.Advances index rows more ⟨ep.value, ep.session, es ++ ep.events⟩ := by
  obtain ⟨value, session, events⟩ := ep
  cases value with
  | ok n =>
      obtain ⟨fates, hprogress, hn⟩ := hep
      exact ⟨fates, h.trans hprogress, hn⟩
  | error e =>
      obtain ⟨before, ending, fates, left, rfl, hprogress, hstop⟩ := hep
      exact ⟨es ++ before, ending, fates, left, (List.append_assoc ..).symm, h.trans hprogress,
        hstop⟩

/-- Rows that are loaded in two parts, with the numbers added. -/
theorem Advances.add {t : LoadTask} {index : Nat} {first later more : List (List Value)}
    {x y : Loading σ Nat} {s : Session σ} (hx : t.Advances index first (later ++ more) (x.run s))
    (hy : ∀ s, t.Advances (index + first.length) later more (y.run s)) :
    t.Advances index (first ++ later) more
      ((do let applied ← x; let others ← y; return applied + others : Loading σ Nat).run s) := by
  rcases hxrun : x.run s with ⟨e | n, s', es⟩ <;> rw [hxrun] at hx
  · obtain ⟨before, ending, fates, left, hes, hprogress, hstop⟩ := hx
    rw [Loading.run_bind_of_error hxrun]
    exact ⟨before, ending, fates, left, hes, by rwa [List.append_assoc], hstop⟩
  · obtain ⟨fates, hprogress, rfl⟩ := hx
    -- The index of the second part goes by its rows, that of an error by what was settled.
    have hlength : first.length = fates.length := by
      obtain ⟨settled, hrows, hsettled⟩ := hprogress.rows_eq
      rw [← hsettled, List.append_cancel_right hrows]
    rw [Loading.run_bind_of_ok hxrun]
    have hy' := hy s'
    rcases hyrun : y.run s' with ⟨e | k, s'', es'⟩ <;> rw [hyrun] at hy'
    · obtain ⟨before, ending, others, left, rfl, hrest, hstop⟩ := hy'
      rw [Loading.run_bind_of_error hyrun]
      refine ⟨es ++ before, ending, fates ++ others, left, (List.append_assoc ..).symm, ?_, ?_⟩
      · rw [List.append_assoc]
        exact hprogress.trans hrest
      · rwa [List.length_append, ← Nat.add_assoc, ← hlength]
    · obtain ⟨others, hrest, rfl⟩ := hy'
      rw [Loading.run_bind_of_ok hyrun, Loading.run_pure]
      refine ⟨fates ++ others, ?_, (List.countP_append).symm⟩
      rw [List.append_assoc, List.append_nil]
      exact hprogress.trans hrest

section
variable (c : Cursor σ) (t : LoadTask)

theorem insertRows_advances (index : Nat) (rows more : List (List Value))
    (hrows : ∀ row ∈ rows, row.length = t.statement.columns.length) (s : Session σ) :
    t.Advances index rows more ((t.insertRows c index rows).run s) := by
  induction rows generalizing index s with
  | nil => exact ⟨[], .refl _, rfl⟩
  | cons row rest ih =>
      unfold insertRows
      have hrow := insertRow_advances c t index (hrows row (by simp)) s (rest ++ more)
      exact hrow.add fun s' =>
        ih (index + 1) (fun other hother => hrows other (List.mem_cons_of_mem _ hother)) s'

theorem insertSlowly_advances (index : Nat) (chunk more : List (List Value))
    (hrows : ∀ row ∈ chunk, row.length = t.statement.columns.length) (s : Session σ) :
    t.Advances index chunk more ((t.insertSlowly c index chunk).run s) := by
  unfold insertSlowly
  rw [Loading.run_setFast_bind]
  exact .after (Step.fast _ false).progress (insertRows_advances c t index chunk more hrows _)

theorem insertFast_advances (index : Nat) (chunk more : List (List Value))
    (hrows : ∀ row ∈ chunk, row.length = t.statement.columns.length) (s : Session σ) :
    t.Advances index chunk more ((t.insertFast c index chunk).run s) := by
  unfold insertFast
  rw [Loading.run_setFast_bind]
  refine .after (Step.fast _ true).progress ?_
  rcases hanswer : c.executeMany t.statement.text chunk (c.setFast true s.cursor) with
    ⟨e | ⟨⟩, m⟩ <;> rw [Loading.run_executeMany_bind c _ _ _ hanswer]
  · cases hretried : t.isRetried (LoadFault.classify e) with
    | true =>
        dsimp only
        rw [hretried, if_pos rfl, Work.warn, Loading.run_log_bind]
        -- The failed call settled nothing, so the slow path has all rows of the chunk before it.
        exact .after (Step.attempt chunk more e _ hretried).progress
          (insertSlowly_advances c t index chunk more hrows _)
    | false =>
        dsimp only
        rw [hretried, if_neg Bool.false_ne_true]
        obtain ⟨archive, es, hrun, hes⟩ :=
          t.run_fail Nat ⟨LoadFault.classify e, t.table, e.message, none⟩ t.statement.text
            t.statement.columns chunk { s with cursor := m }
        rw [hrun]
        exact ⟨[], _, [], chunk ++ more, rfl, .refl _, .bulk chunk more e es hretried hes⟩
  · refine ⟨List.replicate chunk.length .bulk, (Step.bulk chunk more).progress, ?_⟩
    rw [List.countP_replicate]
    rfl

theorem insertChunk_advances (index : Nat) (chunk more : List (List Value))
    (hrows : ∀ row ∈ chunk, row.length = t.statement.columns.length) (s : Session σ) :
    t.Advances index chunk more ((t.insertChunk c index chunk).run s) := by
  unfold insertChunk
  split
  · exact insertFast_advances c t index chunk more hrows s
  · exact insertSlowly_advances c t index chunk more hrows s

theorem insertChunks_advances (index : Nat) (chunks : List (List (List Value)))
    (more : List (List Value))
    (hrows : ∀ row ∈ chunks.flatten, row.length = t.statement.columns.length) (s : Session σ) :
    t.Advances index chunks.flatten more ((t.insertChunks c index chunks).run s) := by
  induction chunks generalizing index s with
  | nil => exact ⟨[], .refl _, rfl⟩
  | cons chunk rest ih =>
      rw [List.flatten_cons] at hrows ⊢
      unfold insertChunks
      have hchunk := insertChunk_advances c t index chunk (rest.flatten ++ more)
        (fun row hrow => hrows row (List.mem_append_left _ hrow)) s
      exact hchunk.add fun s' =>
        ih (index + chunk.length) (fun row hrow => hrows row (List.mem_append_right _ hrow)) s'

end

/-- The load of all rows, however they are cut into chunks. -/
theorem insertAll_advances (c : Cursor σ) (t : LoadTask) (rows : List (List Value))
    (hrows : ∀ row ∈ rows, row.length = t.statement.columns.length) (s : Session σ) :
    t.Advances 0 rows [] ((t.insertAll c rows).run s) := by
  have hflatten := flatten_chunks t.settings.chunkSize rows
  have hchunks := insertChunks_advances c t 0 (chunks t.settings.chunkSize rows) []
    (by rwa [hflatten]) s
  rwa [hflatten] at hchunks

end LoadTask

end RowContract
