import RowContract.Proofs.Load.Memory
import RowContract.Proofs.Load.Steps
import RowContract.Proofs.Outcome

/-!
Loading into a database in memory, row by row.  `loadRows` is what the load of some
rows does to the database when every row is sent by itself; it knows nothing of
chunks, of the fast path or of sessions.  The loader comes to the same verdict,
whatever the size of its chunks and whichever tables it loads row by row, as long as
a call for many rows fails only in a way to be retried.
-/

namespace RowContract

/-- What a load comes to: the number of rows applied and the database after it, or the kind and the
message of the error. -/
abbrev Verdict := Except (LoadFault × String) (Nat × Memory)

/-- The verdict of an episode.  How many rows are bound at once does not count. -/
def Episode.verdict (ep : Episode Memory (Except LoadError Nat)) : Verdict :=
  match ep.value with
  | .ok n => .ok (n, ep.session.cursor.slow)
  | .error e => .error (e.fault, e.message)

theorem Episode.verdict_mk (ep : Episode Memory (Except LoadError Nat)) (es : List LoadEvent) :
    (⟨ep.value, ep.session, es⟩ : Episode Memory (Except LoadError Nat)).verdict = ep.verdict :=
  rfl

/-- One load after another, with the numbers added. -/
def Verdict.andThen (first : Verdict) (later : Memory → Verdict) : Verdict := do
  let (n, m) ← first
  let (k, m) ← later m
  return (n + k, m)

namespace LoadTask

def loadUpdate (t : LoadTask) (kv : KeyValueTable) (row : List Value) (m : Memory) : Verdict :=
  if t.updateValues kv row = [] then .ok (0, m)
  else
    match Memory.execute (t.compensation kv row) m with
    | (.ok n, m) => .ok (min n 1, m)
    | (.error e, _) => .error (LoadFault.classify e, e.message)

/-- What becomes of a row whose insert fails. -/
def loadRefused (t : LoadTask) (row : List Value) (e : DbError) (m : Memory) : Verdict :=
  if LoadFault.classify e = .primaryKey then
    match t.settings.keyValueTable? t.table with
    | some kv => t.loadUpdate kv row m
    | none =>
      if t.settings.isFirstWriteWins t.table then .ok (0, m)
      else .error (LoadFault.classify e, e.message)
  else .error (LoadFault.classify e, e.message)

def loadRow (t : LoadTask) (row : List Value) (m : Memory) : Verdict :=
  match Memory.execute (t.insertion row) m with
  | (.ok _, m) => .ok (1, m)
  | (.error e, m) => t.loadRefused row e m

def loadRows (t : LoadTask) : List (List Value) → Memory → Verdict
  | [], m => .ok (0, m)
  | row :: rest, m => (t.loadRow row m).andThen (t.loadRows rest)

/-! ### Single rows -/

theorem update_verdict (t : LoadTask) (kv : KeyValueTable) (index : Nat) (row : List Value)
    (s : Session Memory) :
    ((t.update Memory.cursor kv index row).run s).verdict =
      t.loadUpdate kv row s.cursor.slow := by
  unfold loadUpdate
  by_cases hvalues : t.updateValues kv row = []
  · obtain ⟨line, hrun⟩ := run_update_of_eq_nil Memory.cursor hvalues index s
    rw [hrun, if_pos hvalues]
    rfl
  · rw [if_neg hvalues, Memory.execute_slow]
    rcases hanswer : Memory.execute (t.compensation kv row) s.cursor with ⟨e | n, m⟩
    · obtain ⟨archive, es, hrun, _⟩ :=
        run_update_of_error (c := Memory.cursor) hvalues hanswer index
      rw [hrun]
      rfl
    · rw [run_update_of_ok (c := Memory.cursor) hvalues hanswer index]
      rfl

theorem settle_verdict (t : LoadTask) (index : Nat) (row : List Value) (e : DbError)
    (s : Session Memory) :
    ((t.settle Memory.cursor index row e).run s).verdict =
      t.loadRefused row e s.cursor.slow := by
  have hfail : ((t.fail ⟨LoadFault.classify e, t.table, e.message, some index⟩ t.statement.text
      t.statement.columns [row] : Loading Memory Nat).run s).verdict =
        .error (LoadFault.classify e, e.message) := by
    obtain ⟨archive, es, hrun, _⟩ :=
      t.run_fail Nat ⟨LoadFault.classify e, t.table, e.message, some index⟩
        t.statement.text t.statement.columns [row] s
    rw [hrun]
    rfl
  unfold loadRefused
  by_cases hkey : LoadFault.classify e = .primaryKey
  · rw [if_pos hkey]
    cases hkv : t.settings.keyValueTable? t.table with
    | some kv =>
        rw [settle_of_keyValueTable hkey hkv]
        exact update_verdict t kv index row s
    | none =>
        cases hfirst : t.settings.isFirstWriteWins t.table with
        | true =>
            obtain ⟨line, hrun⟩ :=
              run_settle_of_firstWriteWins Memory.cursor hkey hkv hfirst index s
            rw [hrun]
            rfl
        | false =>
            rw [settle_eq_fail fun _ => ⟨hkv, hfirst⟩]
            exact hfail
  · rw [if_neg hkey, settle_eq_fail fun h => absurd h hkey]
    exact hfail

theorem insertRow_verdict (t : LoadTask) (index : Nat) (row : List Value) (s : Session Memory) :
    ((t.insertRow Memory.cursor index row).run s).verdict = t.loadRow row s.cursor.slow := by
  unfold loadRow
  rw [Memory.execute_slow]
  rcases hanswer : Memory.execute (t.insertion row) s.cursor with ⟨e | n, m⟩
  · rw [run_insertRow_of_error (c := Memory.cursor) hanswer rfl]
    exact settle_verdict t index row e { s with cursor := m }
  · rw [run_insertRow_of_ok (c := Memory.cursor) hanswer]
    rfl

/-! ### Sequences -/

theorem failMany_loadRow {t : LoadTask} {row : List Value} {m m' : Memory} {n : Nat}
    (h : t.loadRow row m = .ok (n, m')) : m'.failMany = m.failMany := by
  have hinsert := Memory.failMany_execute (t.insertion row) m
  unfold loadRow at h
  rcases hanswer : Memory.execute (t.insertion row) m with ⟨e | k, first⟩ <;>
    rw [hanswer] at h hinsert
  · dsimp only [loadRefused] at h hinsert
    split at h
    · split at h
      · rename_i kv _
        unfold loadUpdate at h
        have hupdate := Memory.failMany_execute (t.compensation kv row) first
        split at h
        · cases h
          exact hinsert
        · rcases hsecond : Memory.execute (t.compensation kv row) first with ⟨e | k, last⟩ <;>
            rw [hsecond] at h hupdate
          · cases h
          · cases h
            exact hupdate.trans hinsert
      · split at h
        · cases h
          exact hinsert
        · cases h
    · cases h
  · cases h
    exact hinsert

end LoadTask

theorem Verdict.andThen_ok (n : Nat) (m : Memory) (later : Memory → Verdict) :
    Verdict.andThen (.ok (n, m)) later =
      (later m).map fun r => (n + r.1, r.2) := by
  unfold Verdict.andThen
  rw [ok_bind]
  dsimp only
  cases later m <;> rfl

theorem Verdict.andThen_assoc (first : Verdict) (second third : Memory → Verdict) :
    (first.andThen second).andThen third =
      first.andThen fun m => (second m).andThen third := by
  rcases first with e | ⟨n, m⟩
  · rfl
  · simp only [andThen_ok]
    rcases second m with e | ⟨k, m'⟩
    · rfl
    · simp only [Except.map, andThen_ok]
      cases third m' <;> simp [Nat.add_assoc]

namespace LoadTask

theorem failMany_loadRows {t : LoadTask} {rows : List (List Value)} {m m' : Memory} {n : Nat}
    (h : t.loadRows rows m = .ok (n, m')) : m'.failMany = m.failMany := by
  induction rows generalizing m n with
  | nil =>
      cases h
      rfl
  | cons row rest ih =>
      unfold loadRows at h
      rcases hrow : t.loadRow row m with e | ⟨k, first⟩ <;> rw [hrow] at h
      · cases h
      · rw [Verdict.andThen_ok] at h
        rcases hrest : t.loadRows rest first with e | ⟨k', last⟩ <;> rw [hrest] at h
        · cases h
        · cases h
          exact (ih hrest).trans (failMany_loadRow hrow)

theorem loadRows_append (t : LoadTask) (first later : List (List Value)) (m : Memory) :
    t.loadRows (first ++ later) m = (t.loadRows first m).andThen (t.loadRows later) := by
  induction first generalizing m with
  | nil =>
      rw [loadRows, Verdict.andThen_ok, List.nil_append]
      rcases t.loadRows later m with e | ⟨n, m'⟩
      · rfl
      · simp [Except.map]
  | cons row rest ih =>
      rw [List.cons_append, loadRows, loadRows, Verdict.andThen_assoc]
      congr 1
      funext m'
      exact ih m'

/-- Two loads after each other, the second of which may rely on what calls for many rows fail
with. -/
theorem verdict_add {x y : Loading Memory Nat} {s : Session Memory} {first : Verdict}
    {later : Memory → Verdict} (hx : (x.run s).verdict = first)
    (hmany : ∀ n m, first = .ok (n, m) → m.failMany = s.cursor.failMany)
    (hy : ∀ s' : Session Memory, s'.cursor.failMany = s.cursor.failMany →
      (y.run s').verdict = later s'.cursor.slow) :
    ((do let applied ← x; let others ← y; return applied + others :
      Loading Memory Nat).run s).verdict = first.andThen later := by
  rcases hxrun : x.run s with ⟨e | n, s', es⟩ <;> rw [hxrun] at hx <;> subst hx
  · rw [Loading.run_bind_of_error hxrun]
    rfl
  · rw [Loading.run_bind_of_ok hxrun]
    have hy' := hy s' (hmany n s'.cursor.slow rfl)
    dsimp only [Episode.verdict]
    rw [Verdict.andThen_ok, ← hy']
    rcases hyrun : y.run s' with ⟨e | k, s'', es'⟩
    · rw [Loading.run_bind_of_error hyrun]
      rfl
    · rw [Loading.run_bind_of_ok hyrun]
      rfl

theorem insertRows_verdict (t : LoadTask) (index : Nat) (rows : List (List Value))
    (s : Session Memory) :
    ((t.insertRows Memory.cursor index rows).run s).verdict = t.loadRows rows s.cursor.slow := by
  induction rows generalizing index s with
  | nil => rfl
  | cons row rest ih =>
      unfold insertRows loadRows
      have hsettings : ∀ k m', t.loadRow row s.cursor.slow = .ok (k, m') →
          m'.failMany = s.cursor.slow.failMany := fun _ _ h => failMany_loadRow h
      exact verdict_add (insertRow_verdict t index row s) hsettings fun s' _ => ih (index + 1) s'

/-! ### Chunks

A chunk that is inserted in one call leaves the database as its rows do that are inserted one by
one; if one of them is refused, and that is not to be retried, the load of the single rows stops
there as well. -/

theorem execute_insertion {t : LoadTask} {table : String} {columns : List String}
    (htext : t.statement.text = Sql.insertText table columns) (row : List Value) (m : Memory) :
    Memory.execute (t.insertion row) m = m.insert t.statement.text [row] := by
  unfold insertion
  rw [htext]
  exact Memory.execute_insertText table columns row m

theorem loadRefused_of_not_isRetried {t : LoadTask} {e : DbError}
    (h : t.isRetried (LoadFault.classify e) = false) (row : List Value) (m : Memory) :
    t.loadRefused row e m = .error (LoadFault.classify e, e.message) := by
  unfold loadRefused
  split
  · rename_i hkey
    rw [hkey] at h
    obtain ⟨hkv, hfirst⟩ := Bool.or_eq_false_iff.mp h
    rw [Option.isSome_eq_false_iff, Option.isNone_iff_eq_none] at hkv
    rw [hkv, hfirst, if_neg Bool.false_ne_true]
  · rfl

section
variable {t : LoadTask} {table : String} {columns : List String}
  (htext : t.statement.text = Sql.insertText table columns)
include htext

theorem loadRows_of_insert_eq_ok (row : List Value) (rest : List (List Value)) {m m' : Memory}
    {n : Nat} (h : m.insert t.statement.text (row :: rest) = (.ok n, m')) :
    t.loadRows (row :: rest) m = .ok (rest.length + 1, m') := by
  -- The induction keeps a first row, since an insert of no rows may fail to be read.
  induction rest generalizing row m n with
  | nil =>
      rw [← execute_insertion htext] at h
      rw [loadRows, loadRow, h]
      rfl
  | cons next rest ih =>
      rw [Memory.insert_cons] at h
      rcases hfirst : m.insert t.statement.text [row] with ⟨e | k, first⟩ <;> rw [hfirst] at h
      · cases h
      · dsimp only at h
        rcases hrest : first.insert t.statement.text (next :: rest) with ⟨e | k', last⟩ <;>
          rw [hrest] at h
        · cases h
        · cases h
          rw [← execute_insertion htext] at hfirst
          rw [loadRows, loadRow, hfirst]
          dsimp only
          rw [Verdict.andThen_ok, ih next hrest]
          simp [Except.map, Nat.add_comm]

theorem loadRows_of_insert_eq_error (row : List Value) (rest : List (List Value))
    {m m' : Memory} {e : DbError}
    (h : m.insert t.statement.text (row :: rest) = (.error e, m'))
    (hretried : t.isRetried (LoadFault.classify e) = false) :
    t.loadRows (row :: rest) m = .error (LoadFault.classify e, e.message) := by
  induction rest generalizing row m m' with
  | nil =>
      rw [← execute_insertion htext] at h
      rw [loadRows, loadRow, h]
      dsimp only
      rw [loadRefused_of_not_isRetried hretried]
      rfl
  | cons next rest ih =>
      rw [Memory.insert_cons] at h
      rcases hfirst : m.insert t.statement.text [row] with ⟨e' | k, first⟩ <;> rw [hfirst] at h
      · cases h
        rw [← execute_insertion htext] at hfirst
        rw [loadRows, loadRow, hfirst]
        dsimp only
        rw [loadRefused_of_not_isRetried hretried]
        rfl
      · dsimp only at h
        rcases hrest : first.insert t.statement.text (next :: rest) with ⟨e' | k', last⟩ <;>
          rw [hrest] at h
        · -- The rows before the one that is refused stay stored, but the load fails all the same.
          cases h
          rw [← execute_insertion htext] at hfirst
          rw [loadRows, loadRow, hfirst]
          dsimp only
          rw [Verdict.andThen_ok, ih next hrest]
          rfl
        · cases h

end

end LoadTask

/-- A call for many rows fails, if on demand, only in a way to be retried row by row. -/
def Memory.Retriable (m : Memory) : Prop :=
  ∀ e, m.failMany = some e → LoadFault.classify e = .coercion

namespace LoadTask

theorem insertSlowly_verdict (t : LoadTask) (index : Nat) (chunk : List (List Value))
    (s : Session Memory) :
    ((t.insertSlowly Memory.cursor index chunk).run s).verdict =
      t.loadRows chunk s.cursor.slow := by
  unfold insertSlowly
  rw [Loading.run_setFast_bind]
  exact insertRows_verdict t index chunk _

/-- A call for many rows that fails leaves the rows to the slow path, or ends the load as the slow
path would. -/
theorem insertFast_verdict_of_error {t : LoadTask} (index : Nat) (row : List Value)
    (rest : List (List Value)) {s : Session Memory} {e : DbError} {m : Memory}
    (hanswer : Memory.executeMany t.statement.text (row :: rest) { s.cursor with fast := true } =
      (.error e, m)) (hm : m.slow = s.cursor.slow)
    (hstop : t.isRetried (LoadFault.classify e) = false →
      t.loadRows (row :: rest) s.cursor.slow = .error (LoadFault.classify e, e.message)) :
    ((t.insertFast Memory.cursor index (row :: rest)).run s).verdict =
      t.loadRows (row :: rest) s.cursor.slow := by
  unfold insertFast
  rw [Loading.run_setFast_bind, Loading.run_executeMany_bind Memory.cursor _ _ _
    (s := { s with cursor := Memory.cursor.setFast true s.cursor }) hanswer]
  dsimp only
  cases hretried : t.isRetried (LoadFault.classify e) with
  | true =>
      rw [if_pos rfl, Work.warn, Loading.run_log_bind, ← hm]
      exact insertSlowly_verdict t index (row :: rest) { s with cursor := m }
  | false =>
      obtain ⟨archive, es, hrun, _⟩ :=
        t.run_fail Nat ⟨LoadFault.classify e, t.table, e.message, none⟩ t.statement.text
          t.statement.columns (row :: rest) { s with cursor := m }
      rw [if_neg Bool.false_ne_true, hrun, hstop hretried]
      rfl

section
variable {t : LoadTask} {table : String} {columns : List String}
  (htext : t.statement.text = Sql.insertText table columns)
include htext

theorem insertFast_verdict (index : Nat) (row : List Value) (rest : List (List Value))
    {s : Session Memory} (hmany : s.cursor.Retriable) :
    ((t.insertFast Memory.cursor index (row :: rest)).run s).verdict =
      t.loadRows (row :: rest) s.cursor.slow := by
  cases hfail : s.cursor.failMany with
  | some e =>
      -- The failure on demand is retried, so the rows go down the slow path.
      have hanswer := Memory.executeMany_of_some (m := { s.cursor with fast := true }) hfail rfl
        t.statement.text (row :: rest)
      refine insertFast_verdict_of_error index row rest hanswer rfl fun hretried => ?_
      rw [hmany e hfail] at hretried
      cases hretried
  | none =>
      have hanswer := Memory.executeMany_of_none (m := { s.cursor with fast := true }) hfail
        t.statement.text (row :: rest)
      have hslow := Memory.insert_slow { s.cursor with fast := true } t.statement.text
        (row :: rest)
      rcases hinsert : Memory.insert { s.cursor with fast := true } t.statement.text
        (row :: rest) with ⟨e | n, m⟩ <;> rw [hinsert] at hanswer hslow
      · have hm := Memory.eq_of_insert_eq_error hinsert
        refine insertFast_verdict_of_error index row rest hanswer (by rw [hm]; rfl) ?_
        exact loadRows_of_insert_eq_error htext row rest hslow
      · unfold insertFast
        rw [Loading.run_setFast_bind, Loading.run_executeMany_bind Memory.cursor _ _ _
          (s := { s with cursor := Memory.cursor.setFast true s.cursor }) hanswer]
        exact (loadRows_of_insert_eq_ok htext row rest hslow).symm

theorem insertChunk_verdict (index : Nat) (chunk : List (List Value)) {s : Session Memory}
    (hmany : s.cursor.Retriable) :
    ((t.insertChunk Memory.cursor index chunk).run s).verdict =
      t.loadRows chunk s.cursor.slow := by
  unfold insertChunk
  split
  · rename_i hchunk
    obtain ⟨row, rest, rfl⟩ :=
      List.exists_cons_of_length_pos (Nat.zero_lt_of_lt hchunk.1)
    exact insertFast_verdict htext index row rest hmany
  · exact insertSlowly_verdict t index chunk s

theorem insertChunks_verdict (index : Nat) (chunks : List (List (List Value)))
    {s : Session Memory} (hmany : s.cursor.Retriable) :
    ((t.insertChunks Memory.cursor index chunks).run s).verdict =
      t.loadRows chunks.flatten s.cursor.slow := by
  induction chunks generalizing index s with
  | nil => rfl
  | cons chunk rest ih =>
      unfold insertChunks
      rw [List.flatten_cons, loadRows_append]
      refine verdict_add (insertChunk_verdict htext index chunk hmany)
        (fun _ _ h => failMany_loadRows (m := s.cursor.slow) h) fun s' hs' => ?_
      refine ih (index + chunk.length) ?_
      unfold Memory.Retriable
      rwa [hs']

theorem insertAll_verdict (rows : List (List Value)) {s : Session Memory}
    (hmany : s.cursor.Retriable) :
    ((t.insertAll Memory.cursor rows).run s).verdict = t.loadRows rows s.cursor.slow := by
  unfold insertAll
  rw [insertChunks_verdict htext 0 _ hmany, flatten_chunks]

end

/-! ### Whole batches -/

def closeIdentity (t : LoadTask) (n : Nat) (m : Memory) : Verdict :=
  match Memory.execute (t.identityCommand false) m with
  | (.ok _, m) => .ok (n, m)
  | (.error e, _) => .error ((t.offError e).fault, (t.offError e).message)

def loadWithIdentity (t : LoadTask) (rows : List (List Value)) (m : Memory) : Verdict :=
  match Memory.execute (t.identityCommand true) m with
  | (.ok _, m) =>
    match t.loadRows rows m with
    | .ok (n, m) => t.closeIdentity n m
    | .error failure => .error failure
  | (.error e, _) => .error (LoadFault.classify e, e.message)

def loadBatch (t : LoadTask) (b : Batch) (m : Memory) : Verdict :=
  if b.identityInsert then
    t.loadWithIdentity (b.records.map (Batch.row t.statement.columns)) m
  else t.loadRows (b.records.map (Batch.row t.statement.columns)) m

theorem forbidIdentity_verdict_of_ok (t : LoadTask) (n : Nat) (s : Session Memory) :
    ((t.forbidIdentity Memory.cursor (.ok n)).run s).verdict =
      t.closeIdentity n s.cursor.slow := by
  unfold forbidIdentity closeIdentity
  rw [Memory.execute_slow]
  rcases hanswer : Memory.execute (t.identityCommand false) s.cursor with ⟨e | k, m⟩ <;>
    rw [Loading.run_execute_bind Memory.cursor _ _ hanswer]
  · obtain ⟨archive, es, hrun, _⟩ :=
      t.run_fail Nat (t.offError e) (t.identityCommand false).text [] []
        { s with cursor := m }
    dsimp only [offError] at hrun ⊢
    rw [hrun]
    rfl
  · rfl

theorem forbidIdentity_verdict_of_error (t : LoadTask) (failure : LoadError)
    (s : Session Memory) :
    ((t.forbidIdentity Memory.cursor (.error failure)).run s).verdict =
      .error (failure.fault, failure.message) := by
  unfold Episode.verdict
  rw [(run_forbidIdentity Memory.cursor t (.error failure) s).eq_of_error]

theorem insertWithIdentity_verdict {t : LoadTask} {table : String} {columns : List String}
    (htext : t.statement.text = Sql.insertText table columns) (rows : List (List Value))
    {s : Session Memory} (hmany : s.cursor.Retriable) :
    ((t.insertWithIdentity Memory.cursor rows).run s).verdict =
      t.loadWithIdentity rows s.cursor.slow := by
  unfold loadWithIdentity
  rw [Memory.execute_slow]
  have hfailMany := Memory.failMany_execute (t.identityCommand true) s.cursor
  rcases hanswer : Memory.execute (t.identityCommand true) s.cursor with ⟨e | k, m⟩ <;>
    rw [hanswer] at hfailMany
  · obtain ⟨archive, es, hrun, _⟩ :=
      run_insertWithIdentity_of_error (c := Memory.cursor) hanswer rows
    rw [hrun]
    rfl
  · have hm : m.Retriable := by
      unfold Memory.Retriable
      rwa [hfailMany]
    obtain ⟨ep, hep, hrun⟩ := run_insertWithIdentity_of_ok (c := Memory.cursor) hanswer rows
    have hrows := insertAll_verdict htext rows (s := { s with cursor := m }) hm
    rw [← hep] at hrows
    rw [hrun, Episode.verdict_mk]
    dsimp only at hrows ⊢
    rw [← hrows]
    rcases ep with ⟨e | n, s', es⟩
    · rw [forbidIdentity_verdict_of_error]
      rfl
    · rw [forbidIdentity_verdict_of_ok]
      rfl

end LoadTask

namespace Loader

theorem rowPhase_verdict {t : LoadTask} {table : String} {columns : List String}
    (htext : t.statement.text = Sql.insertText table columns) (b : Batch) {s : Session Memory}
    (hmany : s.cursor.Retriable) :
    ((rowPhase Memory.cursor t b).run s).verdict = t.loadBatch b s.cursor.slow := by
  unfold rowPhase LoadTask.loadBatch
  cases b.identityInsert with
  | true => exact LoadTask.insertWithIdentity_verdict htext _ hmany
  | false => exact LoadTask.insertAll_verdict htext _ hmany

theorem run_verdict {t : LoadTask} {table : String} {columns : List String}
    (htext : t.statement.text = Sql.insertText table columns) (b : Batch) {s : Session Memory}
    (hmany : s.cursor.Retriable) :
    ((run Memory.cursor t b).run s).verdict =
      (t.loadBatch b s.cursor.slow).map fun r => (min r.1 b.size, r.2) := by
  rw [← rowPhase_verdict htext b hmany]
  rcases hrun : (rowPhase Memory.cursor t b).run s with ⟨e | n, s', es⟩
  · rw [run_run_of_error hrun]
    rfl
  · obtain ⟨line, hline⟩ := run_run_of_ok hrun
    rw [hline]
    rfl

def verdict (l : Loader) (b : Batch) (s : Session Memory) : Verdict :=
  Episode.verdict ⟨(l.load Memory.cursor b s).value.1, (l.load Memory.cursor b s).session, []⟩

theorem of_verdict_eq_ok {l : Loader} {b : Batch} {s : Session Memory} {n : Nat} {m : Memory}
    (h : l.verdict b s = .ok (n, m)) :
    (l.load Memory.cursor b s).value.1 = .ok n ∧
      (l.load Memory.cursor b s).session.cursor.slow = m := by
  unfold verdict Episode.verdict at h
  dsimp only at h
  split at h
  · injection h with hpair
    injection hpair with hn hm
    exact ⟨hn ▸ ‹_›, hm⟩
  · cases h

theorem verdict_of_isEmpty (l : Loader) {b : Batch} (h : b.records.isEmpty = true)
    (s : Session Memory) : l.verdict b s = .ok (0, s.cursor.slow) := by
  unfold verdict
  rw [load_of_isEmpty Memory.cursor l h]
  rfl

theorem verdict_of_not_isEmpty {l : Loader} (hcache : l.cache.Reachable) {b : Batch}
    (h : b.records.isEmpty = false) {s : Session Memory} (hmany : s.cursor.Retriable) :
    l.verdict b s =
      ((l.prepare b).1.loadBatch b s.cursor.slow).map fun r => (min r.1 b.size, r.2) := by
  obtain ⟨order, _, htask⟩ := prepare_eq_task hcache b
  have htext : (l.prepare b).1.statement.text = Sql.insertText b.qualifiedTable order := by
    rw [htask]
    rfl
  unfold verdict
  rw [load_of_not_isEmpty Memory.cursor l h]
  exact run_verdict htext b hmany

end Loader

namespace LoadTask

/-- Rows that are loaded one by one do not look at the size of chunks, nor at the tables that are
always loaded row by row. -/
theorem loadRows_settings (t : LoadTask) (batchSize : Nat) (rowByRowTables : List String)
    (rows : List (List Value)) (m : Memory) :
    loadRows { t with settings := { t.settings with batchSize, rowByRowTables } } rows m =
      t.loadRows rows m := by
  induction rows generalizing m with
  | nil => rfl
  | cons row rest ih =>
      unfold loadRows
      congr 1
      funext m'
      exact ih m'

theorem loadBatch_settings (t : LoadTask) (batchSize : Nat) (rowByRowTables : List String)
    (b : Batch) (m : Memory) :
    loadBatch { t with settings := { t.settings with batchSize, rowByRowTables } } b m =
      t.loadBatch b m := by
  unfold loadBatch loadWithIdentity
  simp only [loadRows_settings]
  rfl

end LoadTask

namespace Loader

theorem verdict_settings {l : Loader} (hcache : l.cache.Reachable) (batchSize : Nat)
    (rowByRowTables : List String) (b : Batch) {m : Memory} (hmany : m.Retriable)
    (archive archive' : Option Archive) :
    verdict { l with settings := { l.settings with batchSize, rowByRowTables } } b ⟨m, archive'⟩ =
      l.verdict b ⟨m, archive⟩ := by
  cases hempty : b.records.isEmpty with
  | true => rw [verdict_of_isEmpty _ hempty, verdict_of_isEmpty _ hempty]
  | false =>
      rw [verdict_of_not_isEmpty hcache hempty (s := ⟨m, archive⟩) hmany]
      refine (verdict_of_not_isEmpty ?_ hempty (s := ⟨m, archive'⟩) hmany).trans ?_
      · exact hcache
      congr 1
      exact LoadTask.loadBatch_settings (l.prepare b).1 batchSize rowByRowTables b m.slow

/-- The load of a batch does not depend on the size of its chunks, nor on whether its table is
loaded row by row: there is the same number and the same tables, or an error of the same kind with
the same message. -/
theorem load_agrees {l l' : Loader} (hcache : l.cache.Reachable) (hsame : l'.cache = l.cache)
    (hsettings : l'.settings = { l.settings with
      batchSize := l'.settings.batchSize
      rowByRowTables := l'.settings.rowByRowTables })
    (b : Batch) {m : Memory} (hmany : m.Retriable) (archive archive' : Option Archive) :
    (∃ n, (l.load Memory.cursor b ⟨m, archive⟩).value.1 = .ok n ∧
      (l'.load Memory.cursor b ⟨m, archive'⟩).value.1 = .ok n ∧
      (l'.load Memory.cursor b ⟨m, archive'⟩).session.cursor.tables =
        (l.load Memory.cursor b ⟨m, archive⟩).session.cursor.tables) ∨
    ∃ e e', (l.load Memory.cursor b ⟨m, archive⟩).value.1 = .error e ∧
      (l'.load Memory.cursor b ⟨m, archive'⟩).value.1 = .error e' ∧
      e'.fault = e.fault ∧ e'.message = e.message := by
  have hl' : l' = { l with settings := { l.settings with
      batchSize := l'.settings.batchSize
      rowByRowTables := l'.settings.rowByRowTables } } := by
    rw [← hsettings, ← hsame]
  have hverdict := verdict_settings hcache l'.settings.batchSize l'.settings.rowByRowTables b
    hmany archive archive'
  rw [← hl'] at hverdict
  unfold verdict Episode.verdict at hverdict
  dsimp only at hverdict
  cases hfirst : (l.load Memory.cursor b ⟨m, archive⟩).value.1 with
  | ok n =>
      cases hsecond : (l'.load Memory.cursor b ⟨m, archive'⟩).value.1 with
      | ok k =>
          rw [hfirst, hsecond] at hverdict
          injection hverdict with hpair
          injection hpair with hn hm
          have htables := congrArg Memory.tables hm
          exact .inl ⟨n, rfl, congrArg _ hn, htables⟩
      | error e' =>
          rw [hfirst, hsecond] at hverdict
          cases hverdict
  | error e =>
      cases hsecond : (l'.load Memory.cursor b ⟨m, archive'⟩).value.1 with
      | ok k =>
          rw [hfirst, hsecond] at hverdict
          cases hverdict
      | error e' =>
          rw [hfirst, hsecond] at hverdict
          injection hverdict with hpair
          injection hpair with hfault hmessage
          exact .inr ⟨e, e', rfl, rfl, hfault, hmessage⟩

def threeScores : Batch where
  table := "scores"
  qualifiedTable := "[dbo].[scores]"
  records :=
    [⟨"scores", [("score_identifier", .text "a"), ("score", .int 1)]⟩,
      ⟨"scores", [("score_identifier", .text "b"), ("score", .int 2)]⟩,
      ⟨"scores", [("score_identifier", .text "b"), ("score", .int 3)]⟩]

/-- A database in which calls for many rows fail as if a value did not fit. -/
def unconverting : Memory where
  primaryKeys := [("[dbo].[scores]", ["score_identifier"])]
  failMany := some ⟨"Conversion failed.", some 245⟩

theorem retriable_unconverting : unconverting.Retriable := by
  intro e he
  cases he
  decide

/-- The scores come out alike in one chunk and in chunks of two. -/
theorem load_agrees_threeScores :
    Sql.StatementCache.Reachable {} ∧ unconverting.Retriable ∧
      ((∃ n, (load Memory.cursor {} threeScores ⟨unconverting, none⟩).value.1 = .ok n ∧
        (load Memory.cursor ⟨{ batchSize := 2 }, {}⟩ threeScores ⟨unconverting, none⟩).value.1 =
          .ok n ∧
        (load Memory.cursor ⟨{ batchSize := 2 }, {}⟩ threeScores
            ⟨unconverting, none⟩).session.cursor.tables =
          (load Memory.cursor {} threeScores ⟨unconverting, none⟩).session.cursor.tables) ∨
      ∃ e e', (load Memory.cursor {} threeScores ⟨unconverting, none⟩).value.1 = .error e ∧
        (load Memory.cursor ⟨{ batchSize := 2 }, {}⟩ threeScores ⟨unconverting, none⟩).value.1 =
          .error e' ∧
        e'.fault = e.fault ∧ e'.message = e.message) := by
  refine ⟨.empty, retriable_unconverting, ?_⟩
  refine load_agrees .empty ?_ ?_ threeScores retriable_unconverting none none
  · rfl
  · rfl

end Loader

end RowContract
