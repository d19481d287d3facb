import RowContract.Load.Memory
import RowContract.Proofs.Load.Progress
import RowContract.Proofs.Load.Replay
import RowContract.Proofs.Sql.Statement

/-!
The account of a load: for any cursor, what was asked of it for which record, and
what number or error comes out.  Every record of a load that succeeds is settled once,
in the order of the records, and the number that is given counts those that were
inserted or that an update found.  An error that names a record names the one whose
statement failed, and nothing was sent for the records after it.  The calls that the
account speaks of are those that the cursor was asked and that it answered so.
-/

namespace RowContract

variable {σ : Type}

namespace LoadTask

/-- Events around those of the rows: of the statements only the switches are among them. -/
def IsFrame (t : LoadTask) : LoadEvent → Prop
  | .executed command _ => ∃ on, command = t.identityCommand on
  | .line _ => True
  | .saved _ => True
  | .fast _ => False
  | .executedMany .. => False

/-- The account of the load of some rows, by its events and its result.  Without an error all rows
are settled.  With an error that names a row, the rows before it are, and its own statement is the
one that failed. -/
def Accounts (t : LoadTask) (rows : List (List Value)) (es : List LoadEvent) :
    Except LoadError Nat → Prop
  | .ok n => ∃ fates, fates.length = rows.length ∧ t.Progress rows es fates [] ∧
      n = fates.countP Fate.counts
  | .error e => ∀ i, e.row = some i → i < rows.length ∧
      ∃ before ending fates, es = before ++ ending ∧ fates.length = i ∧
        t.Progress rows before fates (rows.drop i) ∧ t.Stop i (rows.drop i) ending e

theorem Advances.accounts {t : LoadTask} {rows : List (List Value)}
    {ep : Episode σ (Except LoadError Nat)} (h : t.Advances 0 rows [] ep) :
    t.Accounts rows ep.events ep.value := by
  obtain ⟨value, session, es⟩ := ep
  cases value with
  | ok n =>
      obtain ⟨fates, hprogress, hn⟩ := h
      rw [List.append_nil] at hprogress
      obtain ⟨settled, hsettled, hlength⟩ := hprogress.rows_eq
      rw [List.append_nil] at hsettled
      exact ⟨fates, hsettled ▸ hlength.symm, hprogress, hn⟩
  | error e =>
      obtain ⟨before, ending, fates, left, hes, hprogress, hstop⟩ := h
      rw [List.append_nil] at hprogress
      intro i hi
      obtain ⟨hindex, hleft⟩ := hstop.rows_ne_nil hi
      rw [Nat.zero_add] at hindex hstop
      obtain ⟨settled, rfl, hlength⟩ := hprogress.rows_eq
      have hdrop : (settled ++ left).drop i = left := by
        rw [hindex, ← hlength, List.drop_left]
      refine ⟨?_, before, ending, fates, hes, hindex.symm, hdrop.symm ▸ hprogress,
        hdrop.symm ▸ hindex ▸ hstop⟩
      rw [List.length_append, hlength, ← hindex]
      exact Nat.lt_add_of_pos_right (List.length_pos_iff.mpr hleft)

theorem Accounts.le_length {t : LoadTask} {rows : List (List Value)} {es : List LoadEvent}
    {n : Nat} (h : t.Accounts rows es (.ok n)) : n ≤ rows.length := by
  obtain ⟨fates, hlength, _, rfl⟩ := h
  rw [← hlength]
  exact List.countP_le_length

theorem isFrame_of_recorded {t : LoadTask} {e : LoadError} {r : Report} {es : List LoadEvent}
    (h : Recorded e r es) : ∀ event ∈ es, t.IsFrame event := by
  intro event hevent
  cases h <;> simp only [List.mem_cons, List.not_mem_nil, or_false] at hevent
  · rw [hevent]
    trivial
  · rcases hevent with rfl | rfl | rfl <;> trivial
  · rcases hevent with rfl | rfl <;> trivial

/-- The switches leave the account of the rows as it is, but for errors of their own, which name no
row. -/
theorem Closing.accounts {t : LoadTask} {rows : List (List Value)} {es after : List LoadEvent}
    {inner outer : Except LoadError Nat} (h : t.Closing inner after outer)
    (hinner : t.Accounts rows es inner) :
    t.Accounts rows es outer ∧ ∀ event ∈ after, t.IsFrame event := by
  cases h with
  | off n =>
      refine ⟨hinner, fun event hevent => ?_⟩
      rw [List.mem_singleton.mp hevent]
      exact ⟨false, rfl⟩
  | failed applied e es hes =>
      refine ⟨fun i hi => (nomatch hi), fun event hevent => ?_⟩
      rcases List.mem_cons.mp hevent with rfl | hevent
      · exact ⟨false, rfl⟩
      · exact isFrame_of_recorded hes event hevent
  | failedAfter failure e line =>
      refine ⟨hinner, fun event hevent => ?_⟩
      rcases List.mem_cons.mp hevent with rfl | hevent
      · exact ⟨false, rfl⟩
      · rw [List.mem_singleton.mp hevent]
        trivial

/-! ### What was inserted

The same account, read from the trace alone. -/

def singleRows (t : LoadTask) : LoadEvent → List (List Value)
  | .executed command _ => if command.text = t.statement.text then [command.params] else []
  | _ => []

def acceptedRows (t : LoadTask) : LoadEvent → List (List Value)
  | .executed command (.ok _) =>
    if command.text = t.statement.text then [command.params] else []
  | .executedMany _ rows (.ok _) => rows
  | _ => []

theorem compensation_text_ne {t : LoadTask} {table : String}
    (hstatement : t.statement.text = Sql.insertText table t.statement.columns)
    (kv : KeyValueTable) (row : List Value) :
    (t.compensation kv row).text ≠ t.statement.text := by
  rw [hstatement]
  exact Sql.updateCommand_text_ne_insertText _ table _ _ t.statement.columns

section
variable {t : LoadTask} {table : String}
  (hstatement : t.statement.text = Sql.insertText table t.statement.columns)
include hstatement

theorem Step.sublist {rows rest : List (List Value)} {es : List LoadEvent} {fates : List Fate}
    (h : t.Step rows es fates rest) :
    ∃ settled, rows = settled ++ rest ∧ settled.length = fates.length ∧
      (es.flatMap t.singleRows).Sublist settled ∧ (es.flatMap t.acceptedRows).Sublist settled := by
  cases h with
  | fast => exact ⟨[], rfl, rfl, .slnil, .slnil⟩
  | bulk chunk =>
      refine ⟨chunk, rfl, by rw [List.length_replicate], List.nil_sublist _, ?_⟩
      simp [acceptedRows]
  | attempt => exact ⟨[], rfl, rfl, .slnil, .slnil⟩
  | inserted row => exact ⟨[row], rfl, rfl, by simp [singleRows, insertion],
      by simp [acceptedRows, insertion]⟩
  | updated row _ e kv =>
      -- The update sends the values of the row too, but not by the statement of the inserts.
      have hne := compensation_text_ne hstatement kv row
      exact ⟨[row], rfl, rfl, by simp [singleRows, insertion, hne],
        by simp [acceptedRows, hne]⟩
  | valueless row => exact ⟨[row], rfl, rfl, by simp [singleRows, insertion],
      by simp [acceptedRows]⟩
  | later row => exact ⟨[row], rfl, rfl, by simp [singleRows, insertion],
      by simp [acceptedRows]⟩

/-- Steps send single inserts for rows that they settle, in their order and once at most, and no
other row is inserted by them. -/
theorem Progress.sublist {rows rest : List (List Value)} {es : List LoadEvent}
    {fates : List Fate} (h : t.Progress rows es fates rest) :
    ∃ settled, rows = settled ++ rest ∧ settled.length = fates.length ∧
      (es.flatMap t.singleRows).Sublist settled ∧ (es.flatMap t.acceptedRows).Sublist settled := by
  induction h with
  | refl => exact ⟨[], rfl, rfl, .slnil, .slnil⟩
  | step hstep _ ih =>
      obtain ⟨first, rfl, hfirst, hsingle, haccepted⟩ := hstep.sublist hstatement
      obtain ⟨later, rfl, hlater, hsingles, hothers⟩ := ih
      refine ⟨first ++ later, (List.append_assoc ..).symm, ?_, ?_, ?_⟩
      · rw [List.length_append, List.length_append, hfirst, hlater]
      · rw [List.flatMap_append]
        exact hsingle.append hsingles
      · rw [List.flatMap_append]
        exact haccepted.append hothers

theorem Stop.sublist {index : Nat} {rows : List (List Value)} {es : List LoadEvent}
    {e : LoadError} (h : t.Stop index rows es e) :
    (es.flatMap t.singleRows).Sublist (rows.take 1) ∧ es.flatMap t.acceptedRows = [] := by
  have hrecorded : ∀ {e : LoadError} {r : Report} {es : List LoadEvent}, Recorded e r es →
      es.flatMap t.singleRows = [] ∧ es.flatMap t.acceptedRows = [] := by
    intro e r es hes
    cases hes <;> exact ⟨rfl, rfl⟩
  cases h with
  | bulk chunk rest e es _ hes =>
      obtain ⟨hsingle, haccepted⟩ := hrecorded hes
      simp [singleRows, acceptedRows, hsingle, haccepted]
  | insert row rest e es _ hes =>
      obtain ⟨hsingle, haccepted⟩ := hrecorded hes
      simp [singleRows, acceptedRows, insertion, hsingle, haccepted]
  | update row rest e e' kv es _ _ _ hes =>
      obtain ⟨hsingle, haccepted⟩ := hrecorded hes
      have hne := compensation_text_ne hstatement kv row
      simp [singleRows, acceptedRows, insertion, hsingle, haccepted, hne]

/-- With an error that names a row, no later row was sent by itself, and neither that row nor a
later one was inserted. -/
theorem Accounts.sublist {rows : List (List Value)} {es : List LoadEvent} {e : LoadError}
    (h : t.Accounts rows es (.error e)) {i : Nat} (hi : e.row = some i) :
    (es.flatMap t.singleRows).Sublist (rows.take (i + 1)) ∧
      (es.flatMap t.acceptedRows).Sublist (rows.take i) := by
  obtain ⟨_, before, ending, fates, rfl, hfates, hprogress, hstop⟩ := h i hi
  obtain ⟨settled, hrows, hlength, hsingle, haccepted⟩ := hprogress.sublist hstatement
  obtain ⟨hlast, hnone⟩ := hstop.sublist hstatement
  have htake : rows.take i = settled := by
    rw [hrows, ← hfates, ← hlength, List.take_left]
  rw [List.flatMap_append, List.flatMap_append, List.take_add, htake, hnone, List.append_nil]
  exact ⟨hsingle.append hlast, haccepted⟩

end

end LoadTask

namespace Loader

/-- The switches stand before and after the rows, whose account they leave as it is. -/
theorem rowPhase_accounts (c : Cursor σ) (t : LoadTask) (b : Batch) (s : Session σ) :
    ∃ before middle after,
      ((rowPhase c t b).run s).events = before ++ middle ++ after ∧
      (∀ event ∈ before ++ after, t.IsFrame event) ∧
      t.Accounts (b.records.map (Batch.row t.statement.columns)) middle
        ((rowPhase c t b).run s).value := by
  have hrows : ∀ row ∈ b.records.map (Batch.row t.statement.columns),
      row.length = t.statement.columns.length := by
    intro row hrow
    obtain ⟨r, _, rfl⟩ := List.mem_map.mp hrow
    exact List.length_map _
  unfold rowPhase
  cases b.identityInsert with
  | false =>
      have haccounts := (LoadTask.insertAll_advances c t _ hrows s).accounts
      exact ⟨[], _, [], (List.append_nil _).symm, by simp, haccounts⟩
  | true =>
      rw [if_pos rfl]
      rcases hanswer : c.execute (t.identityCommand true) s.cursor with ⟨e | n, m⟩
      · obtain ⟨archive, es, hrun, hes⟩ := LoadTask.run_insertWithIdentity_of_error hanswer
          (b.records.map (Batch.row t.statement.columns))
        rw [hrun]
        refine ⟨_, [], [], by rw [List.append_nil, List.append_nil], fun event hevent => ?_,
          fun i hi => nomatch hi⟩
        rw [List.append_nil] at hevent
        rcases List.mem_cons.mp hevent with rfl | hevent
        · exact ⟨true, rfl⟩
        · exact LoadTask.isFrame_of_recorded hes event hevent
      · obtain ⟨ep, hep, hrun⟩ := LoadTask.run_insertWithIdentity_of_ok hanswer
          (b.records.map (Batch.row t.statement.columns))
        rw [hrun]
        have haccounts := (LoadTask.insertAll_advances c t _ hrows { s with cursor := m }).accounts
        rw [← hep] at haccounts
        obtain ⟨houter, hafter⟩ :=
          (LoadTask.run_forbidIdentity c t ep.value ep.session).accounts haccounts
        refine ⟨[.executed (t.identityCommand true) (.ok n)], ep.events, _, rfl,
          fun event hevent => ?_, houter⟩
        rcases List.mem_cons.mp hevent with rfl | hevent
        · exact ⟨true, rfl⟩
        · exact hafter event hevent

/-- The number of rows that count is at most that of the records, so it is given as it is. -/
theorem run_accounts (c : Cursor σ) (t : LoadTask) (b : Batch) (s : Session σ) :
    ∃ before middle after,
      ((run c t b).run s).events = before ++ middle ++ after ∧
      (∀ event ∈ before ++ after, t.IsFrame event) ∧
      t.Accounts (b.records.map (Batch.row t.statement.columns)) middle
        ((run c t b).run s).value := by
  obtain ⟨before, middle, after, hes, hframe, haccounts⟩ := rowPhase_accounts c t b s
  rcases hrun : (rowPhase c t b).run s with ⟨e | n, s', es⟩ <;> rw [hrun] at hes haccounts
  · rw [run_run_of_error hrun]
    exact ⟨before, middle, after, hes, hframe, haccounts⟩
  · obtain ⟨line, hline⟩ := run_run_of_ok hrun
    rw [hline]
    have hmin : min n b.size = n := by
      have hle := haccounts.le_length
      rw [List.length_map] at hle
      exact Nat.min_eq_left hle
    rw [hmin]
    refine ⟨before, middle, after ++ [.line line], ?_, fun event hevent => ?_, haccounts⟩
    · dsimp only at hes ⊢
      rw [hes, List.append_assoc _ after]
    · rw [← List.append_assoc] at hevent
      rcases List.mem_append.mp hevent with hevent | hevent
      · exact hframe event hevent
      · rw [List.mem_singleton.mp hevent]
        trivial

/-- The account of the load of a batch.  Its trace is what the cursor does: the calls in it, put to
the cursor again, get the same answers and lead to the state after the load.  `order` is the order
of the columns in its statement, and the rows are those of the records, with null for a column that
a record lacks. -/
theorem load_accounts (c : Cursor σ) {l : Loader} (hcache : l.cache.Reachable) (b : Batch)
    (s : Session σ) :
    c.replay (l.load c b s).events s.cursor =
        ((l.load c b s).events, (l.load c b s).session.cursor) ∧
      ∃ order before middle after, order.Perm b.columns ∧
        (l.load c b s).events = before ++ middle ++ after ∧
        (∀ event ∈ before ++ after, (l.task b order).IsFrame event) ∧
        (l.task b order).Accounts (b.records.map (Batch.row order)) middle
          (l.load c b s).value.1 ∧
        (∀ n, (l.load c b s).value.1 = .ok n → n ≤ b.size) ∧
        ∀ e i, (l.load c b s).value.1 = .error e → e.row = some i →
          i < b.size ∧
          (middle.flatMap (l.task b order).singleRows).Sublist
            ((b.records.take (i + 1)).map (Batch.row order)) ∧
          (middle.flatMap (l.task b order).acceptedRows).Sublist
            ((b.records.take i).map (Batch.row order)) := by
  refine ⟨load_faithful c l b s, ?_⟩
  cases hempty : b.records.isEmpty with
  | true =>
      have hrecords := List.isEmpty_iff.mp hempty
      rw [load_of_isEmpty c l hempty]
      refine ⟨b.columns, [], [], [], .refl _, rfl, by simp, ?_, ?_, ?_⟩
      · rw [hrecords]
        exact ⟨[], rfl, .refl [], rfl⟩
      · intro n hn
        cases hn
        exact Nat.zero_le _
      · intro e i he
        cases he
  | false =>
      obtain ⟨order, horder, hprepare⟩ := prepare_eq_task hcache b
      rw [load_of_not_isEmpty c l hempty, hprepare]
      obtain ⟨before, middle, after, hes, hframe, haccounts⟩ :=
        run_accounts c (l.task b order) b s
      refine ⟨order, before, middle, after, horder, hes, hframe, haccounts, fun n hn => ?_,
        fun e i he hi => ?_⟩
      · dsimp only at hn
        rw [hn] at haccounts
        have hle := haccounts.le_length
        rwa [List.length_map] at hle
      · dsimp only at he
        rw [he] at haccounts
        have hindex := (haccounts i hi).1
        rw [List.length_map] at hindex
        have hsublist := haccounts.sublist rfl hi
        rw [← List.map_take, ← List.map_take] at hsublist
        exact ⟨hindex, hsublist⟩

def repeatedScore : Batch where
  table := "scores"
  qualifiedTable := "[dbo].[scores]"
  records :=
    [⟨"scores", [("app_id", .int 1), ("score_identifier", .text "a")]⟩,
      ⟨"scores", [("score", .int 7), ("app_id", .int 1), ("score_identifier", .text "a")]⟩]

/-- A database without rows that keeps the keys of the scores apart. -/
def scoreboard : Memory := { primaryKeys := [("[dbo].[scores]", ["app_id", "score_identifier"])] }

/-- The scores are loaded into a database that keeps keys apart. -/
theorem load_accounts_repeatedScore :
    Sql.StatementCache.Reachable {} ∧
      Memory.cursor.replay (Loader.load Memory.cursor {} repeatedScore ⟨scoreboard, none⟩).events
          scoreboard =
        ((Loader.load Memory.cursor {} repeatedScore ⟨scoreboard, none⟩).events,
          (Loader.load Memory.cursor {} repeatedScore ⟨scoreboard, none⟩).session.cursor) ∧
      ∃ order before middle after,
        List.Perm order ["app_id", "score_identifier", "score"] ∧
        (Loader.load Memory.cursor {} repeatedScore ⟨scoreboard, none⟩).events =
          before ++ middle ++ after ∧
        (Loader.task {} repeatedScore order).Accounts
          (repeatedScore.records.map (Batch.row order)) middle
          (Loader.load Memory.cursor {} repeatedScore ⟨scoreboard, none⟩).value.1 := by
  refine ⟨.empty, ?_⟩
  obtain ⟨hreplay, order, before, middle, after, horder, hes, _, haccounts, _⟩ :=
    load_accounts Memory.cursor (l := {}) Sql.StatementCache.Reachable.empty repeatedScore
      ⟨scoreboard, none⟩
  exact ⟨hreplay, order, before, middle, after, horder.trans (by decide), hes, haccounts⟩

end Loader

end RowContract
