import RowContract.Proofs.Load.Steps

/-!
Traces against the cursor.  The calls in the trace of a run are put to the cursor again,
one after the other, from the state in which the run started: the cursor gives the
recorded answers, and comes to the state in which the run ended.  So what is proved of
the trace of a load is proved of what was asked of the cursor.
-/

namespace RowContract

variable {σ α β : Type}

namespace Cursor

/-- Put the call of an event to the cursor again: the event with the answer of this time, and the
state after it.  What is no call is left as it is. -/
def redo (c : Cursor σ) : LoadEvent → σ → LoadEvent × σ
  | .fast on, m => (.fast on, c.setFast on m)
  | .executed command _, m => (c.execute command m).map (.executed command) id
  | .executedMany text rows _, m => (c.executeMany text rows m).map (.executedMany text rows) id
  | .line e, m => (.line e, m)
  | .saved d, m => (.saved d, m)

/-- Put all calls of a trace to the cursor again. -/
def replay (c : Cursor σ) : List LoadEvent → σ → List LoadEvent × σ
  | [], m => ([], m)
  | e :: es, m =>
    let (again, m) := c.redo e m
    let (more, m) := c.replay es m
    (again :: more, m)

theorem replay_append (c : Cursor σ) (es more : List LoadEvent) (m : σ) :
    c.replay (es ++ more) m =
      ((c.replay es m).1 ++ (c.replay more (c.replay es m).2).1,
        (c.replay more (c.replay es m).2).2) := by
  induction es generalizing m with
  | nil => rfl
  | cons e es ih => simp only [List.cons_append, replay, ih]

end Cursor

/-- The trace of a failure that is recorded has no call in it. -/
theorem Recorded.replay_eq {e : LoadError} {r : Report} {es : List LoadEvent}
    (h : Recorded e r es) (c : Cursor σ) (m : σ) : c.replay es m = (es, m) := by
  cases h <;> rfl

/-- A computation whose trace is what the cursor does: played again, it gives the recorded answers
and the state after the run. -/
def Work.Faithful (c : Cursor σ) (x : Work σ α) : Prop :=
  ∀ s, c.replay (x s).events s.cursor = ((x s).events, (x s).session.cursor)

namespace Work.Faithful

variable {c : Cursor σ}

theorem pure (a : α) : Faithful c (Pure.pure a : Work σ α) := fun _ => rfl

theorem bind {x : Work σ α} {f : α → Work σ β} (hx : Faithful c x) (hf : ∀ a, Faithful c (f a)) :
    Faithful c (x >>= f) := by
  intro s
  rw [bind_run, Cursor.replay_append, hx, hf]

theorem log (e : LogEntry) : Faithful c (Work.log e) := fun _ => rfl

theorem setFast (on : Bool) : Faithful c (Work.setFast c on) := fun _ => rfl

theorem execute (command : Sql.Command) : Faithful c (Work.execute c command) := fun _ => rfl

theorem executeMany (text : String) (rows : List (List Value)) :
    Faithful c (Work.executeMany c text rows) := fun _ => rfl

end Work.Faithful

/-- A step of a load whose trace is what the cursor does, whether or not it fails. -/
def Loading.Faithful (c : Cursor σ) (x : Loading σ α) : Prop := Work.Faithful c x.run

namespace Loading.Faithful

variable {c : Cursor σ}

theorem pure (a : α) : Faithful c (Pure.pure a : Loading σ α) := Work.Faithful.pure _

theorem throw (e : LoadError) : Faithful c (MonadExcept.throw e : Loading σ α) :=
  Work.Faithful.pure _

theorem bind {x : Loading σ α} {f : α → Loading σ β} (hx : Faithful c x)
    (hf : ∀ a, Faithful c (f a)) : Faithful c (x >>= f) := by
  unfold Faithful
  rw [ExceptT.run_bind]
  refine Work.Faithful.bind hx fun result => ?_
  cases result with
  | ok a => exact hf a
  | error e => exact .pure _

theorem lift_bind {x : Work σ α} {f : α → Loading σ β} (hx : Work.Faithful c x)
    (hf : ∀ a, Faithful c (f a)) : Faithful c (ExceptT.lift x >>= f) := by
  unfold Faithful
  rw [run_lift_bind_eq]
  exact hx.bind hf

/-- A failure asks nothing of the cursor. -/
theorem fail {t : LoadTask} {e : LoadError} {text : String} {columns : List String}
    {rows : List (List Value)} : Faithful c (t.fail e text columns rows : Loading σ α) := by
  intro s
  obtain ⟨archive, es, hrun, hes⟩ := t.run_fail α e text columns rows s
  rw [hrun]
  exact hes.replay_eq c s.cursor

end Loading.Faithful

/-! ### The steps of a load -/

namespace LoadTask

open Loading

section
variable (c : Cursor σ) (t : LoadTask)

theorem update_faithful (kv : KeyValueTable) (index : Nat) (row : List Value) :
    Faithful c (t.update c kv index row) := by
  unfold update
  dsimp only
  split
  · exact .lift_bind (.log _) fun _ => .pure 0
  · refine .lift_bind (.execute _) fun answer => ?_
    cases answer with
    | ok affected => exact .pure _
    | error e => exact .fail

theorem settle_faithful (index : Nat) (row : List Value) (e : DbError) :
    Faithful c (t.settle c index row e) := by
  unfold settle
  dsimp only
  split
  · split
    · exact update_faithful c t _ index row
    · split
      · exact .lift_bind (.log _) fun _ => .pure 0
      · exact .fail
  · exact .fail

theorem insertRow_faithful (index : Nat) (row : List Value) :
    Faithful c (t.insertRow c index row) := by
  unfold insertRow
  refine .lift_bind (.execute _) fun answer => ?_
  cases answer with
  | ok n => exact .pure 1
  | error e => exact settle_faithful c t index row e

theorem insertRows_faithful (index : Nat) (rows : List (List Value)) :
    Faithful c (t.insertRows c index rows) := by
  induction rows generalizing index with
  | nil => exact .pure 0
  | cons row rest ih =>
      unfold insertRows
      exact .bind (insertRow_faithful c t index row) fun _ => .bind (ih _) fun _ => .pure _

theorem insertSlowly_faithful (index : Nat) (chunk : List (List Value)) :
    Faithful c (t.insertSlowly c index chunk) := by
  unfold insertSlowly
  exact .lift_bind (.setFast false) fun _ => insertRows_faithful c t index chunk

theorem insertFast_faithful (index : Nat) (chunk : List (List Value)) :
    Faithful c (t.insertFast c index chunk) := by
  unfold insertFast
  refine .lift_bind (.setFast true) fun _ => .lift_bind (.executeMany _ _) fun answer => ?_
  cases answer with
  | ok => exact .pure _
  | error e =>
      dsimp only
      split
      · exact .lift_bind (.log _) fun _ => insertSlowly_faithful c t index chunk
      · exact .fail

theorem insertChunk_faithful (index : Nat) (chunk : List (List Value)) :
    Faithful c (t.insertChunk c index chunk) := by
  unfold insertChunk
  split
  · exact insertFast_faithful c t index chunk
  · exact insertSlowly_faithful c t index chunk

theorem insertChunks_faithful (index : Nat) (parts : List (List (List Value))) :
    Faithful c (t.insertChunks c index parts) := by
  induction parts generalizing index with
  | nil => exact .pure 0
  | cons chunk rest ih =>
      unfold insertChunks
      exact .bind (insertChunk_faithful c t index chunk) fun _ => .bind (ih _) fun _ => .pure _

theorem insertAll_faithful (rows : List (List Value)) : Faithful c (t.insertAll c rows) :=
  insertChunks_faithful c t 0 _

theorem allowIdentity_faithful : Faithful c (t.allowIdentity c) := by
  unfold allowIdentity
  refine .lift_bind (.execute _) fun answer => ?_
  cases answer with
  | ok n => exact .pure ()
  | error e => exact .fail

theorem forbidIdentity_faithful (result : Except LoadError Nat) :
    Faithful c (t.forbidIdentity c result) := by
  unfold forbidIdentity
  refine .lift_bind (.execute _) fun answer => ?_
  cases answer with
  | ok n => exact Work.Faithful.pure result
  | error e =>
      cases result with
      | ok applied => exact .fail
      | error failure => exact .lift_bind (.log _) fun _ => .throw failure

theorem insertWithIdentity_faithful (rows : List (List Value)) :
    Faithful c (t.insertWithIdentity c rows) := by
  unfold insertWithIdentity
  exact .bind (allowIdentity_faithful c t) fun _ =>
    .lift_bind (insertAll_faithful c t rows) (forbidIdentity_faithful c t)

end

end LoadTask

/-! ### Whole loads -/

namespace Loader

theorem run_faithful (c : Cursor σ) (t : LoadTask) (b : Batch) :
    Loading.Faithful c (run c t b) := by
  rw [run_eq_rowPhase_bind]
  refine .bind ?_ fun applied => .lift_bind (.log _) fun _ => .pure _
  unfold rowPhase
  split
  · exact LoadTask.insertWithIdentity_faithful c t _
  · exact LoadTask.insertAll_faithful c t _

/-- The trace of the load of a batch is what the cursor does. -/
theorem load_faithful (c : Cursor σ) (l : Loader) (b : Batch) : Work.Faithful c (l.load c b) := by
  unfold load
  split
  · exact .pure _
  · exact .bind (run_faithful c _ b) fun _ => .pure _

theorem loadEach_faithful (c : Cursor σ) (l : Loader) (loads : List (LoaderSettings × Batch)) :
    Work.Faithful c (l.loadEach c loads) := by
  induction loads generalizing l with
  | nil => exact .pure _
  | cons first rest ih =>
      unfold loadEach
      exact .bind (load_faithful c _ first.2) fun _ => .bind (ih _) fun _ => .pure _

end Loader

end RowContract
