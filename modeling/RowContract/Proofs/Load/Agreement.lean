import RowContract.Proofs.Load.Reporting

/-!
Runs with different cursors.  What a step of a load does next depends on the answers that it has had
so far, and on nothing else that the cursor does.  So two runs can be compared call by call, up to
the first call that is answered differently; from there on they may go different ways.
-/

namespace RowContract

open LoadEvent

variable {σ σ' α β : Type}

/-- What a call is answered with; a change of the way to bind rows has no answer. -/
def LoadEvent.answer? : LoadEvent → Option (Except DbError Nat ⊕ Except DbError Unit)
  | .executed _ answer => some (.inl answer)
  | .executedMany _ _ answer => some (.inr answer)
  | _ => none

/-- The calls of two runs correspond as long as they are answered in the same way.  If all are, both
runs come to their end together, and the outcome is as stated. -/
inductive Agree (P : LoadEvent → LoadEvent → Prop) (outcome : Prop) :
    List LoadEvent → List LoadEvent → Prop where
  | done (h : outcome) : Agree P outcome [] []
  | call {e e' : LoadEvent} {es es' : List LoadEvent} (h : P e e')
      (hrest : e.answer? = e'.answer? → Agree P outcome es es') :
      Agree P outcome (e :: es) (e' :: es')

namespace Agree

variable {P Q : LoadEvent → LoadEvent → Prop} {outcome next : Prop}
  {es es' more more' : List LoadEvent}

theorem bind (h : Agree P outcome es es') (hmore : outcome → Agree P next more more') :
    Agree P next (es ++ more) (es' ++ more') := by
  induction h with
  | done houtcome => exact hmore houtcome
  | call hcall _ ih => exact .call hcall ih

theorem imp (h : Agree P outcome es es') (hnext : outcome → next) : Agree P next es es' := by
  induction h with
  | done houtcome => exact .done (hnext houtcome)
  | call hcall _ ih => exact .call hcall ih

theorem mono (h : Agree P outcome es es') (hcalls : ∀ e e', P e e' → Q e e') :
    Agree Q outcome es es' := by
  induction h with
  | done houtcome => exact .done houtcome
  | call hcall _ ih => exact .call (hcalls _ _ hcall) ih

/-- A run does not part from itself. -/
theorem forall_self (h : Agree P outcome es es) : ∀ e ∈ es, P e e := by
  induction es with
  | nil => exact List.forall_mem_nil _
  | cons e es ih =>
      cases h with
      | call hcall hrest => exact List.forall_mem_cons.mpr ⟨hcall, ih (hrest rfl)⟩

end Agree

/-- However two computations are started, their runs agree and give the same. -/
def Work.Agrees (P : LoadEvent → LoadEvent → Prop) (x : Work σ α) (y : Work σ' α) : Prop :=
  ∀ s s', Agree P ((x s).value = (y s').value) (calls (x s).events) (calls (y s').events)

namespace Work.Agrees

variable {P : LoadEvent → LoadEvent → Prop}

theorem pure (a : α) : Agrees P (Pure.pure a : Work σ α) (Pure.pure a : Work σ' α) :=
  fun _ _ => .done rfl

theorem bind {x : Work σ α} {y : Work σ' α} {f : α → Work σ β} {g : α → Work σ' β}
    (hx : Agrees P x y) (hf : ∀ a, Agrees P (f a) (g a)) : Agrees P (x >>= f) (y >>= g) := by
  intro s s'
  simp only [bind_run, calls_append]
  refine (hx s s').bind fun hvalue => ?_
  rw [hvalue]
  exact hf _ _ _

theorem log (e : LogEntry) : Agrees P (Work.log e : Work σ Unit) (Work.log e : Work σ' Unit) :=
  fun _ _ => .done rfl

theorem setFast (c : Cursor σ) (c' : Cursor σ') (on : Bool) (h : P (.fast on) (.fast on)) :
    Agrees P (Work.setFast c on) (Work.setFast c' on) :=
  fun _ _ => .call h fun _ => .done rfl

theorem execute (c : Cursor σ) (c' : Cursor σ') {command command' : Sql.Command}
    (h : ∀ answer answer', P (.executed command answer) (.executed command' answer')) :
    Agrees P (Work.execute c command) (Work.execute c' command') :=
  fun _ _ => .call (h _ _) fun hanswer => .done (Sum.inl.inj (Option.some.inj hanswer))

theorem executeMany (c : Cursor σ) (c' : Cursor σ') {text text' : String}
    {rows rows' : List (List Value)}
    (h : ∀ answer answer', P (.executedMany text rows answer) (.executedMany text' rows' answer')) :
    Agrees P (Work.executeMany c text rows) (Work.executeMany c' text' rows') :=
  fun _ _ => .call (h _ _) fun hanswer => .done (Sum.inr.inj (Option.some.inj hanswer))

end Work.Agrees

/-- However two steps of a load are started, their runs agree and give the same. -/
def Loading.Agrees (P : LoadEvent → LoadEvent → Prop) (x : Loading σ α) (y : Loading σ' α) : Prop :=
  Work.Agrees P x.run y.run

namespace Loading.Agrees

variable {P : LoadEvent → LoadEvent → Prop}

theorem pure (a : α) : Agrees P (Pure.pure a : Loading σ α) (Pure.pure a : Loading σ' α) :=
  Work.Agrees.pure _

theorem throw (e : LoadError) :
    Agrees P (MonadExcept.throw e : Loading σ α) (MonadExcept.throw e : Loading σ' α) :=
  Work.Agrees.pure _

theorem bind {x : Loading σ α} {y : Loading σ' α} {f : α → Loading σ β} {g : α → Loading σ' β}
    (hx : Agrees P x y) (hf : ∀ a, Agrees P (f a) (g a)) : Agrees P (x >>= f) (y >>= g) := by
  unfold Agrees
  rw [ExceptT.run_bind, ExceptT.run_bind]
  refine Work.Agrees.bind hx fun result => ?_
  cases result with
  | ok a => exact hf a
  | error e => exact .pure _

theorem lift_bind {x : Work σ α} {y : Work σ' α} {f : α → Loading σ β} {g : α → Loading σ' β}
    (hx : Work.Agrees P x y) (hf : ∀ a, Agrees P (f a) (g a)) :
    Agrees P (ExceptT.lift x >>= f) (ExceptT.lift y >>= g) := by
  unfold Agrees
  rw [run_lift_bind_eq, run_lift_bind_eq]
  exact hx.bind hf

theorem ite {p : Prop} [Decidable p] {x x' : Loading σ α} {y y' : Loading σ' α}
    (hthen : Agrees P x y) (helse : Agrees P x' y') :
    Agrees P (if p then x else x') (if p then y else y') := by
  by_cases h : p
  · rw [if_pos h, if_pos h]
    exact hthen
  · rw [if_neg h, if_neg h]
    exact helse

/-- A failure asks nothing of the cursor, whatever is kept of it. -/
theorem fail {t t' : LoadTask} {e : LoadError} {text text' : String}
    {columns columns' : List String} {rows rows' : List (List Value)} :
    Agrees P (t.fail e text columns rows : Loading σ α)
      (t'.fail e text' columns' rows' : Loading σ' α) := by
  intro s s'
  obtain ⟨_, _, hrun, hes⟩ := t.run_fail α e text columns rows s
  obtain ⟨_, _, hrun', hes'⟩ := t'.run_fail α e text' columns' rows' s'
  rw [hrun, hrun', hes.calls_eq_nil, hes'.calls_eq_nil]
  exact .done rfl

end Loading.Agrees

end RowContract
