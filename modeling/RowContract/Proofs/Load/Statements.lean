import RowContract.Proofs.Batch
import RowContract.Proofs.Load.Agreement

/-!
The statements of a loader.  A loader keeps its statements from load to load, and a statement keeps
the order of columns that it was first made with.  Nothing more of the loads before shows in a load:
it inserts the columns of its batch in one order or another, each with the values of the records,
and goes otherwise as with a loader that has kept nothing.
-/

namespace RowContract

open LoadEvent

variable {σ σ' : Type}

theorem chunks_map {α β : Type} (f : α → β) (size : Nat) (xs : List α) :
    chunks size (xs.map f) = (chunks size xs).map (List.map f) := by
  induction xs using chunks.induct size with
  | case1 => simp [chunks]
  | case2 a rest ih =>
      rw [List.map_cons, chunks, chunks, ← List.map_take, ← List.map_drop, ih]
      rfl

/-! ### Two orders of the columns -/

/-- What two loads of a batch send, call by call, if their statements have its columns in two
orders. -/
inductive Batch.Sends (b : Batch) (order order' : List String) : LoadEvent → LoadEvent → Prop where
  | fast (on : Bool) : Sends b order order' (.fast on) (.fast on)
  | switch (on : Bool) (answer answer' : Except DbError Nat) :
      Sends b order order' (.executed ⟨Sql.identityInsertText b.qualifiedTable on, []⟩ answer)
        (.executed ⟨Sql.identityInsertText b.qualifiedTable on, []⟩ answer')
  | insert {r : Record} (hr : r ∈ b.records) (answer answer' : Except DbError Nat) :
      Sends b order order'
        (.executed ⟨Sql.insertText b.qualifiedTable order, Batch.row order r⟩ answer)
        (.executed ⟨Sql.insertText b.qualifiedTable order', Batch.row order' r⟩ answer')
  | inserts {records : List Record} (hrecords : records <:+: b.records)
      (answer answer' : Except DbError Unit) :
      Sends b order order'
        (.executedMany (Sql.insertText b.qualifiedTable order) (records.map (Batch.row order))
          answer)
        (.executedMany (Sql.insertText b.qualifiedTable order') (records.map (Batch.row order'))
          answer')
  | update (values keys : List (String × Value)) (answer answer' : Except DbError Nat) :
      Sends b order order' (.executed (Sql.updateCommand b.qualifiedTable values keys) answer)
        (.executed (Sql.updateCommand b.qualifiedTable values keys) answer')

namespace LoadTask

open Loading

variable {order order' : List String} (l : Loader) (b : Batch)

theorem allowIdentity_agrees (c : Cursor σ) (c' : Cursor σ') :
    Agrees (b.Sends order order') ((l.task b order).allowIdentity c)
      ((l.task b order').allowIdentity c') := by
  unfold allowIdentity
  refine .lift_bind (.execute c c' fun _ _ => .switch true _ _) fun answer => ?_
  cases answer with
  | ok n => exact .pure ()
  | error e => exact .fail

theorem forbidIdentity_agrees (c : Cursor σ) (c' : Cursor σ') (result : Except LoadError Nat) :
    Agrees (b.Sends order order') ((l.task b order).forbidIdentity c result)
      ((l.task b order').forbidIdentity c' result) := by
  unfold forbidIdentity
  refine .lift_bind (.execute c c' fun _ _ => .switch false _ _) fun answer => ?_
  cases answer with
  | ok n => exact Work.Agrees.pure result
  | error e =>
      cases result with
      | ok applied => exact .fail
      | error failure => exact .lift_bind (.log _) fun _ => .throw failure

section
variable (h : order.Perm order')
include h

/-- In either order the row of a record has the same value for a column. -/
theorem valueOf?_congr (r : Record) :
    (l.task b order).valueOf? (Batch.row order r) =
      (l.task b order').valueOf? (Batch.row order' r) := by
  have hcolumns (order : List String) : (l.task b order).statement.columns = order := rfl
  funext column
  rw [valueOf?_row (hcolumns order), valueOf?_row (hcolumns order')]
  simp only [h.mem_iff]

/-- So the update that takes the place of an insert is the same. -/
theorem update_agrees (c : Cursor σ) (c' : Cursor σ') (kv : KeyValueTable) (index : Nat)
    (r : Record) :
    Agrees (b.Sends order order') ((l.task b order).update c kv index (Batch.row order r))
      ((l.task b order').update c' kv index (Batch.row order' r)) := by
  have hvalues : (l.task b order).updateValues kv (Batch.row order r) =
      (l.task b order').updateValues kv (Batch.row order' r) := by
    rw [updateValues, updateValues, valueOf?_congr l b h]
  have hkeys : (l.task b order).updateKeys kv (Batch.row order r) =
      (l.task b order').updateKeys kv (Batch.row order' r) := by
    rw [updateKeys, updateKeys, valueOf?_congr l b h]
  unfold update
  rw [hvalues, hkeys]
  refine .ite (.lift_bind (.log _) fun _ => .pure 0) ?_
  refine .lift_bind (.execute c c' fun _ _ => .update _ _ _ _) fun answer => ?_
  cases answer with
  | ok affected => exact .pure _
  | error e => exact .fail

theorem settle_agrees (c : Cursor σ) (c' : Cursor σ') (index : Nat) (r : Record) (e : DbError) :
    Agrees (b.Sends order order') ((l.task b order).settle c index (Batch.row order r) e)
      ((l.task b order').settle c' index (Batch.row order' r) e) := by
  unfold settle
  refine .ite ?_ .fail
  dsimp only [Loader.task]
  cases l.settings.keyValueTable? b.table with
  | some kv => exact update_agrees l b h c c' kv index r
  | none => exact .ite (.lift_bind (.log _) fun _ => .pure 0) .fail

theorem insertRow_agrees (c : Cursor σ) (c' : Cursor σ') (index : Nat) {r : Record}
    (hr : r ∈ b.records) :
    Agrees (b.Sends order order') ((l.task b order).insertRow c index (Batch.row order r))
      ((l.task b order').insertRow c' index (Batch.row order' r)) := by
  unfold insertRow
  refine .lift_bind (.execute c c' fun _ _ => .insert hr _ _) fun answer => ?_
  cases answer with
  | ok n => exact .pure 1
  | error e => exact settle_agrees l b h c c' index r e

theorem insertRows_agrees (c : Cursor σ) (c' : Cursor σ') (index : Nat) {records : List Record}
    (hrecords : ∀ r ∈ records, r ∈ b.records) :
    Agrees (b.Sends order order')
      ((l.task b order).insertRows c index (records.map (Batch.row order)))
      ((l.task b order').insertRows c' index (records.map (Batch.row order'))) := by
  induction records generalizing index with
  | nil => exact .pure 0
  | cons r rest ih =>
      obtain ⟨hr, hrest⟩ := List.forall_mem_cons.mp hrecords
      simp only [List.map_cons, insertRows]
      exact .bind (insertRow_agrees l b h c c' index hr) fun _ =>
        .bind (ih (index + 1) hrest) fun _ => .pure _

theorem insertSlowly_agrees (c : Cursor σ) (c' : Cursor σ') (index : Nat) {records : List Record}
    (hrecords : records <:+: b.records) :
    Agrees (b.Sends order order')
      ((l.task b order).insertSlowly c index (records.map (Batch.row order)))
      ((l.task b order').insertSlowly c' index (records.map (Batch.row order'))) :=
  .lift_bind (.setFast c c' false (.fast false)) fun _ =>
    insertRows_agrees l b h c c' index fun _ hr => hrecords.subset hr

theorem insertFast_agrees (c : Cursor σ) (c' : Cursor σ') (index : Nat) {records : List Record}
    (hrecords : records <:+: b.records) :
    Agrees (b.Sends order order')
      ((l.task b order).insertFast c index (records.map (Batch.row order)))
      ((l.task b order').insertFast c' index (records.map (Batch.row order'))) := by
  unfold insertFast
  refine .lift_bind (.setFast c c' true (.fast true)) fun _ =>
    .lift_bind (.executeMany c c' fun _ _ => .inserts hrecords _ _) fun answer => ?_
  rw [List.length_map, List.length_map]
  cases answer with
  | ok _ => exact .pure _
  | error e =>
      exact .ite (.lift_bind (.log _) fun _ => insertSlowly_agrees l b h c c' index hrecords) .fail

theorem insertChunk_agrees (c : Cursor σ) (c' : Cursor σ') (index : Nat) {records : List Record}
    (hrecords : records <:+: b.records) :
    Agrees (b.Sends order order')
      ((l.task b order).insertChunk c index (records.map (Batch.row order)))
      ((l.task b order').insertChunk c' index (records.map (Batch.row order'))) := by
  unfold insertChunk
  rw [List.length_map, List.length_map]
  exact .ite (insertFast_agrees l b h c c' index hrecords)
    (insertSlowly_agrees l b h c c' index hrecords)

theorem insertChunks_agrees (c : Cursor σ) (c' : Cursor σ') (index : Nat)
    {parts : List (List Record)} (hparts : ∀ records ∈ parts, records <:+: b.records) :
    Agrees (b.Sends order order')
      ((l.task b order).insertChunks c index (parts.map (List.map (Batch.row order))))
      ((l.task b order').insertChunks c' index (parts.map (List.map (Batch.row order')))) := by
  induction parts generalizing index with
  | nil => exact .pure 0
  | cons records rest ih =>
      obtain ⟨hrecords, hrest⟩ := List.forall_mem_cons.mp hparts
      simp only [List.map_cons, insertChunks, List.length_map]
      exact .bind (insertChunk_agrees l b h c c' index hrecords) fun _ =>
        .bind (ih _ hrest) fun _ => .pure _

theorem insertAll_agrees (c : Cursor σ) (c' : Cursor σ') :
    Agrees (b.Sends order order')
      ((l.task b order).insertAll c (b.records.map (Batch.row order)))
      ((l.task b order').insertAll c' (b.records.map (Batch.row order'))) := by
  unfold insertAll
  rw [chunks_map, chunks_map]
  refine insertChunks_agrees l b h c c' 0 fun records hrecords => ?_
  have hflatten := flatten_chunks l.settings.chunkSize b.records
  exact hflatten ▸ List.infix_of_mem_flatten hrecords

theorem insertWithIdentity_agrees (c : Cursor σ) (c' : Cursor σ') :
    Agrees (b.Sends order order')
      ((l.task b order).insertWithIdentity c (b.records.map (Batch.row order)))
      ((l.task b order').insertWithIdentity c' (b.records.map (Batch.row order'))) :=
  .bind (allowIdentity_agrees l b c c') fun _ =>
    .lift_bind (insertAll_agrees l b h c c') fun result => forbidIdentity_agrees l b c c' result

end

end LoadTask

/-! ### Whole loads -/

/-- Two calls for the same, or inserts into one table that give its columns the same values, row by
row; the columns may be in different orders. -/
inductive LoadEvent.SameAssignments : LoadEvent → LoadEvent → Prop where
  | fast (on : Bool) : SameAssignments (.fast on) (.fast on)
  | same (command : Sql.Command) (answer answer' : Except DbError Nat) :
      SameAssignments (.executed command answer) (.executed command answer')
  | insert {table : String} {order order' : List String} {row row' : List Value}
      (h : (order.zip row).Perm (order'.zip row')) (answer answer' : Except DbError Nat) :
      SameAssignments (.executed ⟨Sql.insertText table order, row⟩ answer)
        (.executed ⟨Sql.insertText table order', row'⟩ answer')
  | inserts {table : String} {order order' : List String} {rows rows' : List (List Value)}
      (h : List.Forall₂ (fun row row' => (order.zip row).Perm (order'.zip row')) rows rows')
      (answer answer' : Except DbError Unit) :
      SameAssignments (.executedMany (Sql.insertText table order) rows answer)
        (.executedMany (Sql.insertText table order') rows' answer')

def LoadEvent.sendsInsert (e : LoadEvent) : Bool :=
  e.statement?.any fun text => "INSERT ".toList.isPrefixOf text.toList

/-- The call inserts a record of a batch or several that follow each other, with the columns in an
order. -/
def LoadEvent.Inserts (b : Batch) (order : List String) : LoadEvent → Prop
  | .executed command _ =>
    ∃ r ∈ b.records, command = ⟨Sql.insertText b.qualifiedTable order, Batch.row order r⟩
  | .executedMany text rows _ =>
    text = Sql.insertText b.qualifiedTable order ∧
      ∃ records, records <:+: b.records ∧ rows = records.map (Batch.row order)
  | _ => False

namespace Batch

theorem zip_row (order : List String) (r : Record) :
    order.zip (row order r) = order.map fun column => (column, r.getOrNull column) :=
  List.map_prod_left_eq_zip.symm

namespace Sends

variable {b : Batch} {order order' : List String} {e e' : LoadEvent}

theorem sameAssignments (h : order.Perm order') (hsends : b.Sends order order' e e') :
    e.SameAssignments e' := by
  have hrow (r : Record) : (order.zip (row order r)).Perm (order'.zip (row order' r)) := by
    rw [zip_row, zip_row]
    exact h.map _
  cases hsends with
  | fast on => exact .fast on
  | switch on answer answer' => exact .same _ answer answer'
  | insert _ answer answer' => exact .insert (hrow _) answer answer'
  | inserts _ answer answer' =>
      refine .inserts ?_ answer answer'
      rw [List.forall₂_map_left_iff, List.forall₂_map_right_iff, List.forall₂_same]
      exact fun r _ => hrow r
  | update values keys answer answer' => exact .same _ answer answer'

/-- Neither a switch nor an update begins like an insert. -/
theorem inserts_of_sendsInsert (hsends : b.Sends order order' e e')
    (hinsert : e.sendsInsert = true) : e.Inserts b order := by
  cases hsends with
  | fast on => cases hinsert
  | switch on answer answer' =>
      change "INSERT ".toList.isPrefixOf (Sql.identityInsertText _ on).toList = true at hinsert
      rw [Sql.toList_identityInsertText] at hinsert
      cases hinsert
  | insert hr answer answer' => exact ⟨_, hr, rfl⟩
  | inserts hrecords answer answer' => exact ⟨rfl, _, hrecords, rfl⟩
  | update values keys answer answer' =>
      change "INSERT ".toList.isPrefixOf (Sql.updateCommand _ values keys).text.toList = true
        at hinsert
      rw [Sql.toList_updateCommand] at hinsert
      cases hinsert

end Sends

end Batch

namespace Loader

open LoadTask

theorem run_agrees {order order' : List String} (h : order.Perm order') (l : Loader) (b : Batch)
    (c : Cursor σ) (c' : Cursor σ') :
    Loading.Agrees (b.Sends order order') (run c (l.task b order) b)
      (run c' (l.task b order') b) := by
  rw [run_eq_rowPhase_bind, run_eq_rowPhase_bind]
  refine .bind ?_ fun applied => .lift_bind (.log _) fun _ => .pure _
  exact .ite (insertWithIdentity_agrees l b h c c') (insertAll_agrees l b h c c')

/-- Two loaders with the same settings, whatever statements they keep. -/
theorem load_sends {l l' : Loader} (hsettings : l.settings = l'.settings) {b : Batch}
    {order order' : List String} (h : order.Perm order')
    (htask : (l.prepare b).1 = l.task b order) (htask' : (l'.prepare b).1 = l'.task b order')
    (c : Cursor σ) (c' : Cursor σ') (s : Session σ) (s' : Session σ') :
    Agree (b.Sends order order') ((l.load c b s).value.1 = (l'.load c' b s').value.1)
      (calls (l.load c b s).events) (calls (l'.load c' b s').events) := by
  have hsame : l'.task b order' = l.task b order' := by
    rw [task, task, hsettings]
  cases hempty : b.records.isEmpty with
  | true =>
      rw [load_of_isEmpty c l hempty, load_of_isEmpty c' l' hempty]
      exact .done rfl
  | false =>
      rw [load_of_not_isEmpty c l hempty, load_of_not_isEmpty c' l' hempty, htask, htask', hsame]
      exact run_agrees h l b c c' s s'

theorem prepare_eq_columns (settings : LoaderSettings) (b : Batch) :
    (prepare { settings := settings } b).1 = task { settings := settings } b b.columns := by
  unfold prepare
  rw [Sql.StatementCache.statement_of_none rfl]
  rfl

theorem reachable_loadEach (c : Cursor σ) {l : Loader} (hcache : l.cache.Reachable)
    (loads : List (LoaderSettings × Batch)) (s : Session σ) :
    (l.loadEach c loads s).value.2.cache.Reachable := by
  induction loads generalizing l s with
  | nil => exact hcache
  | cons first rest ih =>
      obtain ⟨settings, b⟩ := first
      rw [loadEach_cons c l settings b rest rfl]
      exact ih (reachable_load c (l := { l with settings := settings }) hcache b s) _

/-- Load batches one after the other, each with a loader of its own. -/
def loadEachAnew (c : Cursor σ) :
    List (LoaderSettings × Batch) → Work σ (List (Except LoadError Nat))
  | [] => pure []
  | (settings, b) :: rest => do
    let (result, _) ← load c { settings := settings } b
    let results ← loadEachAnew c rest
    return result :: results

theorem loadEachAnew_cons (c : Cursor σ) (settings : LoaderSettings) (b : Batch)
    (rest : List (LoaderSettings × Batch)) {s s' : Session σ} {result : Except LoadError Nat}
    {l' : Loader} {es : List LoadEvent}
    (h : load c { settings := settings } b s = ⟨(result, l'), s', es⟩) :
    loadEachAnew c ((settings, b) :: rest) s =
      ⟨result :: (loadEachAnew c rest s').value, (loadEachAnew c rest s').session,
        es ++ (loadEachAnew c rest s').events⟩ := by
  rw [loadEachAnew, Work.bind_run, h]
  dsimp only
  rw [Work.bind_run, Work.pure_run, List.append_nil]

/-- The load of a batch does not show what the loader has loaded before: it inserts the records with
the columns of the batch in one order, and assigns what a loader with the same settings that has
kept nothing assigns, as long as the two are answered alike. -/
structure LoadsAnew (c : Cursor σ) (l : Loader) (b : Batch) (s : Session σ) : Prop where
  inserts : ∃ order, order.Perm b.columns ∧
    ∀ call ∈ calls (l.load c b s).events, call.sendsInsert = true → call.Inserts b order
  anew : ∀ (σ' : Type) (c' : Cursor σ') (s' : Session σ'),
    Agree SameAssignments
      ((l.load c b s).value.1 = (load c' { settings := l.settings } b s').value.1)
      (calls (l.load c b s).events) (calls (load c' { settings := l.settings } b s').events)

theorem loadsAnew (c : Cursor σ) {l : Loader} (hcache : l.cache.Reachable) (b : Batch)
    (s : Session σ) : LoadsAnew c l b s := by
  obtain ⟨order, horder, htask⟩ := prepare_eq_task hcache b
  refine ⟨⟨order, horder, fun call hcall => ?_⟩, fun σ' c' s' => ?_⟩
  · -- A run agrees with itself to its end, so this tells what each of its calls is.
    have hself := load_sends rfl (List.Perm.refl order) htask htask c c s s
    exact (hself.forall_self call hcall).inserts_of_sendsInsert
  · have hsettings : l.settings = ({ settings := l.settings } : Loader).settings := rfl
    have hanew := load_sends hsettings horder htask (prepare_eq_columns l.settings b) c c' s s'
    exact hanew.mono fun _ _ => Batch.Sends.sameAssignments horder

theorem loadEach_agrees_loadEachAnew (c : Cursor σ) (c' : Cursor σ') {l : Loader}
    (hcache : l.cache.Reachable) (loads : List (LoaderSettings × Batch)) (s : Session σ)
    (s' : Session σ') :
    Agree SameAssignments ((l.loadEach c loads s).value.1 = (loadEachAnew c' loads s').value)
      (calls (l.loadEach c loads s).events) (calls (loadEachAnew c' loads s').events) := by
  induction loads generalizing l s s' with
  | nil => exact .done rfl
  | cons first rest ih =>
      -- The later loads agree only where the first was answered alike, and so gave the same.
      obtain ⟨settings, b⟩ := first
      have hfirst := (loadsAnew c (l := { l with settings := settings }) hcache b s).anew σ' c' s'
      have hnext := reachable_load c (l := { l with settings := settings }) hcache b s
      rcases hload : load c { l with settings := settings } b s with ⟨⟨result, l₁⟩, s₁, es⟩
      rcases hanew : load c' { settings := settings } b s' with ⟨⟨result', l₁'⟩, s₁', es'⟩
      rw [hload, hanew] at hfirst
      rw [hload] at hnext
      rw [loadEach_cons c l settings b rest hload, loadEachAnew_cons c' settings b rest hanew,
        calls_append, calls_append]
      exact hfirst.bind fun hresult => (ih hnext s₁ s₁').imp (congrArg₂ List.cons hresult)

/-- After any loads, by a loader that starts without statements, it has one statement for each that
was missing, and the results and what was assigned are those of as many loaders that keep nothing,
as long as they are answered alike.  The next load does not show the loads before either. -/
theorem loadEach_transparent (c : Cursor σ) (loads : List (LoaderSettings × Batch))
    (s : Session σ) :
    let ep := ({} : Loader).loadEach c loads s
    let cache := ep.value.2.cache
    cache.size = cache.misses ∧ (cache.entries.map Prod.fst).Nodup ∧
      (∀ (σ' : Type) (c' : Cursor σ') (s' : Session σ'),
        Agree SameAssignments (ep.value.1 = (loadEachAnew c' loads s').value) (calls ep.events)
          (calls (loadEachAnew c' loads s').events)) ∧
      ∀ settings b, LoadsAnew c ⟨settings, cache⟩ b ep.session := by
  have hcache := reachable_loadEach c (l := {}) .empty loads s
  obtain ⟨hsize, hkeys⟩ := hcache.keeps
  exact ⟨hsize, hkeys,
    fun σ' c' s' => loadEach_agrees_loadEachAnew c c' .empty loads s s',
    fun settings b => loadsAnew c (l := ⟨settings, _⟩) hcache b _⟩

end Loader

end RowContract
