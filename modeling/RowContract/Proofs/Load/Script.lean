import RowContract.Load.Script
import RowContract.Proofs.Entity.Names
import RowContract.Proofs.Migration
import RowContract.Proofs.Sql.Rendering

/-!
Loads that are written down.  A script takes every statement that it can render, so a load of a
batch writes the insert of each record with its literals, one after the other and between the
switches if there are some: how the rows were cut into chunks and sent leaves no trace.  The
script of a document has the scripts of its planned batches, and nothing else.
-/

namespace RowContract

open LoadEvent

/-! ### The script of a batch -/

namespace Batch

/-- The insert of a record with its literals, for every column of the batch. -/
def insertLine (b : Batch) (r : Record) : String :=
  Sql.insertLine b.qualifiedTable b.columns (row b.columns r)

/-- The statements for the records of a batch, one a record, between switches if identity values
are given. -/
def script (b : Batch) : List String :=
  if b.identityInsert then
    Sql.identityInsertText b.qualifiedTable true :: b.records.map b.insertLine ++
      [Sql.identityInsertText b.qualifiedTable false]
  else b.records.map b.insertLine

/-- The statements of the batch can be rendered: no name ends its own brackets. -/
structure Renderable (b : Batch) : Prop where
  table : Sql.Renders b.qualifiedTable [] b.qualifiedTable
  columns : ∀ column ∈ b.columns, ']' ∉ column.toList

end Batch

def Session.extended (s : Session Script) (lines : List String) : Session Script :=
  { s with cursor := ⟨s.cursor.statements ++ lines⟩ }

namespace Session

@[simp] theorem extended_nil (s : Session Script) : s.extended [] = s := by
  simp [extended]

@[simp] theorem extended_extended (s : Session Script) (lines more : List String) :
    (s.extended lines).extended more = s.extended (lines ++ more) := by
  simp [extended]

end Session

/-! ### Steps that write -/

/-- A step gives a value and writes lines, whatever was written before. -/
def Loading.Writes {α : Type} (x : Loading Script α) (a : α) (lines : List String) : Prop :=
  ∀ s : Session Script, ∃ es, x.run s = ⟨.ok a, s.extended lines, es⟩

namespace Loading

variable {α β : Type} {a : α} {b : β} {lines more : List String}

theorem writes_pure (a : α) : (pure a : Loading Script α).Writes a [] :=
  fun s => ⟨[], by rw [run_pure, Session.extended_nil]⟩

theorem Writes.bind {x : Loading Script α} {f : α → Loading Script β} (h : x.Writes a lines)
    (hf : (f a).Writes b more) : (x >>= f).Writes b (lines ++ more) := by
  intro s
  obtain ⟨es, hx⟩ := h s
  obtain ⟨es', hrest⟩ := hf (s.extended lines)
  refine ⟨es ++ es', ?_⟩
  rw [run_bind_of_ok hx, hrest, Session.extended_extended]

/-- A step whose result is looked at gives the result of success. -/
theorem Writes.attempt {x : Loading Script α} {f : Except LoadError α → Loading Script β}
    (h : x.Writes a lines) (hf : (f (.ok a)).Writes b more) :
    (ExceptT.lift x.run >>= f : Loading Script β).Writes b (lines ++ more) := by
  intro s
  obtain ⟨es, hx⟩ := h s
  obtain ⟨es', hrest⟩ := hf (s.extended lines)
  refine ⟨es ++ es', ?_⟩
  rw [run_lift_bind, hx]
  dsimp only
  rw [hrest, Session.extended_extended]

/-- Steps that count rows, one after the other. -/
theorem Writes.add {x y : Loading Script Nat} {n k : Nat} (hx : x.Writes n lines)
    (hy : y.Writes k more) :
    (do
      let applied ← x
      let others ← y
      return applied + others : Loading Script Nat).Writes (n + k) (lines ++ more) := by
  refine hx.bind ?_
  rw [← List.append_nil more]
  exact hy.bind (writes_pure (n + k))

/-- What a step does for its events only can be left out. -/
theorem Writes.skip {x : Work Script Unit} {f : Unit → Loading Script β}
    (hx : ∀ s, (x s).session = s) (h : (f ()).Writes b lines) :
    (ExceptT.lift x >>= f : Loading Script β).Writes b lines := by
  intro s
  obtain ⟨es, hrest⟩ := h s
  refine ⟨(x s).events ++ es, ?_⟩
  rw [run_lift_bind, hx, hrest]

/-- A statement that can be rendered is written down and applies to one row. -/
theorem Writes.execute {command : Sql.Command} {line : String}
    {f : Except DbError Nat → Loading Script β}
    (hline : Sql.render command.text command.params = .ok line)
    (h : (f (.ok 1)).Writes b lines) :
    (ExceptT.lift (Work.execute Script.cursor command) >>= f : Loading Script β).Writes b
      (line :: lines) := by
  intro s
  have hanswer : Script.cursor.execute command s.cursor =
      (.ok 1, ⟨s.cursor.statements ++ [line]⟩) := by
    simp only [Script.cursor, Script.add, hline]
    rfl
  obtain ⟨es, hrest⟩ := h (s.extended [line])
  refine ⟨.executed command (.ok 1) :: es, ?_⟩
  rw [run_execute_bind _ _ _ hanswer]
  simp only [Session.extended] at hrest ⊢
  simp [hrest]

end Loading

namespace Script

/-- Many rows are written down like single ones. -/
theorem addAll_of_render {text : String} {line : List Value → String} {rows : List (List Value)}
    (h : ∀ row ∈ rows, Sql.render text row = .ok (line row)) (s : Script) :
    addAll text rows s = (.ok (), ⟨s.statements ++ rows.map line⟩) := by
  induction rows generalizing s with
  | nil => simp [addAll]
  | cons row rest ih =>
      obtain ⟨hrow, hrest⟩ := List.forall_mem_cons.mp h
      simp [addAll, add, hrow, ih hrest]

end Script

namespace LoadTask

variable {t : LoadTask} {line : List Value → String}

/-- The inserts of rows can be rendered, to a line each. -/
def Renders (t : LoadTask) (line : List Value → String) (rows : List (List Value)) : Prop :=
  ∀ row ∈ rows, Sql.render t.statement.text row = .ok (line row)

theorem insertRow_writes (index : Nat) {row : List Value}
    (h : Sql.render t.statement.text row = .ok (line row)) :
    (t.insertRow Script.cursor index row).Writes 1 [line row] := by
  unfold insertRow
  refine .execute h ?_
  exact Loading.writes_pure 1

theorem insertRows_writes (index : Nat) {rows : List (List Value)} (h : t.Renders line rows) :
    (t.insertRows Script.cursor index rows).Writes rows.length (rows.map line) := by
  induction rows generalizing index with
  | nil => exact Loading.writes_pure 0
  | cons row rest ih =>
      obtain ⟨hrow, hrest⟩ := List.forall_mem_cons.mp h
      rw [List.length_cons, Nat.add_comm]
      exact (insertRow_writes index hrow).add (ih (index + 1) hrest)

theorem setFast_session (on : Bool) (s : Session Script) :
    (Work.setFast Script.cursor on s).session = s := rfl

theorem insertSlowly_writes (index : Nat) {chunk : List (List Value)} (h : t.Renders line chunk) :
    (t.insertSlowly Script.cursor index chunk).Writes chunk.length (chunk.map line) := by
  unfold insertSlowly
  exact .skip (setFast_session false) (insertRows_writes index h)

/-- The fast path writes the same lines. -/
theorem insertFast_writes (index : Nat) {chunk : List (List Value)} (h : t.Renders line chunk) :
    (t.insertFast Script.cursor index chunk).Writes chunk.length (chunk.map line) := by
  unfold insertFast
  refine .skip (setFast_session true) fun s => ?_
  have hanswer : Script.cursor.executeMany t.statement.text chunk s.cursor =
      (.ok (), ⟨s.cursor.statements ++ chunk.map line⟩) := Script.addAll_of_render h s.cursor
  refine ⟨[.executedMany t.statement.text chunk (.ok ())], ?_⟩
  rw [Loading.run_executeMany_bind _ _ _ _ hanswer]
  rfl

theorem insertChunk_writes (index : Nat) {chunk : List (List Value)} (h : t.Renders line chunk) :
    (t.insertChunk Script.cursor index chunk).Writes chunk.length (chunk.map line) := by
  unfold insertChunk
  split
  · exact insertFast_writes index h
  · exact insertSlowly_writes index h

theorem insertChunks_writes (index : Nat) {chunks : List (List (List Value))}
    (h : t.Renders line chunks.flatten) :
    (t.insertChunks Script.cursor index chunks).Writes chunks.flatten.length
      (chunks.flatten.map line) := by
  induction chunks generalizing index with
  | nil => exact Loading.writes_pure 0
  | cons chunk rest ih =>
      rw [List.flatten_cons] at h ⊢
      obtain ⟨hchunk, hrest⟩ := List.forall_mem_append.mp h
      rw [List.length_append, List.map_append]
      exact (insertChunk_writes index hchunk).add (ih (index + chunk.length) hrest)

/-- However the rows are cut, each becomes one line. -/
theorem insertAll_writes {rows : List (List Value)} (h : t.Renders line rows) :
    (t.insertAll Script.cursor rows).Writes rows.length (rows.map line) := by
  have hrows := flatten_chunks t.settings.chunkSize rows
  rw [← hrows] at h
  have hall := insertChunks_writes 0 h
  rwa [hrows] at hall

theorem insertWithIdentity_writes {rows : List (List Value)} (h : t.Renders line rows)
    (htable : Sql.Renders t.qualifiedTable [] t.qualifiedTable) :
    (t.insertWithIdentity Script.cursor rows).Writes rows.length
      (Sql.identityInsertText t.qualifiedTable true :: rows.map line ++
        [Sql.identityInsertText t.qualifiedTable false]) := by
  have hon : (t.allowIdentity Script.cursor).Writes ()
      [Sql.identityInsertText t.qualifiedTable true] := by
    unfold allowIdentity
    refine .execute (Sql.render_identityInsertText htable true) ?_
    exact Loading.writes_pure ()
  have hoff : (t.forbidIdentity Script.cursor (.ok rows.length)).Writes rows.length
      [Sql.identityInsertText t.qualifiedTable false] := by
    unfold forbidIdentity
    refine .execute (Sql.render_identityInsertText htable false) ?_
    exact Loading.writes_pure rows.length
  unfold insertWithIdentity
  rw [List.cons_append]
  exact hon.bind ((insertAll_writes h).attempt hoff)

end LoadTask

/-! ### Batches -/

namespace Loader

section
variable {l : Loader} {b : Batch}

def NewTo (l : Loader) (b : Batch) : Prop :=
  ∀ e ∈ l.cache.entries, e.1.qualifiedTable ≠ b.qualifiedTable

theorem NewTo.find?_eq_none (h : l.NewTo b) :
    l.cache.find? (Sql.CacheKey.of b.qualifiedTable b.columns) = none := by
  refine Option.map_eq_none_iff.mpr (List.find?_eq_none.mpr fun e he hkey => ?_)
  exact h e he (congrArg Sql.CacheKey.qualifiedTable (beq_iff_eq.mp hkey))

/-- A batch of a new table is loaded in the order of its own columns. -/
theorem NewTo.prepare_eq (h : l.NewTo b) : (l.prepare b).1 = l.task b b.columns := by
  unfold prepare
  rw [Sql.StatementCache.statement_of_none h.find?_eq_none]
  rfl

/-- A batch of another table leaves a table new. -/
theorem NewTo.load {b' : Batch} (h : l.NewTo b) (h' : l.NewTo b')
    (hne : b.qualifiedTable ≠ b'.qualifiedTable) {σ : Type} (c : Cursor σ) (s : Session σ) :
    (l.load c b s).value.2.NewTo b' := by
  cases hempty : b.records.isEmpty with
  | true =>
      rw [load_of_isEmpty c l hempty]
      exact h'
  | false =>
      rw [load_of_not_isEmpty c l hempty]
      unfold prepare
      rw [Sql.StatementCache.statement_of_none h.find?_eq_none]
      intro e he
      rcases List.mem_append.mp he with he | he
      · exact h' e he
      · rw [List.mem_singleton.mp he]
        exact hne

/-- The rows of a batch are written down as its script. -/
theorem rowPhase_writes (hb : b.Renderable) :
    (rowPhase Script.cursor (l.task b b.columns) b).Writes b.size b.script := by
  have hrenders : (l.task b b.columns).Renders (Sql.insertLine b.qualifiedTable b.columns)
      (b.records.map (Batch.row b.columns)) := by
    intro row hrow
    obtain ⟨r, -, rfl⟩ := List.mem_map.mp hrow
    exact Sql.render_insertText hb.table hb.columns r.getOrNull
  have hlines : (b.records.map (Batch.row b.columns)).map
      (Sql.insertLine b.qualifiedTable b.columns) = b.records.map b.insertLine := List.map_map
  have hsize : (b.records.map (Batch.row b.columns)).length = b.size := List.length_map _
  unfold rowPhase Batch.script
  cases b.identityInsert with
  | true =>
      have hwrites := LoadTask.insertWithIdentity_writes hrenders hb.table
      rw [hlines, hsize] at hwrites
      exact hwrites
  | false =>
      have hwrites := LoadTask.insertAll_writes hrenders
      rw [hlines, hsize] at hwrites
      exact hwrites

/-- A batch of a new table is loaded as a whole. -/
theorem load_writes (hnew : l.NewTo b) (hb : b.Renderable) (hrecords : b.records ≠ [])
    (s : Session Script) :
    ∃ l' es, l.load Script.cursor b s = ⟨(.ok b.size, l'), s.extended b.script, es⟩ := by
  have hempty : b.records.isEmpty = false := by simp [hrecords]
  obtain ⟨es, hphase⟩ := rowPhase_writes (l := l) hb s
  obtain ⟨line, hrun⟩ := run_run_of_ok hphase
  refine ⟨(l.prepare b).2, es ++ [.line line], ?_⟩
  rw [load_of_not_isEmpty _ l hempty, hnew.prepare_eq, hrun, Nat.min_self]

end

/-- The entry of a summary for a batch that is loaded as a whole. -/
def whole (b : Batch) : TableLoad := ⟨b.table, b.qualifiedTable, b.size, b.size⟩

/-- Batches of different new tables are written down one after the other. -/
theorem loadAll_writes {l : Loader} {batches : List Batch} (hnew : ∀ b ∈ batches, l.NewTo b)
    (htables : (batches.map Batch.qualifiedTable).Nodup)
    (hbatches : ∀ b ∈ batches, b.Renderable ∧ b.records ≠ []) (s : Session Script) :
    ∃ l' es, l.loadAll Script.cursor batches s =
      ⟨(.ok (batches.map whole), l'), s.extended (batches.flatMap Batch.script), es⟩ := by
  induction batches generalizing l s with
  | nil =>
      refine ⟨l, [], ?_⟩
      rw [List.flatMap_nil, Session.extended_nil]
      rfl
  | cons b rest ih =>
      obtain ⟨hfirst, hothers⟩ := List.forall_mem_cons.mp hnew
      obtain ⟨⟨hb, hrecords⟩, hrest⟩ := List.forall_mem_cons.mp hbatches
      obtain ⟨htable, htables⟩ := List.nodup_cons.mp htables
      obtain ⟨l', es, hload⟩ := load_writes hfirst hb hrecords s
      -- The tables that follow are still new to the loader, since they are other tables.
      have hstill : ∀ b' ∈ rest, l'.NewTo b' := by
        intro b' hb'
        have hne : b.qualifiedTable ≠ b'.qualifiedTable := by
          intro heq
          rw [heq] at htable
          exact htable (List.mem_map_of_mem hb')
        have hnext := hfirst.load (hothers b' hb') hne Script.cursor s
        rwa [hload] at hnext
      obtain ⟨l'', more, hall⟩ := ih hstill htables hrest (s.extended b.script)
      refine ⟨l'', es ++ more, ?_⟩
      rw [loadAll_cons_of_ok hload hall, Session.extended_extended]
      rfl

end Loader

/-! ### Documents -/

/-- No name that the contract puts into a statement ends its own brackets. -/
structure Contract.BracketFree (c : Contract) : Prop where
  schema : ']' ∉ c.targetSchema.toList
  tables : ∀ m ∈ c.mappings, ']' ∉ m.targetTable.toList
  columns : ∀ m ∈ c.mappings, m.createsRow = false → ']' ∉ m.targetColumn.toList
  links : ∀ r ∈ c.relationships, ']' ∉ r.foreignKeyColumn.toList

namespace Contract

variable {c : Contract} {d : Document} {records : List Record} {table : String}

theorem BracketFree.notMem_of_names (h : c.BracketFree) {column : String}
    (hcolumn : c.Names column) : ']' ∉ column.toList := by
  cases hcolumn with
  | link hr => exact h.links _ hr
  | mapping hm hcolumn => exact h.columns _ hm hcolumn
  | key verb => cases verb <;> decide
  | value verb => cases verb <;> decide

theorem qualifiedTable_injective (c : Contract) : Function.Injective c.qualifiedTable := by
  intro table other h
  have hchars := congrArg String.toList h
  simp only [qualifiedTable, String.toList_append, List.append_assoc, List.append_right_inj,
    List.append_left_inj] at hchars
  exact String.toList_injective hchars

theorem BracketFree.renders_qualifiedTable (h : c.BracketFree) (htable : ']' ∉ table.toList) :
    Sql.Renders (c.qualifiedTable table) [] (c.qualifiedTable table) := by
  have hdot : Sql.Renders "." [] "." := .words (by decide)
  have hname := ((Sql.Renders.name h.schema).append hdot).append (.name htable)
  have heq : c.qualifiedTable table =
      "[" ++ c.targetSchema ++ "]" ++ "." ++ ("[" ++ table ++ "]") := by
    apply String.toList_injective
    simp [qualifiedTable]
  rw [heq]
  exact hname

/-- Batches of records of a contract without such names can be rendered, and none is empty. -/
theorem BracketFree.renderable_of_mem_ofRecords (h : c.BracketFree)
    (horder : c.tableInsertionOrder.Nodup) (hrecords : (c.records d).run.value = .ok records)
    {identityTables : List String} {b : Batch} (hb : b ∈ Batch.ofRecords c identityTables records) :
    b.Renderable ∧ b.records ≠ [] := by
  rw [ofRecords_eq horder (grouped_records hrecords)] at hb
  obtain ⟨table, htable, rfl⟩ := List.mem_map.mp hb
  obtain ⟨r, hr, hname⟩ := Batch.hasTable_eq_true_iff.mp (List.mem_filter.mp htable).2
  obtain ⟨m, hm, hmapping⟩ := (names_records hrecords r hr).1
  refine ⟨⟨h.renders_qualifiedTable ?_, fun column hcolumn => ?_⟩, ?_⟩
  · rw [← hname, ← hmapping]
    exact h.tables m hm
  · obtain ⟨r, hr, hcolumn⟩ := (Batch.mem_columns _ _).mp hcolumn
    exact h.notMem_of_names
      ((names_records hrecords r (List.mem_of_mem_filter hr)).2 column hcolumn)
  · exact List.ne_nil_of_mem (List.mem_filter.mpr ⟨hr, beq_iff_eq.mpr hname⟩)

theorem nodup_qualifiedTable_ofRecords (horder : c.tableInsertionOrder.Nodup)
    (hrecords : (c.records d).run.value = .ok records) (identityTables : List String) :
    ((Batch.ofRecords c identityTables records).map Batch.qualifiedTable).Nodup := by
  rw [ofRecords_eq horder (grouped_records hrecords), List.map_map]
  exact ((nodup_tables horder).filter _).map c.qualifiedTable_injective

theorem plan_of_records (hrecords : (c.records d).run.value = .ok records)
    (settings : LoaderSettings) :
    (c.plan d settings).run.value =
      .ok (Batch.ofRecords c settings.identityInsertTables records) := by
  rw [plan, Transform.value_bind, hrecords]
  rfl

end Contract

namespace Loader

/-- The script of a document whose records are known. -/
theorem loadDocument_writes {c : Contract} (horder : c.tableInsertionOrder.Nodup)
    (hfree : c.BracketFree) {d : Document} {records : List Record}
    (hrecords : (c.records d).run.value = .ok records) (settings : LoaderSettings)
    (s : Session Script) :
    ∃ l' es, loadDocument Script.cursor { settings := settings } c d s =
      ⟨(.ok ⟨(Batch.ofRecords c settings.identityInsertTables records).map whole⟩, l'),
        s.extended
          ((Batch.ofRecords c settings.identityInsertTables records).flatMap Batch.script),
        es⟩ := by
  have hnew : ∀ b ∈ Batch.ofRecords c settings.identityInsertTables records,
      ({ settings := settings } : Loader).NewTo b := by
    intro b _ e he
    cases he
  obtain ⟨l', es, hall⟩ := loadAll_writes hnew
    (Contract.nodup_qualifiedTable_ofRecords horder hrecords _)
    (fun b hb => hfree.renderable_of_mem_ofRecords horder hrecords hb) s
  obtain ⟨lines, last, hrun⟩ := run_loadDocument_of_ok
    (Contract.plan_of_records hrecords settings) hall
  exact ⟨l', _, hrun⟩

/-- The script of a document is complete.  For an accepted contract with any schema, if no name ends
its own brackets, a document that becomes records is loaded as a whole by a new loader; the script
has the statements of the planned batches in order, and for each batch the columns of its records,
once each.  Of the settings only the tables with given identity values matter. -/
theorem loadDocument_script {document : Json} {accepted c : Contract} {schema : String}
    (haccepted : Contract.ofDocument document = .ok accepted)
    (hc : c = { accepted with targetSchema := schema }) (hfree : c.BracketFree) {d : Document}
    {records : List Record} (hrecords : (c.records d).run.value = .ok records)
    (settings : LoaderSettings) (s : Session Script) :
    ∃ batches, (c.plan d settings).run.value = .ok batches ∧
      (loadDocument Script.cursor { settings := settings } c d s).value.1 =
        .ok ⟨batches.map fun b => ⟨b.table, b.qualifiedTable, b.size, b.size⟩⟩ ∧
      (loadDocument Script.cursor { settings := settings } c d s).session =
        s.extended (batches.flatMap Batch.script) ∧
      (∀ b ∈ batches, b.columns.Nodup ∧
        ∀ column, column ∈ b.columns ↔ ∃ r ∈ b.records, column ∈ r.columnNames) ∧
      ∀ others : LoaderSettings, others.identityInsertTables = settings.identityInsertTables →
        (loadDocument Script.cursor { settings := others } c d s).session =
          (loadDocument Script.cursor { settings := settings } c d s).session := by
  have horder : c.tableInsertionOrder.Nodup := by
    rw [hc]
    exact (Contract.wellFormed_of_ofDocument haccepted).orderNodup
  obtain ⟨l', es, hrun⟩ := loadDocument_writes horder hfree hrecords settings s
  refine ⟨_, Contract.plan_of_records hrecords settings, ?_, ?_,
    fun b _ => ⟨b.nodup_columns, b.mem_columns⟩, fun others hothers => ?_⟩
  · rw [hrun]
    rfl
  · rw [hrun]
  · obtain ⟨l'', es', hothersRun⟩ := loadDocument_writes horder hfree hrecords others s
    rw [hothersRun, hrun, hothers]

def markedApplication : Document where
  elements := [{ path := "/app", attributes := [("id", "a?'b]"), ("score", "640")] }]

def markedScript : List String :=
  ["SET IDENTITY_INSERT [stage].[app_base] ON",
    "INSERT INTO [stage].[app_base] ([app_id]) VALUES (N'a?''b]')",
    "SET IDENTITY_INSERT [stage].[app_base] OFF",
    "INSERT INTO [stage].[scores] ([app_id], [score_identifier], [score]) VALUES " ++
      "(N'a?''b]', N'AJ', N'640')"]

theorem scoring_script :
    ∃ accepted, Contract.ofDocument scoring = .ok accepted ∧
      ∃ c, c = { accepted with targetSchema := "stage" } ∧ c.BracketFree ∧
        ∃ records, (c.records markedApplication).run.value = .ok records ∧
          (loadDocument Script.cursor { settings := { identityInsertTables := ["app_base"] } } c
            markedApplication ⟨{}, none⟩).session.cursor.statements =
            markedScript := by
  have hrun : ((Contract.ofDocument scoring).toOption.any fun accepted =>
      let c : Contract := { accepted with targetSchema := "stage" }
      decide ((∀ m ∈ c.mappings, ']' ∉ m.targetTable.toList) ∧
        (∀ m ∈ c.mappings, ']' ∉ m.targetColumn.toList) ∧
        ∀ r ∈ c.relationships, ']' ∉ r.foreignKeyColumn.toList) &&
      ((c.records markedApplication).run.value.toOption.any fun _ =>
        (c.plan markedApplication { identityInsertTables := ["app_base"] }).run.value.toOption.any
          fun batches => decide (batches.flatMap Batch.script = markedScript))) = true := by
    decide +kernel
  obtain ⟨accepted, haccepted, hrun⟩ := any_toOption_iff.mp hrun
  obtain ⟨hnames, hrun⟩ := (Bool.and_eq_true _ _).mp hrun
  obtain ⟨records, hrecords, hrun⟩ := any_toOption_iff.mp hrun
  obtain ⟨batches, hbatches, hlines⟩ := any_toOption_iff.mp hrun
  obtain ⟨htables, hcolumns, hlinks⟩ := of_decide_eq_true hnames
  have hschema : ']' ∉ "stage".toList := by decide
  have hfree : Contract.BracketFree { accepted with targetSchema := "stage" } :=
    ⟨hschema, htables, fun m hm _ => hcolumns m hm, hlinks⟩
  refine ⟨accepted, haccepted, _, rfl, hfree, records, hrecords, ?_⟩
  obtain ⟨planned, hplanned, -, hsession, -⟩ := loadDocument_script haccepted rfl hfree hrecords
    { identityInsertTables := ["app_base"] } ⟨{}, none⟩
  obtain rfl : batches = planned := Except.ok.inj (hbatches.symm.trans hplanned)
  rw [hsession]
  exact of_decide_eq_true hlines

end Loader

end RowContract
