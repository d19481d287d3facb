import RowContract.Entity.Basic
import RowContract.Proofs.Fields
import RowContract.Proofs.Resolution.Chain

/-!
How the rows of a document come about.  The rules of a table resolve one after the
other for an entity, and what they resolve to makes its rows; the entities are built
one after the other, each beside the rows of those before it.  The log lines that are
written on the way are left out here: they have no part in what is built.
-/

namespace RowContract

/-- Setting columns in two parts. -/
theorem Record.setAll_append (r : Record) (entries more : List (String × Value)) :
    r.setAll (entries ++ more) = (r.setAll entries).setAll more := by
  unfold setAll Fields.setAll
  rw [List.foldl_append]

theorem Record.size_setAll_le (r : Record) (entries : List (String × Value)) :
    (r.setAll entries).size ≤ r.size + entries.length :=
  Fields.length_setAll_le r.columns entries

theorem Contract.mem_mappingsFor_iff {c : Contract} {table : String} {m : FieldMapping} :
    m ∈ c.mappingsFor table ↔ m ∈ c.mappings ∧ m.targetTable = table := by
  unfold mappingsFor
  rw [List.mem_filter, beq_iff_eq]

theorem Contract.targetTable_mem_tables {c : Contract} {m : FieldMapping} (h : m ∈ c.mappings) :
    m.targetTable ∈ c.tables := by
  have hkept (mappings : List FieldMapping) (tables : List String) {table : String}
      (htable : table ∈ tables) :
      table ∈ mappings.foldl (fun ts m => if ts.contains m.targetTable then ts
        else ts ++ [m.targetTable]) tables := by
    induction mappings generalizing tables with
    | nil => exact htable
    | cons first rest ih =>
        apply ih
        dsimp only
        split
        · exact htable
        · exact List.mem_append_left _ htable
  unfold tables
  generalize c.tableInsertionOrder = tables
  generalize c.mappings = mappings at h
  induction mappings generalizing tables with
  | nil => cases h
  | cons first rest ih =>
      rcases List.mem_cons.mp h with rfl | h
      · rw [List.foldl_cons]
        apply hkept
        split
        · next hcontains => exact List.contains_iff_mem.mp hcontains
        · exact List.mem_append_right _ (List.mem_singleton_self _)
      · exact ih _ h

theorem Relationship.keyColumn_value (r : Relationship) (d : Document) (element : Option Nat)
    (built : List Built) :
    (r.keyColumn d element built).value =
      if (r.key d element built).isNull then [] else
        [(r.foreignKeyColumn, r.key d element built)] := by
  unfold keyColumn
  cases hnull : (r.key d element built).isNull with
  | false => simp [hnull]
  | true => cases (r.parents built).isEmpty <;> simp [hnull]

/-- Links give their keys one after the other. -/
theorem keyColumns_value (d : Document) (element : Option Nat) (built : List Built)
    (rels : List Relationship) :
    (keyColumns d element built rels).value =
      rels.flatMap fun r => (r.keyColumn d element built).value := by
  induction rels with
  | nil => rfl
  | cons r rest ih =>
      rw [List.flatMap_cons, ← ih]
      rfl

namespace Site

/-! ### What rules resolve to -/

/-- What a rule resolves to for the entity of an element, beside the record so far. -/
def resolution (s : Site) (anchor : Nat) (m : FieldMapping) (record : Record) :
    Except TransformError Resolved :=
  let source := m.source? s.document anchor
  let ctx : ChainContext :=
    { contract := s.contract
      mapping := m
      fields := fieldValues source record
      contacts := some s.contacts }
  (ctx.resolve (m.rawValue source)).run.value

/-- The columns that get a value, in the order in which they get it. -/
def filled (outcomes : List (FieldMapping × Resolved)) : List (String × Value) :=
  outcomes.filterMap fun
    | (m, .column v) => if v.isNull then none else some (m.targetColumn, v)
    | _ => none

/-- What rules resolve to for the entity of an element, one after the other: each sees the columns
that those before it fill. -/
def outcomes (s : Site) (anchor : Nat) :
    List FieldMapping → Record → Except TransformError (List (FieldMapping × Resolved))
  | [], _ => .ok []
  | m :: rest, record => do
    let o ← s.resolution anchor m record
    let others ← s.outcomes anchor rest (record.setAll (filled [(m, o)]))
    return (m, o) :: others

/-- The foreign keys of a row of a table that is built from an element. -/
def foreignKeys (s : Site) (built : List Built) (table : String) (element : Option Nat) :
    List (String × Value) :=
  (s.contract.parentKeys s.document table element built).value

/-- A foreign key comes along a link to the table, and is not missing. -/
theorem mem_foreignKeys_iff {s : Site} {built : List Built} {table : String}
    {element : Option Nat} {column : String} {v : Value} :
    (column, v) ∈ s.foreignKeys built table element ↔
      ∃ r ∈ s.contract.relationships, r.childTable = table ∧ r.foreignKeyColumn = column ∧
        r.key s.document element built = v ∧ v.isNull = false := by
  unfold foreignKeys Contract.parentKeys
  rw [keyColumns_value]
  simp only [List.mem_flatMap, List.mem_filter, beq_iff_eq, Relationship.keyColumn_value]
  constructor
  · rintro ⟨r, ⟨hr, htable⟩, hkey⟩
    split at hkey
    · cases hkey
    · next hnull =>
        obtain ⟨hcolumn, hv⟩ := Prod.mk.inj (List.mem_singleton.mp hkey)
        subst hv
        exact ⟨r, hr, htable, hcolumn.symm, rfl, Bool.eq_false_iff.mpr hnull⟩
  · rintro ⟨r, hr, htable, rfl, rfl, hnull⟩
    refine ⟨r, ⟨hr, htable⟩, ?_⟩
    rw [hnull]
    exact List.mem_singleton_self _

theorem foreignKeys_eq_nil (s : Site) {table : String}
    (h : ∀ r ∈ s.contract.relationships, r.childTable ≠ table)
    (built : List Built) (element : Option Nat) : s.foreignKeys built table element = [] := by
  rw [List.eq_nil_iff_forall_not_mem]
  rintro ⟨column, v⟩ hmem
  obtain ⟨r, hr, htable, -⟩ := mem_foreignKeys_iff.mp hmem
  exact h r hr htable

/-- The row that a rule appends.  It takes its keys by the element that the rule reads, and by that
of the entity if there is none. -/
def appendedRow (s : Site) (built : List Built) (anchor : Nat) (m : FieldMapping)
    (r : KeyValueRow) : Built :=
  let element := (m.source? s.document anchor).map Prod.snd
  ⟨r.toRecord (s.foreignKeys built r.table (element.or (some anchor))), element⟩

def appended (s : Site) (built : List Built) (anchor : Nat)
    (outcomes : List (FieldMapping × Resolved)) : List Built :=
  outcomes.filterMap fun
    | (m, .row r) => some (s.appendedRow built anchor m r)
    | _ => none

def hasColumn (outcomes : List (FieldMapping × Resolved)) : Bool :=
  outcomes.any fun
    | (_, .column _) => true
    | _ => false

theorem filled_cons (first : FieldMapping × Resolved) (rest : List (FieldMapping × Resolved)) :
    filled (first :: rest) = filled [first] ++ filled rest := by
  unfold filled
  rw [← List.filterMap_append]
  rfl

theorem mem_filled_iff {outcomes : List (FieldMapping × Resolved)} {column : String} {v : Value} :
    (column, v) ∈ filled outcomes ↔
      ∃ m, (m, .column v) ∈ outcomes ∧ m.targetColumn = column ∧ v.isNull = false := by
  unfold filled
  rw [List.mem_filterMap]
  constructor
  · rintro ⟨⟨m, o⟩, hmem, ho⟩
    cases o with
    | column w =>
        cases hnull : w.isNull with
        | true => simp [hnull] at ho
        | false =>
            simp only [hnull, Bool.false_eq_true, if_false, Option.some.injEq,
              Prod.mk.injEq] at ho
            obtain ⟨rfl, rfl⟩ := ho
            exact ⟨m, hmem, rfl, hnull⟩
    | row r => cases ho
    | noRow => cases ho
  · rintro ⟨m, hmem, rfl, hnull⟩
    exact ⟨_, hmem, by simp [hnull]⟩

theorem filled_eq_nil_of_not_hasColumn {outcomes : List (FieldMapping × Resolved)}
    (h : hasColumn outcomes = false) : filled outcomes = [] := by
  rw [filled, List.filterMap_eq_nil_iff]
  rintro ⟨m, o⟩ hm
  have ho := List.any_eq_false.mp h _ hm
  cases o with
  | column v => exact absurd rfl ho
  | row r => rfl
  | noRow => rfl

section
variable {s : Site} {anchor : Nat}

theorem outcomes_cons_eq_ok {m : FieldMapping} {rest : List FieldMapping} {record : Record}
    {outs : List (FieldMapping × Resolved)}
    (h : s.outcomes anchor (m :: rest) record = .ok outs) :
    ∃ o others, s.resolution anchor m record = .ok o ∧
      s.outcomes anchor rest (record.setAll (filled [(m, o)])) = .ok others ∧
      outs = (m, o) :: others := by
  obtain ⟨o, ho, h⟩ := bind_eq_ok h
  obtain ⟨others, hothers, h⟩ := bind_eq_ok h
  exact ⟨o, others, ho, hothers, (Except.ok.inj h).symm⟩

/-- Every outcome is what one of the rules resolves to. -/
theorem resolution_of_mem_outcomes {rules : List FieldMapping} {record : Record}
    {outs : List (FieldMapping × Resolved)} (h : s.outcomes anchor rules record = .ok outs)
    {m : FieldMapping} {o : Resolved} (hmem : (m, o) ∈ outs) :
    m ∈ rules ∧ ∃ record, s.resolution anchor m record = .ok o := by
  induction rules generalizing record outs with
  | nil =>
      have hnil : [] = outs := Except.ok.inj h
      subst hnil
      cases hmem
  | cons first rest ih =>
      obtain ⟨o', others, ho', hothers, rfl⟩ := outcomes_cons_eq_ok h
      rcases List.mem_cons.mp hmem with heq | hmem
      · obtain ⟨rfl, rfl⟩ := Prod.mk.inj heq
        exact ⟨List.mem_cons_self, record, ho'⟩
      · obtain ⟨hrule, hresolved⟩ := ih hothers hmem
        exact ⟨List.mem_cons_of_mem _ hrule, hresolved⟩

/-- A rule that appends a row appends it to its own table, by the operation that does so. -/
theorem row_of_resolution {m : FieldMapping} {record : Record} {r : KeyValueRow}
    (h : s.resolution anchor m record = .ok (.row r)) :
    r.table = m.targetTable ∧
      ∃ name, m.rowOperation?.bind Operation.row? = some (r.verb, name) := by
  obtain ⟨v, w, -, -, hdeliver⟩ := ChainContext.finish_of_resolve h
  change ChainContext.deliver m w = .row r at hdeliver
  unfold ChainContext.deliver at hdeliver
  split at hdeliver
  · cases hdeliver
  · next verb name hverb =>
      split at hdeliver
      · cases hdeliver
      · injection hdeliver with hr
        subst hr
        exact ⟨rfl, name, hverb⟩

/-- The rules of a table append rows to that table. -/
theorem table_of_mem_outcomes {table : String} {record : Record}
    {outs : List (FieldMapping × Resolved)}
    (h : s.outcomes anchor (s.contract.mappingsFor table) record = .ok outs) {m : FieldMapping}
    {r : KeyValueRow} (hmem : (m, .row r) ∈ outs) : r.table = table := by
  obtain ⟨hrule, record', hresolved⟩ := resolution_of_mem_outcomes h hmem
  have htarget : m.targetTable = table := (Contract.mem_mappingsFor_iff.mp hrule).2
  exact (row_of_resolution hresolved).1.trans htarget

end

/-! ### The rows of an entity -/

def receive (s : Site) (built : List Built) (anchor : Nat) (w : Draft)
    (outcomes : List (FieldMapping × Resolved)) : Draft :=
  { w with
    record := w.record.setAll (filled outcomes)
    hasColumns := w.hasColumns || hasColumn outcomes
    rows := w.rows ++ s.appended built anchor outcomes }

/-- The rows of an entity: its columns, if there are more of them than foreign keys, and the rows
that its rules append. -/
def entityRows (s : Site) (table : String) (built : List Built) (anchor : Nat)
    (outcomes : List (FieldMapping × Resolved)) : List Built :=
  let keys := s.foreignKeys built table (some anchor)
  let record := (Record.empty table).setAll (keys ++ filled outcomes)
  (if keys.length < record.size then [⟨record, some anchor⟩] else []) ++
    s.appended built anchor outcomes

section
variable (s : Site) (built : List Built) (anchor : Nat)

theorem applyRule_value (m : FieldMapping) (w : Draft) :
    (s.applyRule built anchor m w).run.value =
      (s.resolution anchor m w.record).map fun o => s.receive built anchor w [(m, o)] := by
  unfold applyRule resolution
  rw [Transform.value_bind]
  cases (ChainContext.resolve _ _).run.value with
  | error e => rfl
  | ok o =>
      cases o with
      | column v =>
          have hcolumn : s.receive built anchor w [(m, .column v)] =
              w.setColumn m.targetColumn v := by
            unfold receive Draft.setColumn filled hasColumn appended
            cases hnull : v.isNull <;> simp [hnull, Record.setAll, Fields.setAll, Record.set]
          exact congrArg Except.ok hcolumn.symm
      | row r =>
          have hrow : s.receive built anchor w [(m, .row r)] =
              { w with rows := w.rows ++ [s.appendedRow built anchor m r] } := by
            simp [receive, filled, hasColumn, appended, Record.setAll, Fields.setAll]
          exact congrArg Except.ok hrow.symm
      | noRow =>
          have hnone : s.receive built anchor w [(m, .noRow)] = w := by
            simp [receive, filled, hasColumn, appended, Record.setAll, Fields.setAll]
          exact congrArg Except.ok hnone.symm

theorem receive_receive (w : Draft) (first : FieldMapping × Resolved)
    (rest : List (FieldMapping × Resolved)) :
    s.receive built anchor (s.receive built anchor w [first]) rest =
      s.receive built anchor w (first :: rest) := by
  have happended : s.appended built anchor (first :: rest) =
      s.appended built anchor [first] ++ s.appended built anchor rest := by
    unfold appended
    rw [← List.filterMap_append]
    rfl
  unfold receive
  rw [happended, filled_cons first rest, Record.setAll_append]
  simp [hasColumn, Bool.or_assoc]

theorem applyRules_value (rules : List FieldMapping) (w : Draft) :
    (s.applyRules built anchor rules w).run.value =
      (s.outcomes anchor rules w.record).map (s.receive built anchor w) := by
  induction rules generalizing w with
  | nil =>
      have hnil : s.receive built anchor w [] = w := by
        simp [receive, filled, hasColumn, appended, Record.setAll, Fields.setAll]
      exact congrArg Except.ok hnil.symm
  | cons m rest ih =>
      rw [applyRules, Transform.value_bind, applyRule_value, outcomes]
      cases s.resolution anchor m w.record with
      | error e => rfl
      | ok o =>
          show (s.applyRules built anchor rest (s.receive built anchor w [(m, o)])).run.value = _
          rw [ih]
          show _ = Except.map _ (s.outcomes anchor rest (w.record.setAll (filled [(m, o)])) >>=
            fun others => .ok ((m, o) :: others))
          show Except.map _ (s.outcomes anchor rest (w.record.setAll (filled [(m, o)]))) = _
          cases s.outcomes anchor rest (w.record.setAll (filled [(m, o)])) with
          | error e => rfl
          | ok others => exact congrArg Except.ok (s.receive_receive built anchor w (m, o) others)

/-- An entity is built from what its rules resolve to. -/
theorem buildEntity_value (table : String) (rules : List FieldMapping) :
    (s.buildEntity table rules built anchor).run.value =
      (s.outcomes anchor rules
        ((Record.empty table).setAll (s.foreignKeys built table (some anchor)))).map
        (s.entityRows table built anchor) := by
  show (s.applyRules built anchor rules
      (Draft.start table (s.foreignKeys built table (some anchor))) >>= fun w =>
        (pure (w.finish anchor) : Transform (List Built))).run.value = _
  rw [Transform.value_bind, applyRules_value]
  show _ = Except.map _ (s.outcomes anchor rules (Draft.start table _).record)
  cases s.outcomes anchor rules (Draft.start table _).record with
  | error e => rfl
  | ok outs =>
      refine congrArg Except.ok ?_
      generalize hkeys : s.foreignKeys built table (some anchor) = keys
      have hrecord : (s.receive built anchor (Draft.start table keys) outs).record =
          (Record.empty table).setAll (keys ++ filled outs) := by
        rw [Record.setAll_append]
        rfl
      unfold entityRows Draft.finish Draft.isWorthKeeping
      rw [hrecord, hkeys]
      show (if (hasColumn outs && decide (keys.length < _)) = true then _ else _) = _
      cases hcolumn : hasColumn outs with
      | true => simp only [Bool.true_and, decide_eq_true_eq]; split <;> rfl
      | false =>
          -- Without a column the record has at most a column for every key.
          have hfew : ¬ keys.length < ((Record.empty table).setAll (keys ++ filled outs)).size := by
            rw [filled_eq_nil_of_not_hasColumn hcolumn, List.append_nil]
            have hle := Record.size_setAll_le (Record.empty table) keys
            have hempty : (Record.empty table).size = 0 := rfl
            omega
          simp only [Bool.false_and, Bool.false_eq_true, if_false, hfew]
          rfl

end

/-! ### The entities, one after the other -/

/-- An entity of a table, with the rows built before it and its own. -/
structure Stage where
  table : String
  /-- The index of its element. -/
  anchor : Nat
  earlier : List Built
  rows : List Built

/-- The entities of a document, in the order in which they are built. -/
def entities (s : Site) : List (String × Nat) :=
  s.contract.tables.flatMap fun table =>
    (s.contract.anchors s.document (s.contract.mappingsFor table)).map fun a => (table, a)

/-- Only a table with a rule has entities. -/
theorem exists_rule_of_mem_entities {s : Site} {table : String} {anchor : Nat}
    (h : (table, anchor) ∈ s.entities) : ∃ m, m ∈ s.contract.mappingsFor table := by
  obtain ⟨table', -, h⟩ := List.mem_flatMap.mp h
  obtain ⟨a, ha, heq⟩ := List.mem_map.mp h
  obtain ⟨rfl, rfl⟩ := Prod.mk.inj heq
  refine List.exists_mem_of_ne_nil _ fun hrules => ?_
  rw [hrules] at ha
  cases ha

/-- A table with a rule is visited, and so is each of its entities. -/
theorem mem_entities {s : Site} {table : String} {anchor : Nat}
    (h : anchor ∈ s.contract.anchors s.document (s.contract.mappingsFor table)) :
    (table, anchor) ∈ s.entities := by
  obtain ⟨m, hm⟩ : ∃ m, m ∈ s.contract.mappingsFor table := by
    cases hrules : s.contract.mappingsFor table with
    | nil => rw [hrules] at h; cases h
    | cons m rest => exact ⟨m, List.mem_cons_self⟩
  obtain ⟨hmem, htarget⟩ := Contract.mem_mappingsFor_iff.mp hm
  have htable : table ∈ s.contract.tables := by
    rw [← htarget]
    exact Contract.targetTable_mem_tables hmem
  exact List.mem_flatMap.mpr ⟨table, htable, List.mem_map_of_mem h⟩

def stages (s : Site) : List (String × Nat) → List Built → Except TransformError (List Stage)
  | [], _ => .ok []
  | (table, anchor) :: rest, earlier => do
    let rows ← (s.buildEntity table (s.contract.mappingsFor table) earlier anchor).run.value
    let later ← s.stages rest (earlier ++ rows)
    return ⟨table, anchor, earlier, rows⟩ :: later

def history (s : Site) : Except TransformError (List Stage) := s.stages s.entities []

section
variable (s : Site)

theorem stages_append (first second : List (String × Nat)) (earlier : List Built) :
    s.stages (first ++ second) earlier =
      (s.stages first earlier >>= fun done =>
        (s.stages second (earlier ++ done.flatMap Stage.rows)).map (done ++ ·)) := by
  induction first generalizing earlier with
  | nil =>
      show _ = Except.map _ (s.stages second (earlier ++ []))
      rw [List.append_nil, List.nil_append]
      cases s.stages second earlier <;> rfl
  | cons entity rest ih =>
      obtain ⟨table, anchor⟩ := entity
      rw [List.cons_append, stages, stages]
      cases (s.buildEntity table (s.contract.mappingsFor table) earlier anchor).run.value with
      | error e => rfl
      | ok rows =>
          simp only [ok_bind]
          rw [ih]
          cases s.stages rest (earlier ++ rows) with
          | error e => rfl
          | ok done =>
              show Except.map _ (s.stages second (earlier ++ rows ++ done.flatMap Stage.rows)) >>=
                _ = Except.map _ (s.stages second (earlier ++ (rows ++ done.flatMap Stage.rows)))
              rw [List.append_assoc]
              cases s.stages second _ <;> rfl

theorem buildEntities_value (table : String) (anchors : List Nat) (earlier : List Built) :
    (s.buildEntities table (s.contract.mappingsFor table) anchors earlier).run.value =
      (s.stages (anchors.map fun a => (table, a)) earlier).map fun done =>
        earlier ++ done.flatMap Stage.rows := by
  induction anchors generalizing earlier with
  | nil =>
      show Except.ok earlier = .ok (earlier ++ [])
      rw [List.append_nil]
  | cons anchor rest ih =>
      rw [buildEntities, Transform.value_bind, List.map_cons, stages]
      cases (s.buildEntity table (s.contract.mappingsFor table) earlier anchor).run.value with
      | error e => rfl
      | ok rows =>
          simp only [ok_bind, ih]
          cases s.stages (rest.map fun a => (table, a)) (earlier ++ rows) with
          | error e => rfl
          | ok done =>
              show Except.ok (earlier ++ rows ++ done.flatMap Stage.rows) = .ok _
              rw [List.append_assoc]
              rfl

theorem buildTables_value (tables : List String) (earlier : List Built) :
    (s.buildTables tables earlier).run.value =
      (s.stages (tables.flatMap fun table =>
        (s.contract.anchors s.document (s.contract.mappingsFor table)).map fun a => (table, a))
        earlier).map fun done => earlier ++ done.flatMap Stage.rows := by
  induction tables generalizing earlier with
  | nil =>
      show Except.ok earlier = .ok (earlier ++ [])
      rw [List.append_nil]
  | cons table rest ih =>
      rw [List.flatMap_cons, stages_append]
      show (s.buildEntities table (s.contract.mappingsFor table)
        (s.contract.anchors s.document (s.contract.mappingsFor table)) earlier >>= fun built =>
          s.buildTables rest built).run.value = _
      rw [Transform.value_bind, buildEntities_value]
      generalize (s.contract.anchors s.document (s.contract.mappingsFor table)).map
        (fun a => (table, a)) = own
      cases s.stages own earlier with
      | error e => rfl
      | ok done =>
          show (s.buildTables rest (earlier ++ done.flatMap Stage.rows)).run.value =
            Except.map _ (Except.map _ _)
          rw [ih]
          cases s.stages _ (earlier ++ done.flatMap Stage.rows) with
          | error e => rfl
          | ok others =>
              show Except.ok (earlier ++ done.flatMap Stage.rows ++ others.flatMap Stage.rows) =
                Except.ok (earlier ++ (done ++ others).flatMap Stage.rows)
              rw [List.flatMap_append, List.append_assoc]

end

/-- The records of a document are the rows of its entities. -/
theorem records_value (c : Contract) (d : Document) :
    (c.records d).run.value = (history ⟨c, d⟩).map fun done =>
      (done.flatMap Stage.rows).map Built.record := by
  have hbuild := (Site.mk c d).buildTables_value c.tables []
  show (Site.build ⟨c, d⟩ >>= fun built =>
    (pure (built.map Built.record) : Transform (List Record))).run.value = _
  rw [Transform.value_bind]
  show (buildTables ⟨c, d⟩ c.tables []).run.value >>= _ = _
  rw [hbuild]
  show _ = Except.map _ (stages ⟨c, d⟩ _ [])
  unfold entities
  cases stages ⟨c, d⟩ _ [] <;> rfl

theorem history_of_records {c : Contract} {d : Document} {records : List Record}
    (h : (c.records d).run.value = .ok records) :
    ∃ done, history ⟨c, d⟩ = .ok done ∧ records = (done.flatMap Stage.rows).map Built.record := by
  rw [records_value] at h
  cases hdone : history ⟨c, d⟩ with
  | error e => rw [hdone] at h; cases h
  | ok done =>
      rw [hdone] at h
      exact ⟨done, rfl, (Except.ok.inj h).symm⟩

section
variable {s : Site} {done : List Stage}

/-- The stages are those of the entities, each built after the rows of those before it. -/
theorem stages_eq_ok {entities : List (String × Nat)} {earlier : List Built}
    (h : s.stages entities earlier = .ok done) :
    (done.map fun stage => (stage.table, stage.anchor)) = entities ∧
      ∀ before stage after, done = before ++ stage :: after →
        stage.earlier = earlier ++ before.flatMap Stage.rows ∧
        (s.buildEntity stage.table (s.contract.mappingsFor stage.table) stage.earlier
          stage.anchor).run.value = .ok stage.rows := by
  induction entities generalizing earlier done with
  | nil =>
      have hnil : [] = done := Except.ok.inj h
      subst hnil
      refine ⟨rfl, fun before stage after heq => ?_⟩
      cases before <;> cases heq
  | cons entity rest ih =>
      obtain ⟨table, anchor⟩ := entity
      rw [stages] at h
      obtain ⟨rows, hrows, h⟩ := bind_eq_ok h
      obtain ⟨later, hlater, h⟩ := bind_eq_ok h
      have hdone : ⟨table, anchor, earlier, rows⟩ :: later = done := Except.ok.inj h
      subst hdone
      obtain ⟨hentities, hstages⟩ := ih hlater
      refine ⟨by rw [List.map_cons, hentities], fun before stage after heq => ?_⟩
      cases before with
      | nil =>
          rw [List.nil_append, List.cons.injEq] at heq
          obtain ⟨rfl, -⟩ := heq
          exact ⟨(List.append_nil _).symm, hrows⟩
      | cons first others =>
          rw [List.cons_append, List.cons.injEq] at heq
          obtain ⟨rfl, heq⟩ := heq
          obtain ⟨hearlier, hbuild⟩ := hstages others stage after heq
          rw [List.flatMap_cons, ← List.append_assoc]
          exact ⟨hearlier, hbuild⟩

theorem history_entities (h : s.history = .ok done) :
    (done.map fun stage => (stage.table, stage.anchor)) = s.entities :=
  (stages_eq_ok h).1

/-- What stands before the rows of an entity are the rows of the entities before it. -/
theorem history_earlier (h : s.history = .ok done) {before after : List Stage} {stage : Stage}
    (hsplit : done = before ++ stage :: after) :
    stage.earlier = before.flatMap Stage.rows :=
  ((stages_eq_ok h).2 before stage after hsplit).1

/-- The rows of a stage are made from what the rules of its table resolve to. -/
theorem history_outcomes (h : s.history = .ok done) {stage : Stage} (hstage : stage ∈ done) :
    ∃ outs,
      s.outcomes stage.anchor (s.contract.mappingsFor stage.table)
        ((Record.empty stage.table).setAll
          (s.foreignKeys stage.earlier stage.table (some stage.anchor))) = .ok outs ∧
      stage.rows = s.entityRows stage.table stage.earlier stage.anchor outs := by
  obtain ⟨before, after, hsplit⟩ := List.append_of_mem hstage
  have hbuild := ((stages_eq_ok h).2 before stage after hsplit).2
  rw [buildEntity_value] at hbuild
  revert hbuild
  cases s.outcomes stage.anchor _ _ with
  | error e => intro hbuild; cases hbuild
  | ok outs => intro hbuild; exact ⟨outs, rfl, (Except.ok.inj hbuild).symm⟩

end

end Site

end RowContract
