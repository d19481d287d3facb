import RowContract.Proofs.Document.Nesting
import RowContract.Proofs.Entity.Build

/-!
Whose key a row takes.  Among the rows of a parent table that stand before an entity,
the one to choose is that of the nearest element around the row's own.  The choice goes
by the largest index instead, which is the same where every parent stands before its
children: of two elements around one, the nearer has the larger index.  What a row has
in a column that no mapping of its table writes can only have come along a link, and so
from the row chosen.
-/

namespace RowContract

namespace Built

variable {d : Document} {i : Nat} {rows parents : List Built} {p : Built}

/-- The row by which a row of the element at `i` finds its key among those of a parent table:
nothing was built from an element nearer to it, and nothing later from the same element; or no row
was built from an element around it, and there is only this one. -/
inductive GivesKey (d : Document) (i : Nat) : List Built → Built → Prop
  | nearest {before after : List Built} {p : Built} {steps a : Nat} (element : p.element = some a)
      (around : d.ancestor? i steps = some a)
      (apart : ∀ q ∈ before ++ p :: after, ∀ fewer < steps, ∀ b, q.element = some b →
        d.ancestor? i fewer ≠ some b)
      (last : ∀ q ∈ after, q.element ≠ some a) :
      GivesKey d i (before ++ p :: after) p
  | only {p : Built} (apart : ∀ steps a, p.element = some a → d.ancestor? i steps ≠ some a) :
      GivesKey d i [p] p

theorem GivesKey.mem (h : GivesKey d i parents p) : p ∈ parents := by
  cases h with
  | nearest => exact List.mem_append_right _ List.mem_cons_self
  | only => exact List.mem_singleton_self _

theorem eq_nil_of_innermost_eq_none (h : innermost rows = none) : rows = [] := by
  cases rows with
  | nil => rfl
  | cons b rest =>
      unfold innermost at h
      split at h
      · split at h <;> cases h
      · cases h

/-- The innermost row has the largest index, and every later row a smaller one. -/
theorem split_of_innermost (h : innermost rows = some p) :
    ∃ before after, rows = before ++ p :: after ∧
      (∀ q ∈ before, q.element.getD 0 ≤ p.element.getD 0) ∧
      ∀ q ∈ after, q.element.getD 0 < p.element.getD 0 := by
  induction rows generalizing p with
  | nil => cases h
  | cons b rest ih =>
      rw [innermost] at h
      cases hrest : innermost rest with
      | none =>
          rw [hrest] at h
          obtain rfl := Option.some.inj h
          obtain rfl := eq_nil_of_innermost_eq_none hrest
          exact ⟨[], [], rfl, List.forall_mem_nil _, List.forall_mem_nil _⟩
      | some best =>
          -- `b` stands before all of `rest`, so it only wins over `best` if it is strictly larger.
          obtain ⟨before, after, hsplit, hbefore, hafter⟩ := ih hrest
          simp only [hrest] at h
          by_cases hle : b.element.getD 0 ≤ best.element.getD 0
          · rw [if_pos hle] at h
            obtain rfl := Option.some.inj h
            refine ⟨b :: before, after, by rw [hsplit, List.cons_append], ?_, hafter⟩
            exact List.forall_mem_cons.mpr ⟨hle, hbefore⟩
          · rw [if_neg hle] at h
            obtain rfl := Option.some.inj h
            refine ⟨[], rest, rfl, List.forall_mem_nil _, fun q hq => ?_⟩
            rw [hsplit, List.mem_append, List.mem_cons] at hq
            have hmost : q.element.getD 0 ≤ best.element.getD 0 := by
              rcases hq with hq | rfl | hq
              · exact hbefore q hq
              · exact Nat.le_refl _
              · exact Nat.le_of_lt (hafter q hq)
            omega

theorem encloses_iff (hd : d.ParentsPrecede) {b : Built} :
    encloses d i b = true ↔ ∃ a steps, b.element = some a ∧ d.ancestor? i steps = some a := by
  unfold encloses
  rw [Option.any_eq_true]
  constructor
  · rintro ⟨a, ha, hwithin⟩
    obtain ⟨steps, hsteps⟩ := (hd.isWithin_iff i a).mp hwithin
    exact ⟨a, steps, ha, hsteps⟩
  · rintro ⟨a, steps, ha, hsteps⟩
    exact ⟨a, ha, (hd.isWithin_iff i a).mpr ⟨steps, hsteps⟩⟩

/-- The innermost of the rows around an element is the nearest of them. -/
theorem givesKey_of_innermost (hd : d.ParentsPrecede)
    (h : innermost (parents.filter (encloses d i)) = some p) : GivesKey d i parents p := by
  obtain ⟨before, after, hsplit, hbefore, hafter⟩ := split_of_innermost h
  -- The other rows stand between these, and none of them is around the element.
  obtain ⟨first, second, rfl, hfirst, hsecond⟩ := List.filter_eq_append_iff.mp hsplit
  obtain ⟨skipped, rest, rfl, -, hp, hrest⟩ := List.filter_eq_cons_iff.mp hsecond
  obtain ⟨a, steps, hpa, hsteps⟩ := (encloses_iff hd).mp hp
  have hbound : ∀ q ∈ (first ++ (skipped ++ p :: rest)).filter (encloses d i),
      q.element.getD 0 ≤ a := by
    intro q hq
    rw [hsplit, List.mem_append, List.mem_cons] at hq
    rw [hpa] at hbefore hafter
    rcases hq with hq | rfl | hq
    · exact hbefore q hq
    · rw [hpa]; exact Nat.le_refl a
    · exact Nat.le_of_lt (hafter q hq)
  rw [← List.append_assoc] at hbound ⊢
  refine .nearest hpa hsteps ?_ ?_
  · -- A nearer element would have a larger index than the largest.
    intro q hq fewer hfewer b hqb hb
    have hencloses : encloses d i q = true := (encloses_iff hd).mpr ⟨b, fewer, hqb, hb⟩
    have hle := hbound q (List.mem_filter.mpr ⟨hq, hencloses⟩)
    rw [hqb, Option.getD_some] at hle
    have hlt := hd.ancestor?_lt hfewer hb hsteps
    omega
  · intro q hq hqa
    have hencloses : encloses d i q = true := (encloses_iff hd).mpr ⟨a, steps, hqa, hsteps⟩
    have hmem : q ∈ after := by
      rw [← hrest]
      exact List.mem_filter.mpr ⟨hq, hencloses⟩
    have hlt := hafter q hmem
    rw [hqa, hpa] at hlt
    exact Nat.lt_irrefl _ hlt

theorem givesKey_of_parent? (hd : d.ParentsPrecede) (h : parent? d (some i) parents = some p) :
    GivesKey d i parents p := by
  simp only [parent?, Option.bind_some] at h
  split at h
  · next b hinnermost =>
      obtain rfl := Option.some.inj h
      exact givesKey_of_innermost hd hinnermost
  · next b hinnermost =>
      obtain rfl := Option.some.inj h
      refine .only fun steps a ha hsteps => ?_
      have hencloses := (encloses_iff hd).mpr ⟨a, steps, ha, hsteps⟩
      have hnone := eq_nil_of_innermost_eq_none hinnermost
      rw [List.filter_eq_nil_iff] at hnone
      exact hnone b (List.mem_singleton_self b) hencloses
  · cases h

end Built

/-- A key that is not missing is what the chosen parent has in the key column. -/
theorem Relationship.parent_of_key {r : Relationship} {d : Document} {element : Option Nat}
    {built : List Built} {v : Value} (h : r.key d element built = v) (hv : v.isNull = false) :
    ∃ p, Built.parent? d element (r.parents built) = some p ∧
      p.record.get? r.parentKey = some v := by
  unfold key at h
  cases hparent : Built.parent? d element (r.parents built) with
  | none =>
      rw [hparent] at h
      subst h
      cases hv
  | some p =>
      rw [hparent] at h
      refine ⟨p, rfl, ?_⟩
      simp only [Record.getOrNull] at h
      cases hget : p.record.get? r.parentKey with
      | none =>
          rw [hget] at h
          subst h
          cases hv
      | some w =>
          rw [hget] at h
          exact congrArg some h

/-- Whether the mappings of a table write a column: one has it as its target, or appends rows that
have their name or value there. -/
def Contract.Writes (c : Contract) (table column : String) : Prop :=
  ∃ m ∈ c.mappingsFor table, m.targetColumn = column ∨
    ∃ verb name, m.rowOperation?.bind Operation.row? = some (verb, name) ∧
      (verb.keyColumn = column ∨ verb.valueColumn = column)

namespace Site

variable {s : Site} {anchor : Nat} {built : List Built} {column : String} {v : Value}

/-- What a row has in a column that no mapping of its table writes is a foreign key of it. -/
theorem mem_foreignKeys_of_mem_entityRows {table : String} {record : Record}
    {outs : List (FieldMapping × Resolved)}
    (houts : s.outcomes anchor (s.contract.mappingsFor table) record = .ok outs) {b : Built}
    (hb : b ∈ s.entityRows table built anchor outs)
    (hcolumn : ¬ s.contract.Writes b.record.table column)
    (hv : b.record.get? column = some v) :
    (column, v) ∈ s.foreignKeys built b.record.table (some (b.element.getD anchor)) := by
  unfold entityRows at hb
  rcases List.mem_append.mp hb with hb | hb
  · split at hb
    · obtain rfl := List.mem_singleton.mp hb
      rcases Fields.mem_or_get?_of_get?_setAll hv with hmem | hnone
      · rcases List.mem_append.mp hmem with hkey | hfilled
        · exact hkey
        · obtain ⟨m, hm, htarget, -⟩ := mem_filled_iff.mp hfilled
          exact absurd ⟨m, (resolution_of_mem_outcomes houts hm).1, .inl htarget⟩ hcolumn
      · cases hnone
    · cases hb
  · obtain ⟨⟨m, o⟩, hm, ho⟩ := List.mem_filterMap.mp hb
    obtain ⟨hrule, record', hresolved⟩ := resolution_of_mem_outcomes houts hm
    cases o with
    | column w => cases ho
    | noRow => cases ho
    | row r =>
        obtain rfl := Option.some.inj ho
        obtain ⟨-, name, hverb⟩ := row_of_resolution hresolved
        have hrow : ¬ s.contract.Writes r.table column := hcolumn
        rw [table_of_mem_outcomes houts hm] at hrow
        have hkeyColumn : column ≠ r.verb.keyColumn := by
          rintro rfl
          exact hrow ⟨m, hrule, .inr ⟨_, name, hverb, .inl rfl⟩⟩
        have hvalueColumn : column ≠ r.verb.valueColumn := by
          rintro rfl
          exact hrow ⟨m, hrule, .inr ⟨_, name, hverb, .inr rfl⟩⟩
        -- Name and value are set after the keys, but elsewhere.
        have hkeys : ((Record.empty r.table).setAll (s.foreignKeys built r.table
            (((m.source? s.document anchor).map Prod.snd).or (some anchor)))).get? column =
            some v := by
          rw [← hv]
          exact ((Fields.get?_set_of_ne _ _ hvalueColumn).trans
            (Fields.get?_set_of_ne _ _ hkeyColumn)).symm
        have helement : ((m.source? s.document anchor).map Prod.snd).or (some anchor) =
            some (((m.source? s.document anchor).map Prod.snd).getD anchor) := by
          cases m.source? s.document anchor <;> rfl
        rw [helement] at hkeys
        rcases Fields.mem_or_get?_of_get?_setAll hkeys with hmem | hnone
        · exact hmem
        · cases hnone

end Site

/-- The value of a column of a row of the element at `i` is the key, and not missing, of a row of
the parent table of some link: the one that gives it among those that stand before. -/
def Contract.TakesKey (c : Contract) (d : Document) (earlier : List Built) (i : Nat)
    (row : Record) (column : String) (v : Value) : Prop :=
  ∃ r ∈ c.relationships, r.childTable = row.table ∧ r.foreignKeyColumn = column ∧
    ∃ p ∈ earlier, p.record.table = r.parentTable ∧ p.record.get? r.parentKey = some v ∧
      v.isNull = false ∧ Built.GivesKey d i (r.parents earlier) p

/-- Foreign keys come from the right parent.  The records of a document are the rows of its
entities, and what a row has in a column that no mapping of its table writes is a key that it takes
from the rows of the entities before it. -/
theorem Contract.records_takeKey (c : Contract) {d : Document} {records : List Record}
    (hd : d.ParentsPrecede) (h : (c.records d).run.value = .ok records) :
    ∃ done, Site.history ⟨c, d⟩ = .ok done ∧
      records = (done.flatMap Site.Stage.rows).map Built.record ∧
      ∀ before stage after, done = before ++ stage :: after → ∀ b ∈ stage.rows, ∀ column v,
        ¬ c.Writes b.record.table column → b.record.get? column = some v →
          c.TakesKey d (before.flatMap Site.Stage.rows) (b.element.getD stage.anchor) b.record
            column v := by
  obtain ⟨done, hdone, hrecords⟩ := Site.history_of_records h
  refine ⟨done, hdone, hrecords, ?_⟩
  intro before stage after hsplit b hb column v hcolumn hv
  have hstage : stage ∈ done := by
    rw [hsplit]
    exact List.mem_append_right _ List.mem_cons_self
  have hearlier := Site.history_earlier hdone hsplit
  obtain ⟨outs, houts, hrows⟩ := Site.history_outcomes hdone hstage
  rw [hrows] at hb
  have hkey := Site.mem_foreignKeys_of_mem_entityRows houts hb hcolumn hv
  obtain ⟨r, hr, htable, hfk, hvalue, hnull⟩ := Site.mem_foreignKeys_iff.mp hkey
  obtain ⟨p, hp, hget⟩ := Relationship.parent_of_key hvalue hnull
  rw [hearlier] at hp
  have hgives := Built.givesKey_of_parent? hd hp
  obtain ⟨hmem, hparent⟩ := List.mem_filter.mp hgives.mem
  exact ⟨r, hr, htable, hfk, p, hmem, beq_iff_eq.mp hparent, hget, hnull, hgives⟩

/-! ### Addresses of contacts -/

def addressBook : Contract where
  tableInsertionOrder := ["contact_base", "contact_address"]
  elementFiltering :=
    { filterRules :=
        [{ elementType := "contact", xmlPath := "/app/contact" },
         { elementType := "address", xmlPath := "/app/contact/address" }] }
  relationships :=
    [{ parentTable := "contact_base", childTable := "contact_address"
       foreignKeyColumn := "con_id" }]
  mappings :=
    [{ sourcePath := "/app/contact/@con_id", targetTable := "contact_base"
       targetColumn := "con_id" },
     { sourcePath := "/app/contact/address/@city", targetTable := "contact_address"
       targetColumn := "city" }]

def twoAddresses : Document where
  elements :=
    [{ path := "/app" },
     { path := "/app/contact", attributes := [("con_id", "1")], parent := some 0 },
     { path := "/app/contact/address", attributes := [("city", "Oslo")], parent := some 1 },
     { path := "/app/contact", attributes := [("con_id", "2")], parent := some 0 },
     { path := "/app/contact/address", attributes := [("city", "Rome")], parent := some 3 }]

/-- Each address takes the key of its own contact. -/
theorem addressBook_takesKeys :
    ∃ records, (addressBook.records twoAddresses).run.value = .ok records ∧
      (records.map fun r => (r.table, r.columns)) =
        [("contact_base", [("con_id", .text "1")]), ("contact_base", [("con_id", .text "2")]),
         ("contact_address", [("con_id", .text "1"), ("city", .text "Oslo")]),
         ("contact_address", [("con_id", .text "2"), ("city", .text "Rome")])] ∧
      ∃ done, Site.history ⟨addressBook, twoAddresses⟩ = .ok done ∧
        records = (done.flatMap Site.Stage.rows).map Built.record ∧
        ∀ before stage after, done = before ++ stage :: after → ∀ b ∈ stage.rows, ∀ column v,
          ¬ addressBook.Writes b.record.table column → b.record.get? column = some v →
            addressBook.TakesKey twoAddresses (before.flatMap Site.Stage.rows)
              (b.element.getD stage.anchor) b.record column v := by
  have hprecede : twoAddresses.ParentsPrecede := by decide
  have hrun : ((addressBook.records twoAddresses).run.value.toOption.any fun records =>
      decide ((records.map fun r => (r.table, r.columns)) =
        [("contact_base", [("con_id", .text "1")]), ("contact_base", [("con_id", .text "2")]),
         ("contact_address", [("con_id", .text "1"), ("city", .text "Oslo")]),
         ("contact_address", [("con_id", .text "2"), ("city", .text "Rome")])])) = true := by
    decide +kernel
  obtain ⟨records, hrecords, hcolumns⟩ := any_toOption_iff.mp hrun
  exact ⟨records, hrecords, of_decide_eq_true hcolumns,
    Contract.records_takeKey addressBook hprecede hrecords⟩

end RowContract
