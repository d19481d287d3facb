import RowContract.Proofs.Document.Outline
import RowContract.Proofs.Entity.Build

/-!
What an entity owes to the elements that its rules do not read.  Two documents are
compared that have the same elements at the same places, and differ in the attributes of
those inside one of them only.  A rule finds its element by places alone, so it reads the
same in both documents unless what it reads is inside that one.  Without links and
without operations that look at contacts nothing else goes into the rows of an entity:
neither the entities before it nor the rest of the document.
-/

namespace RowContract

/-! ### What rules read -/

namespace Document

/-- A rule finds its element at the same place in both documents. -/
theorem source?_outline {d₁ d₂ : Document}
    (h : d₁.elements.map Element.outline = d₂.elements.map Element.outline) (m : FieldMapping)
    (anchor : Nat) :
    (m.source? d₁ anchor).map outlineEntry = (m.source? d₂ anchor).map outlineEntry := by
  have hfirst : (d₁.first? m.elementPath).map outlineEntry =
      (d₂.first? m.elementPath).map outlineEntry :=
    find?_outline h fun x => x.1.1 == m.elementPath
  have hwithin : (d₁.firstWithin? m.elementPath anchor).map outlineEntry =
      (d₂.firstWithin? m.elementPath anchor).map outlineEntry := by
    unfold firstWithin?
    simp only [isWithin_eq_of_outline h]
    exact find?_outline h fun x => x.1.1 == m.elementPath && d₂.isWithin x.2 anchor
  unfold FieldMapping.source?
  rw [Option.map_or, Option.map_or, Option.map_or, Option.map_or, hwithin, hfirst]
  congr 2
  have hself := element?_outline h anchor
  cases h₁ : d₁.element? anchor with
  | none =>
      rw [h₁] at hself
      rw [Option.map_eq_none_iff.mp hself.symm]
  | some e₁ =>
      rw [h₁] at hself
      obtain ⟨e₂, h₂, houtline⟩ := Option.map_eq_some_iff.mp hself.symm
      have hpath : e₂.path = e₁.path := congrArg Prod.fst houtline
      simp only [h₂, hpath]
      split
      · exact congrArg (fun o => some (o, anchor)) houtline.symm
      · rfl

/-- What a rule reads stands in the document. -/
theorem element?_of_source? {d : Document} {m : FieldMapping} {anchor : Nat} {e : Element} {i : Nat}
    (h : m.source? d anchor = some (e, i)) : d.element? i = some e := by
  unfold FieldMapping.source? at h
  rw [Option.or_eq_some_iff, Option.or_eq_some_iff] at h
  rcases h with (h | ⟨-, h⟩) | ⟨-, h⟩
  · cases hanchor : d.element? anchor with
    | none => rw [hanchor] at h; cases h
    | some first =>
        simp only [hanchor] at h
        split at h
        · obtain ⟨rfl, rfl⟩ := Prod.mk.inj (Option.some.inj h)
          exact hanchor
        · cases h
  · exact element?_of_mem_entries (List.mem_of_find?_eq_some h)
  · exact element?_of_mem_entries (List.mem_of_find?_eq_some h)

/-- A rule reads the same in both documents unless it reads inside the scope. -/
theorem AgreeOutside.source?_eq {scope : Nat} {d₁ d₂ : Document} (h : AgreeOutside d₁ scope d₂)
    {m : FieldMapping} {anchor : Nat}
    (hread : ∀ entry ∈ m.source? d₁ anchor, d₁.isWithin entry.2 scope = false) :
    m.source? d₁ anchor = m.source? d₂ anchor := by
  have hplace := source?_outline h.outline m anchor
  cases h₁ : m.source? d₁ anchor with
  | none =>
      rw [h₁] at hplace
      exact (Option.map_eq_none_iff.mp hplace.symm).symm
  | some entry =>
      obtain ⟨e, i⟩ := entry
      rw [h₁] at hplace
      obtain ⟨⟨e', i'⟩, h₂, hentry⟩ := Option.map_eq_some_iff.mp hplace.symm
      obtain rfl : i' = i := congrArg Prod.snd hentry
      have he := element?_of_source? h₁
      have he' := element?_of_source? h₂
      have hi : i' < d₁.size := (List.getElem?_eq_some_iff.mp he).1
      have hsame := h.outside i' hi (hread _ h₁)
      rw [he, he'] at hsame
      rw [h₂, Option.some.inj hsame]

end Document

/-! ### Chains that look at no contacts -/

namespace ChainContext

variable (ctx : ChainContext) (contacts : Option ContactSource)

theorem applyOperation_contacts {op : Operation} (h : op.contactRole? = none) (v : Value) :
    ({ ctx with contacts := contacts } : ChainContext).applyOperation op v =
      ctx.applyOperation op v := by
  cases op with
  | lastValidContact role => cases h
  | _ => rfl

/-- A chain without operations that look at contacts resolves alike whatever they are. -/
theorem resolve_contacts (h : ∀ op ∈ ctx.mapping.chain, op.contactRole? = none) (raw : Value) :
    ({ ctx with contacts := contacts } : ChainContext).resolve raw = ctx.resolve raw :=
  resolve_congr rfl fun hreach =>
    applyOperation_contacts ctx contacts (h _ (hreach.ahead_suffix.subset List.mem_cons_self)) _

end ChainContext

/-- A table whose rows owe nothing to the rows of others, and whose rules look at no contacts. -/
structure Contract.StandsAlone (c : Contract) (table : String) : Prop where
  unlinked : ∀ r ∈ c.relationships, r.childTable ≠ table
  noContacts : ∀ m ∈ c.mappingsFor table, ∀ op ∈ m.chain, op.contactRole? = none

instance (c : Contract) (table : String) : Decidable (c.StandsAlone table) :=
  decidable_of_iff ((∀ r ∈ c.relationships, r.childTable ≠ table) ∧
      ∀ m ∈ c.mappingsFor table, ∀ op ∈ m.chain, op.contactRole? = none)
    ⟨fun h => ⟨h.1, h.2⟩, fun h => ⟨h.unlinked, h.noContacts⟩⟩

namespace Site

variable {c : Contract} {table : String} {d₁ d₂ : Document} {anchor : Nat}

theorem resolution_eq {m : FieldMapping} (hsource : m.source? d₁ anchor = m.source? d₂ anchor)
    (hchain : ∀ op ∈ m.chain, op.contactRole? = none) (record : Record) :
    resolution ⟨c, d₁⟩ anchor m record = resolution ⟨c, d₂⟩ anchor m record := by
  unfold resolution
  rw [hsource]
  exact congrArg (fun x => x.run.value)
    (ChainContext.resolve_contacts ⟨c, m, _, some (contacts ⟨c, d₂⟩)⟩ _ hchain _)

theorem outcomes_eq {rules : List FieldMapping}
    (hsource : ∀ m ∈ rules, m.source? d₁ anchor = m.source? d₂ anchor)
    (hchain : ∀ m ∈ rules, ∀ op ∈ m.chain, op.contactRole? = none) (record : Record) :
    outcomes ⟨c, d₁⟩ anchor rules record = outcomes ⟨c, d₂⟩ anchor rules record := by
  induction rules generalizing record with
  | nil => rfl
  | cons m rest ih =>
      rw [List.forall_mem_cons] at hsource hchain
      unfold outcomes
      rw [resolution_eq hsource.1 hchain.1]
      simp only [ih hsource.2 hchain.2]

/-- Whatever was built before, an entity has the same rows in both documents if its rules read the
same. -/
theorem entityRows_eq (halone : c.StandsAlone table)
    (hsource : ∀ m ∈ c.mappingsFor table, m.source? d₁ anchor = m.source? d₂ anchor)
    {record : Record} {outs : List (FieldMapping × Resolved)}
    (houts : outcomes ⟨c, d₁⟩ anchor (c.mappingsFor table) record = .ok outs)
    (built₁ built₂ : List Built) :
    entityRows ⟨c, d₁⟩ table built₁ anchor outs = entityRows ⟨c, d₂⟩ table built₂ anchor outs := by
  have hkeys₁ := foreignKeys_eq_nil ⟨c, d₁⟩ halone.unlinked built₁
  have hkeys₂ := foreignKeys_eq_nil ⟨c, d₂⟩ halone.unlinked built₂
  have happended : appended ⟨c, d₁⟩ built₁ anchor outs = appended ⟨c, d₂⟩ built₂ anchor outs := by
    refine List.filterMap_congr ?_
    rintro ⟨m, o⟩ hm
    cases o with
    | column v => rfl
    | noRow => rfl
    | row r =>
        have hrule := (resolution_of_mem_outcomes houts hm).1
        have htable : r.table = table := table_of_mem_outcomes houts hm
        have hrow : appendedRow ⟨c, d₁⟩ built₁ anchor m r =
            appendedRow ⟨c, d₂⟩ built₂ anchor m r := by
          simp only [appendedRow, htable, hkeys₁, hkeys₂, hsource m hrule]
        exact congrArg some hrow
  unfold entityRows
  rw [hkeys₁, hkeys₂, happended]

def Builds (done : List Stage) (table : String) (anchor : Nat) (rows : List Built) : Prop :=
  (∃ stage ∈ done, stage.table = table ∧ stage.anchor = anchor) ∧
    ∀ stage ∈ done, stage.table = table → stage.anchor = anchor → stage.rows = rows

/-- The rows of an entity that stands alone are made from what its rules resolve to beside an empty
record. -/
theorem history_builds {s : Site} {done : List Stage} (h : s.history = .ok done) {table : String}
    {anchor : Nat} (hanchor : anchor ∈ s.contract.anchors s.document (s.contract.mappingsFor table))
    (hlinks : ∀ r ∈ s.contract.relationships, r.childTable ≠ table) :
    (∃ stage ∈ done, stage.table = table ∧ stage.anchor = anchor) ∧
      ∀ stage ∈ done, stage.table = table → stage.anchor = anchor → ∃ outs,
        s.outcomes anchor (s.contract.mappingsFor table) (Record.empty table) = .ok outs ∧
        stage.rows = s.entityRows table stage.earlier anchor outs := by
  constructor
  · have hentity := mem_entities hanchor
    rw [← history_entities h] at hentity
    obtain ⟨stage, hstage, heq⟩ := List.mem_map.mp hentity
    exact ⟨stage, hstage, Prod.mk.inj heq⟩
  · rintro stage hstage rfl rfl
    obtain ⟨outs, houts, hrows⟩ := history_outcomes h hstage
    rw [foreignKeys_eq_nil s hlinks] at houts
    exact ⟨outs, houts, hrows⟩

theorem builds_of_source?_eq {c : Contract} {table : String} {d₁ d₂ : Document} {anchor : Nat}
    (halone : c.StandsAlone table)
    (hanchor₁ : anchor ∈ c.anchors d₁ (c.mappingsFor table))
    (hanchor₂ : anchor ∈ c.anchors d₂ (c.mappingsFor table))
    (hsource : ∀ m ∈ c.mappingsFor table, m.source? d₁ anchor = m.source? d₂ anchor)
    {done₁ done₂ : List Stage} (h₁ : history ⟨c, d₁⟩ = .ok done₁)
    (h₂ : history ⟨c, d₂⟩ = .ok done₂) :
    ∃ rows, Builds done₁ table anchor rows ∧ Builds done₂ table anchor rows := by
  obtain ⟨hbuilt₁, hrows₁⟩ := history_builds h₁ hanchor₁ halone.unlinked
  obtain ⟨hbuilt₂, hrows₂⟩ := history_builds h₂ hanchor₂ halone.unlinked
  -- What stands before an entity does not matter without links, so the rows are those it has
  -- with nothing before it in the first document.
  obtain ⟨stage, hstage, htable, hat⟩ := hbuilt₁
  obtain ⟨outs, houts, -⟩ := hrows₁ stage hstage htable hat
  refine ⟨entityRows ⟨c, d₁⟩ table [] anchor outs, ⟨⟨stage, hstage, htable, hat⟩, ?_⟩, hbuilt₂, ?_⟩
  · intro stage hstage htable hat
    obtain ⟨outs', houts', hrows⟩ := hrows₁ stage hstage htable hat
    obtain rfl : outs' = outs := Except.ok.inj (houts'.symm.trans houts)
    rw [hrows]
    exact entityRows_eq halone (fun m _ => rfl) houts stage.earlier []
  · intro stage hstage htable hat
    obtain ⟨outs', houts', hrows⟩ := hrows₂ stage hstage htable hat
    rw [← outcomes_eq hsource halone.noContacts] at houts'
    obtain rfl : outs' = outs := Except.ok.inj (houts'.symm.trans houts)
    rw [hrows]
    exact (entityRows_eq halone hsource houts [] stage.earlier).symm

end Site

/-- Entities of a table that stands alone do not leak into each other through what they do not read.
Where two documents differ only in attributes inside one element, and the table selects the same
elements in both, an entity has the same rows in both if no rule reads inside that element for it.
-/
theorem Contract.records_isolated (c : Contract) {table : String} {scope : Nat}
    {d₁ d₂ : Document} {records₁ records₂ : List Record} (halone : c.StandsAlone table)
    (hagree : d₁.AgreeOutside scope d₂)
    (hanchors : c.anchors d₁ (c.mappingsFor table) = c.anchors d₂ (c.mappingsFor table))
    (h₁ : (c.records d₁).run.value = .ok records₁)
    (h₂ : (c.records d₂).run.value = .ok records₂) :
    ∃ done₁ done₂, Site.history ⟨c, d₁⟩ = .ok done₁ ∧ Site.history ⟨c, d₂⟩ = .ok done₂ ∧
      records₁ = (done₁.flatMap Site.Stage.rows).map Built.record ∧
      records₂ = (done₂.flatMap Site.Stage.rows).map Built.record ∧
      ∀ anchor ∈ c.anchors d₁ (c.mappingsFor table),
        (∀ m ∈ c.mappingsFor table, ∀ entry ∈ m.source? d₁ anchor,
          d₁.isWithin entry.2 scope = false) →
        ∃ rows, Site.Builds done₁ table anchor rows ∧ Site.Builds done₂ table anchor rows := by
  obtain ⟨done₁, hdone₁, hrecords₁⟩ := Site.history_of_records h₁
  obtain ⟨done₂, hdone₂, hrecords₂⟩ := Site.history_of_records h₂
  refine ⟨done₁, done₂, hdone₁, hdone₂, hrecords₁, hrecords₂, fun anchor hanchor hread => ?_⟩
  have hsource (m) (hm : m ∈ c.mappingsFor table) : m.source? d₁ anchor = m.source? d₂ anchor :=
    hagree.source?_eq (hread m hm)
  exact Site.builds_of_source?_eq halone hanchor (hanchors ▸ hanchor) hsource hdone₁ hdone₂

/-! ### Two contacts -/

def directory : Json :=
  let mapping := fun path column : String =>
    Json.object [("source_path", .string path), ("target_table", .string "contact_base"),
      ("target_column", .string column)]
  .object
    [("element_filtering", .object
       [("filter_rules", .array
         [.object
           [("element_type", .string "contact"), ("xml_path", .string "/app/contact"),
            ("required_attributes", .object [("con_id", .bool true)]),
            ("identity_attribute", .string "con_id")]])]),
     ("mappings", .array
       [mapping "/app/contact/@con_id" "con_id", mapping "/app/contact/address/@city" "city"])]

/-- A contact with an address in some city, and a second contact with the addresses given. -/
def neighbours (city : String) (others : List Element) : Document where
  elements :=
    [{ path := "/app/contact", attributes := [("con_id", "1")] },
     { path := "/app/contact/address", attributes := [("city", city)], parent := some 0 },
     { path := "/app/contact", attributes := [("con_id", "2")] }] ++ others

def ownAddress : Element where
  path := "/app/contact/address"
  attributes := [("city", "Bonn")]
  parent := some 2

/-- A contact with an address is the same wherever another one lives. -/
theorem directory_isolated :
    ∃ c, Contract.ofDocument directory = .ok c ∧
      ∃ records₁ records₂,
        (c.records (neighbours "Oslo" [ownAddress])).run.value = .ok records₁ ∧
        (c.records (neighbours "Rome" [ownAddress])).run.value = .ok records₂ ∧
        ∃ done₁ done₂, Site.history ⟨c, neighbours "Oslo" [ownAddress]⟩ = .ok done₁ ∧
          Site.history ⟨c, neighbours "Rome" [ownAddress]⟩ = .ok done₂ ∧
          ∃ rows, Site.Builds done₁ "contact_base" 2 rows ∧
            Site.Builds done₂ "contact_base" 2 rows := by
  have hagree :
      (neighbours "Oslo" [ownAddress]).AgreeOutside 0 (neighbours "Rome" [ownAddress]) := by
    decide
  have hrun : ((Contract.ofDocument directory).toOption.any fun c =>
      decide (c.StandsAlone "contact_base" ∧
        c.anchors (neighbours "Oslo" [ownAddress]) (c.mappingsFor "contact_base") = [0, 2] ∧
        c.anchors (neighbours "Rome" [ownAddress]) (c.mappingsFor "contact_base") = [0, 2] ∧
        ∀ m ∈ c.mappingsFor "contact_base", ∀ entry ∈ m.source? (neighbours "Oslo" [ownAddress]) 2,
          (neighbours "Oslo" [ownAddress]).isWithin entry.2 0 = false) &&
      ((c.records (neighbours "Oslo" [ownAddress])).run.value.toOption.any fun _ => true) &&
      (c.records (neighbours "Rome" [ownAddress])).run.value.toOption.any fun _ => true) =
        true := by
    decide +kernel
  obtain ⟨c, hc, hrun⟩ := any_toOption_iff.mp hrun
  rw [Bool.and_eq_true, Bool.and_eq_true, decide_eq_true_eq] at hrun
  obtain ⟨⟨⟨halone, hanchors₁, hanchors₂, hread⟩, hrun₁⟩, hrun₂⟩ := hrun
  obtain ⟨records₁, h₁, -⟩ := any_toOption_iff.mp hrun₁
  obtain ⟨records₂, h₂, -⟩ := any_toOption_iff.mp hrun₂
  obtain ⟨done₁, done₂, hdone₁, hdone₂, -, -, hrows⟩ :=
    c.records_isolated halone hagree (hanchors₁.trans hanchors₂.symm) h₁ h₂
  have hanchor : 2 ∈ c.anchors (neighbours "Oslo" [ownAddress]) (c.mappingsFor "contact_base") := by
    rw [hanchors₁]
    decide
  exact ⟨c, hc, records₁, records₂, h₁, h₂, done₁, done₂, hdone₁, hdone₂, hrows 2 hanchor hread⟩

/-- A contact without an address takes the city of the first address, which is inside the other
contact. -/
theorem directory_leaks :
    ∃ c, Contract.ofDocument directory = .ok c ∧
      (c.entityRule? (c.mappingsFor "contact_base")).isSome = true ∧
      c.StandsAlone "contact_base" ∧
      (neighbours "Oslo" []).AgreeOutside 0 (neighbours "Rome" []) ∧
      c.anchors (neighbours "Oslo" []) (c.mappingsFor "contact_base") = [0, 2] ∧
      c.anchors (neighbours "Rome" []) (c.mappingsFor "contact_base") = [0, 2] ∧
      ∃ done₁, Site.history ⟨c, neighbours "Oslo" []⟩ = .ok done₁ ∧
        ∃ done₂, Site.history ⟨c, neighbours "Rome" []⟩ = .ok done₂ ∧
          ∃ stage₁ ∈ done₁, ∃ stage₂ ∈ done₂,
            stage₁.table = "contact_base" ∧ stage₁.anchor = 2 ∧
            stage₂.table = "contact_base" ∧ stage₂.anchor = 2 ∧
            (stage₁.rows.map fun b => b.record.columns) =
              [[("con_id", .text "2"), ("city", .text "Oslo")]] ∧
            (stage₂.rows.map fun b => b.record.columns) =
              [[("con_id", .text "2"), ("city", .text "Rome")]] := by
  have hagree : (neighbours "Oslo" []).AgreeOutside 0 (neighbours "Rome" []) := by decide
  have hrun : ((Contract.ofDocument directory).toOption.any fun c =>
      decide ((c.entityRule? (c.mappingsFor "contact_base")).isSome = true ∧
        c.StandsAlone "contact_base" ∧
        c.anchors (neighbours "Oslo" []) (c.mappingsFor "contact_base") = [0, 2] ∧
        c.anchors (neighbours "Rome" []) (c.mappingsFor "contact_base") = [0, 2]) &&
      (Site.history ⟨c, neighbours "Oslo" []⟩).toOption.any fun done₁ =>
      (Site.history ⟨c, neighbours "Rome" []⟩).toOption.any fun done₂ =>
        decide (∃ stage₁ ∈ done₁, ∃ stage₂ ∈ done₂,
          stage₁.table = "contact_base" ∧ stage₁.anchor = 2 ∧
          stage₂.table = "contact_base" ∧ stage₂.anchor = 2 ∧
          (stage₁.rows.map fun b => b.record.columns) =
            [[("con_id", .text "2"), ("city", .text "Oslo")]] ∧
          (stage₂.rows.map fun b => b.record.columns) =
            [[("con_id", .text "2"), ("city", .text "Rome")]])) = true := by
    decide +kernel
  obtain ⟨c, hc, hrun⟩ := any_toOption_iff.mp hrun
  rw [Bool.and_eq_true, decide_eq_true_eq] at hrun
  obtain ⟨⟨hrule, halone, hanchors₁, hanchors₂⟩, hrun⟩ := hrun
  obtain ⟨done₁, hdone₁, hrun⟩ := any_toOption_iff.mp hrun
  obtain ⟨done₂, hdone₂, hrun⟩ := any_toOption_iff.mp hrun
  exact ⟨c, hc, hrule, halone, hagree, hanchors₁, hanchors₂, done₁, hdone₁, done₂, hdone₂,
    of_decide_eq_true hrun⟩

end RowContract
