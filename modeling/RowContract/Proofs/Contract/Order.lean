import RowContract.Contract.Loading
import RowContract.Proofs.Contract.WellFormed

/-!
Contracts with the same entries in another order.  Tables of codes and the requirements of filters
are looked up by name, so the order of their entries bears on no check, and a contract stays well
formed when it changes.
-/

namespace RowContract

/-- The same entries in another order; `same` relates the values under one name. -/
def Fields.Reordered {α : Type} (same : α → α → Prop) (fs gs : Fields α) : Prop :=
  ∃ hs : Fields α, fs.Perm hs ∧ List.Forall₂ (fun e f => e.1 = f.1 ∧ same e.2 f.2) hs gs

structure FilterRule.Reordered (r r' : FilterRule) : Prop where
  requiredAttributes : r.requiredAttributes.Perm r'.requiredAttributes
  rest : r' = { r with requiredAttributes := r'.requiredAttributes }

structure Contract.Reordered (c c' : Contract) : Prop where
  enumMappings : Fields.Reordered List.Perm c.enumMappings c'.enumMappings
  charToBit : c.bitConversions.charToBit.Perm c'.bitConversions.charToBit
  booleanToBit : c.bitConversions.booleanToBit.Perm c'.bitConversions.booleanToBit
  filterRules : List.Forall₂ FilterRule.Reordered c.elementFiltering.filterRules
    c'.elementFiltering.filterRules
  rest : c' = { c with
    enumMappings := c'.enumMappings
    bitConversions := c'.bitConversions
    elementFiltering :=
      { c.elementFiltering with filterRules := c'.elementFiltering.filterRules } }

namespace Fields.Reordered

variable {α : Type} {same : α → α → Prop} {fs gs : Fields α}

theorem refl (hsame : ∀ a, same a a) (fs : Fields α) : Fields.Reordered same fs fs :=
  ⟨fs, .refl fs, List.forall₂_same.mpr fun e _ => ⟨rfl, hsame e.2⟩⟩

theorem perm_names (h : Fields.Reordered same fs gs) : fs.names.Perm gs.names := by
  obtain ⟨hs, hperm, hsame⟩ := h
  have hnames : List.Forall₂ Eq hs.names gs.names := by
    rw [names, names, List.forall₂_map_left_iff, List.forall₂_map_right_iff]
    exact hsame.imp fun _ _ hrel => hrel.1
  rw [List.forall₂_eq_eq_eq] at hnames
  exact hnames ▸ hperm.map Prod.fst

theorem contains_eq (h : Fields.Reordered same fs gs) (name : String) :
    fs.contains name = gs.contains name := by
  rw [contains, contains, Bool.eq_iff_iff, ← mem_names_iff, ← mem_names_iff]
  exact h.perm_names.mem_iff

/-- Each entry stands for one of the same name. -/
theorem exists_mem (h : Fields.Reordered same fs gs) {g : String × α} (hg : g ∈ gs) :
    ∃ f ∈ fs, f.1 = g.1 ∧ same f.2 g.2 := by
  obtain ⟨hs, hperm, hsame⟩ := h
  obtain ⟨f, hf, hrel⟩ := Json.exists_mem_of_forall₂ hsame g hg
  exact ⟨f, hperm.mem_iff.mpr hf, hrel⟩

/-- Under one name stand values that are related. -/
theorem get? (h : Fields.Reordered same fs gs) (hnodup : fs.names.Nodup) (name : String) :
    Option.Rel same (fs.get? name) (gs.get? name) := by
  obtain ⟨hs, hperm, hsame⟩ := h
  rw [← Fields.get?_perm hperm hnodup name]
  clear hperm hnodup
  induction hsame with
  | nil => exact .none
  | @cons e f rest rest' hentry _ ih =>
      obtain ⟨n, v⟩ := e
      obtain ⟨n', v'⟩ := f
      obtain ⟨rfl, hvalue⟩ : n = n' ∧ same v v' := hentry
      rw [Fields.get?_cons, Fields.get?_cons]
      split
      · exact .some hvalue
      · exact ih

end Fields.Reordered

theorem CodeTable.WellFormed.perm {codes codes' : CodeTable} (h : codes.WellFormed)
    (hperm : codes.Perm codes') : codes'.WellFormed where
  nodup := (hperm.map Prod.fst).nodup_iff.mp h.nodup
  fits e he := h.fits e (hperm.mem_iff.mpr he)

theorem CodeTable.IsBitTable.perm {codes codes' : CodeTable} (h : codes.IsBitTable)
    (hperm : codes.Perm codes') : codes'.IsBitTable where
  toWellFormed := h.toWellFormed.perm hperm
  bits e he := h.bits e (hperm.mem_iff.mpr he)

theorem FilterRule.WellFormed.reordered {r r' : FilterRule} (h : r.WellFormed)
    (hr : r.Reordered r') : r'.WellFormed := by
  have hattributes : r'.requiredAttributes.names.Nodup :=
    (hr.requiredAttributes.map Prod.fst).nodup_iff.mp h.requiredAttributes
  rw [hr.rest]
  exact ⟨h.elementType, h.xmlPath, hattributes⟩

namespace Contract

variable {c c' : Contract}

theorem Reordered.refl (c : Contract) : c.Reordered c :=
  ⟨.refl (fun _ => .refl _) _, .refl _, .refl _,
    List.forall₂_same.mpr fun _ _ => ⟨.refl _, rfl⟩, rfl⟩

theorem WellFormed.reordered (h : c.WellFormed) (hc : c.Reordered c') : c'.WellFormed := by
  have hrules : ∀ r ∈ c'.elementFiltering.filterRules, r.WellFormed := by
    intro r hr
    obtain ⟨r', hr', hsame⟩ := Json.exists_mem_of_forall₂ hc.filterRules r hr
    exact (h.elementFiltering.filterRules r' hr').reordered hsame
  have hnodup : c'.enumMappings.names.Nodup := hc.enumMappings.perm_names.nodup_iff.mp h.enumNodup
  have htables : ∀ e ∈ c'.enumMappings, CodeTable.WellFormed e.2 := by
    intro e he
    obtain ⟨e', he', -, hperm⟩ := hc.enumMappings.exists_mem he
    exact (h.enumTables e' he').perm hperm
  have hbits : c'.bitConversions.WellFormed :=
    ⟨h.bitConversions.charToBit.perm hc.charToBit,
      h.bitConversions.booleanToBit.perm hc.booleanToBit⟩
  rw [hc.rest]
  exact {
    targetSchema := h.targetSchema
    orderNames := h.orderNames
    orderNodup := h.orderNodup
    elementFiltering := ⟨hrules, h.elementFiltering.contactPath⟩
    relationships := h.relationships
    enumNodup := hnodup
    enumTables := htables
    bitConversions := hbits
    mappings := h.mappings }

theorem Reordered.mappings_eq (h : c.Reordered c') : c'.mappings = c.mappings := by
  rw [h.rest]

theorem Reordered.expressions_eq (h : c.Reordered c') : c'.expressions = c.expressions := by
  rw [h.rest]

/-- The checks of a contract ask for the names of its tables only. -/
theorem Reordered.check_eq (h : c.Reordered c') : c'.check = c.check := by
  have hoperation : ∀ m op, checkOperation c' m op = checkOperation c m op := by
    intro m op
    cases op with
    | enum => rw [checkOperation, checkOperation, h.enumMappings.contains_eq]
    | _ => rfl
  have hmapping : checkMapping c' = checkMapping c := by
    funext m
    rw [checkMapping, checkMapping, funext (hoperation m)]
  rw [check, check, hmapping, h.mappings_eq]

end Contract

end RowContract
