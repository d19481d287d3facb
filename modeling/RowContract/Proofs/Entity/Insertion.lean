import RowContract.Proofs.Document.Insertion
import RowContract.Proofs.Entity.Correspondence
import RowContract.Proofs.Entity.Parents

/-!
Elements that no rule looks at.  An element whose path neither a rule nor a filter nor the search
for contacts asks for is put into a document, and nothing stands inside it.  Every step of the build
then does the same as before with indices that have moved on: it writes the same log lines, and
gives the same rows, built from elements at the moved places.  So the records are the same, and so
is the error if there is one.
-/

namespace RowContract

/-- No rule, filter or search for contacts asks for the path. -/
structure Contract.Ignores (c : Contract) (path : String) : Prop where
  mappings : ∀ m ∈ c.mappings, path ≠ m.elementPath
  filters : ∀ rule ∈ c.elementFiltering.filterRules, path ≠ rule.xmlPath
  contacts : path ≠ c.contactRoles.contactPath

namespace Built

variable {d : Document} {k : Nat} {e : Element}

theorem encloses_moved (h : d.TakesLeaf k e) (i : Nat) (b : Built) :
    (b.moved (shift k)).encloses (d.insertAt k e) (shift k i) = b.encloses d i := by
  unfold encloses moved
  rw [Option.any_map]
  simp only [h.isWithin_shift]

/-- The innermost row is chosen by the order of the elements, which stays. -/
theorem innermost_moved (k : Nat) {rows : List Built} (h : ∀ b ∈ rows, b.element.isSome = true) :
    innermost (rows.map (moved (shift k))) = (innermost rows).map (moved (shift k)) := by
  induction rows with
  | nil => rfl
  | cons b rest ih =>
      obtain ⟨hb, hrest⟩ := List.forall_mem_cons.mp h
      rw [List.map_cons, innermost, innermost, ih hrest]
      cases hbest : innermost rest with
      | none => rfl
      | some best =>
          obtain ⟨before, after, hsplit, -⟩ := split_of_innermost hbest
          have hmem : best ∈ rest := by
            rw [hsplit]
            exact List.mem_append_right _ List.mem_cons_self
          obtain ⟨i, hi⟩ := Option.isSome_iff_exists.mp hb
          obtain ⟨j, hj⟩ := Option.isSome_iff_exists.mp (hrest best hmem)
          simp only [Option.map_some, moved, hi, hj, Option.getD_some, shift_le_shift_iff]
          split <;> simp [moved, hi, hj]

/-- A row takes its key from the same row. -/
theorem parent?_moved (h : d.TakesLeaf k e) (element : Option Nat) (parents : List Built) :
    parent? (d.insertAt k e) (element.map (shift k)) (parents.map (moved (shift k))) =
      (parent? d element parents).map (moved (shift k)) := by
  have henclosing : ((element.map (shift k)).bind fun i =>
      innermost ((parents.map (moved (shift k))).filter (encloses (d.insertAt k e) i))) =
      (element.bind fun i => innermost (parents.filter (encloses d i))).map (moved (shift k)) := by
    cases element with
    | none => rfl
    | some i =>
        have hfilter :
            (parents.map (moved (shift k))).filter (encloses (d.insertAt k e) (shift k i)) =
              (parents.filter (encloses d i)).map (moved (shift k)) := by
          rw [List.filter_map]
          refine congrArg (List.map _) (List.filter_congr fun b _ => ?_)
          exact encloses_moved h i b
        show innermost (List.filter _ _) = Option.map _ (innermost _)
        rw [hfilter]
        refine innermost_moved k fun b hb => ?_
        obtain ⟨p, hp, -⟩ := (Option.any_eq_true _ _).mp (List.mem_filter.mp hb).2
        rw [hp]
        rfl
  unfold parent?
  rw [henclosing]
  cases element.bind fun i => innermost (parents.filter (encloses d i)) with
  | some b => rfl
  | none =>
      rcases parents with _ | ⟨only, _ | ⟨second, rest⟩⟩ <;> rfl

end Built

section
variable {d : Document} {k : Nat} {e : Element} (h : d.TakesLeaf k e)
include h

theorem Relationship.keyColumn_shifted (r : Relationship) (element : Option Nat)
    (built : List Built) :
    r.keyColumn (d.insertAt k e) (element.map (shift k)) (built.map (Built.moved (shift k))) =
      r.keyColumn d element built := by
  have hparents : r.parents (built.map (Built.moved (shift k))) =
      (r.parents built).map (Built.moved (shift k)) := List.filter_map
  have hkey : r.key (d.insertAt k e) (element.map (shift k)) (built.map (Built.moved (shift k))) =
      r.key d element built := by
    unfold key
    rw [hparents, Built.parent?_moved h]
    cases Built.parent? d element (r.parents built) <;> rfl
  unfold keyColumn
  rw [hkey, hparents, List.isEmpty_map]

theorem Contract.parentKeys_shifted (c : Contract) (table : String) (element : Option Nat)
    (built : List Built) :
    c.parentKeys (d.insertAt k e) table (element.map (shift k))
        (built.map (Built.moved (shift k))) =
      c.parentKeys d table element built := by
  unfold parentKeys
  induction c.relationships.filter fun r => r.childTable == table with
  | nil => rfl
  | cons r rest ih => rw [keyColumns, keyColumns, r.keyColumn_shifted h, ih]

/-! ### What rules read -/

theorem FieldMapping.source?_shifted {m : FieldMapping} (hpath : e.path ≠ m.elementPath)
    (anchor : Nat) :
    m.source? (d.insertAt k e) (shift k anchor) =
      (m.source? d anchor).map (Document.shiftEntry k) := by
  unfold source?
  rw [h.firstWithin?_shift hpath, Document.first?_insertAt h.position e hpath,
    Document.element?_insertAt_shift h.position, Option.map_or, Option.map_or]
  cases d.element? anchor with
  | none => rfl
  | some own =>
      dsimp only [Option.map_some]
      rw [apply_ite (Option.map (Document.shiftEntry k))]
      rfl

omit h in
theorem FieldMapping.rawValue_shiftEntry (k : Nat) (m : FieldMapping)
    (source : Option Document.Entry) :
    m.rawValue (source.map (Document.shiftEntry k)) = m.rawValue source := by
  unfold rawValue
  cases source <;> cases m.attributeName? <;> rfl

omit h in
theorem fieldValues_shiftEntry (k : Nat) (source : Option Document.Entry) (record : Record) :
    fieldValues (source.map (Document.shiftEntry k)) record = fieldValues source record := by
  cases source <;> rfl

variable {c : Contract} (hpath : c.Ignores e.path)
include hpath

theorem Contract.contacts_shifted :
    Site.contacts ⟨c, d.insertAt k e⟩ = Site.contacts ⟨c, d⟩ :=
  Document.contacts_insertAt h.position hpath.contacts _

/-- The first element that some rule reads is the same. -/
theorem Contract.findSome?_first?_shifted {rules : List FieldMapping}
    (hrules : rules ⊆ c.mappings) :
    (rules.findSome? fun m => (d.insertAt k e).first? m.elementPath) =
      (rules.findSome? fun m => d.first? m.elementPath).map (Document.shiftEntry k) := by
  induction rules with
  | nil => rfl
  | cons m rest ih =>
      obtain ⟨hm, hrest⟩ := List.cons_subset.mp hrules
      rw [List.findSome?_cons, List.findSome?_cons,
        Document.first?_insertAt h.position e (hpath.mappings m hm)]
      cases d.first? m.elementPath with
      | some entry => rfl
      | none => exact ih hrest

/-- The entities of a table stand for the same elements. -/
theorem Contract.anchors_shifted {rules : List FieldMapping} (hrules : rules ⊆ c.mappings) :
    c.anchors (d.insertAt k e) rules = (c.anchors d rules).map (shift k) := by
  unfold anchors
  cases hrule : c.entityRule? rules with
  | some rule =>
      obtain ⟨m, -, hm⟩ := List.exists_of_findSome?_eq_some hrule
      have hfilter := hpath.filters rule (List.mem_of_find?_eq_some hm)
      simp only [Document.selected_insertAt h.position hfilter, List.map_map]
      rfl
  | none =>
      simp only [findSome?_first?_shifted h hpath hrules]
      cases rules.findSome? fun m => d.first? m.elementPath <;> rfl

namespace Site

theorem applyRule_carries {m : FieldMapping} (hm : m ∈ c.mappings) (built : List Built)
    (anchor : Nat) (w : Draft) :
    Transform.Carries (Draft.moved (shift k)) (applyRule ⟨c, d⟩ built anchor m w)
      (applyRule ⟨c, d.insertAt k e⟩ (built.map (Built.moved (shift k))) (shift k anchor) m
        (w.moved (shift k))) := by
  unfold applyRule
  dsimp only
  rw [m.source?_shifted h (hpath.mappings m hm), m.rawValue_shiftEntry, fieldValues_shiftEntry,
    Contract.contacts_shifted h hpath]
  refine .after _ fun o => ?_
  cases o with
  | column v => exact .pure (Draft.moved (shift k)) (w.setColumn m.targetColumn v)
  | noRow => exact .pure (Draft.moved (shift k)) w
  | row r =>
      have helement : ((m.source? d anchor).map (Document.shiftEntry k)).map Prod.snd =
          ((m.source? d anchor).map Prod.snd).map (shift k) := by
        cases m.source? d anchor <;> rfl
      have hor : (((m.source? d anchor).map Prod.snd).map (shift k)).or (some (shift k anchor)) =
          (((m.source? d anchor).map Prod.snd).or (some anchor)).map (shift k) := by
        rw [Option.map_or]
        rfl
      dsimp only
      rw [helement, hor, c.parentKeys_shifted h]
      refine .after _ fun keys => ?_
      have hpure := Transform.Carries.pure (Draft.moved (shift k))
        (w.append ⟨r.toRecord keys, (m.source? d anchor).map Prod.snd⟩)
      rw [Draft.moved_append] at hpure
      exact hpure

/-- With the element the site builds what it does without, with indices that have moved on. -/
theorem corresponds_insertAt : Corresponds (shift k) ⟨c, d⟩ ⟨c, d.insertAt k e⟩ where
  tables := rfl
  rules _ := rfl
  anchors _ := Contract.anchors_shifted h hpath (List.filter_subset_self _)
  keys table anchor built := c.parentKeys_shifted h table (some anchor) built
  rule _ hm built anchor w := applyRule_carries h hpath hm built anchor w

end Site

end

/-- An element that no rule, filter or search for contacts asks for, and that stands around no
other, has no part in the records of a document: they are the same without it, or it is the same
error that there are none, and the same lines are logged. -/
theorem Contract.records_insertAt {c : Contract} {d : Document} {k : Nat} {e : Element}
    (h : d.TakesLeaf k e) (hpath : c.Ignores e.path) :
    (c.records (d.insertAt k e)).run = (c.records d).run :=
  (Site.corresponds_insertAt h hpath).records_run

def note : Element where
  path := "/app/contact/note"
  attributes := [("con_id", "9"), ("city", "Lima")]
  parent := some 1

/-- The note moves the second contact and both addresses on, and no record changes. -/
theorem addressBook_ignoresNote :
    (twoAddresses.insertAt 2 note).elements =
        [{ path := "/app" },
         { path := "/app/contact", attributes := [("con_id", "1")], parent := some 0 },
         note,
         { path := "/app/contact/address", attributes := [("city", "Oslo")], parent := some 1 },
         { path := "/app/contact", attributes := [("con_id", "2")], parent := some 0 },
         { path := "/app/contact/address", attributes := [("city", "Rome")], parent := some 4 }] ∧
      twoAddresses.TakesLeaf 2 note ∧ addressBook.Ignores note.path ∧
      (addressBook.records (twoAddresses.insertAt 2 note)).run =
        (addressBook.records twoAddresses).run := by
  have hleaf : twoAddresses.TakesLeaf 2 note := by
    refine ⟨by decide, by decide, fun p hp => ?_⟩
    obtain rfl := Option.some.inj hp
    decide
  have hignores : addressBook.Ignores note.path := ⟨by decide, by decide, by decide⟩
  exact ⟨by decide, hleaf, hignores, Contract.records_insertAt hleaf hignores⟩

end RowContract
