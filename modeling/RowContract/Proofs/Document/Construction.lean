import Mathlib.Logic.Relation
import RowContract.Document.Reading
import RowContract.Proofs.Document.Nesting
import RowContract.Proofs.Document.Outline
import RowContract.Proofs.Outcome

/-!
Documents as they come about.  A document is read from one of the two forms, or elements are put at
its end one by one; each way puts a parent before its children, so a walk from an element to the one
around it, and on from there, comes to an end wherever it begins.  Where the parents are found by
the paths alone, the path of an element begins with those of all elements that it is within.
-/

namespace RowContract.Document

variable {d d' : Document} {e : Element} {path : String} {i a p : Nat}

/-! ### What a document is made by -/

/-- Documents that are read, or put together one element after the other; the parent that an element
is given is one of those before it. -/
inductive Made : Document → Prop where
  | empty : Made .empty
  | read {v : Json} {d : Document} (h : ofJson v = .ok d) : Made d
  | push {d : Document} (e : Element) (hd : Made d)
      (hparent : ∀ p, e.parent = some p → p < d.size) : Made (d.push e)
  | pushNested {d : Document} (path : String) (attributes : Fields String) (hd : Made d) :
      Made (d.pushNested path attributes)

/-- Documents of which no parent is given: all of them are found by the paths. -/
inductive Nested : Document → Prop where
  | empty : Nested .empty
  | read {paths : List (String × Json)} {d : Document} (h : ofJson (.object paths) = .ok d) :
      Nested d
  | pushNested {d : Document} (path : String) (attributes : Fields String) (hd : Nested d) :
      Nested (d.pushNested path attributes)

theorem mem_entries_push {entry : Entry} :
    entry ∈ (d.push e).entries ↔ entry ∈ d.entries ∨ entry = (e, d.size) := by
  have hentries : (d.push e).entries = d.entries ++ [(e, d.size)] := by
    unfold entries push size
    rw [List.zipIdx_append, Nat.zero_add]
    rfl
  rw [hentries, List.mem_append, List.mem_singleton]

theorem element?_push_of_eq_some {f : Element} (h : d.element? p = some f) :
    (d.push e).element? p = some f := by
  obtain ⟨hlt, -⟩ := List.getElem?_eq_some_iff.mp h
  exact (List.getElem?_append_left hlt).trans h

theorem lt_size_of_element? {f : Element} (h : d.element? p = some f) : p < d.size :=
  (List.getElem?_eq_some_iff.mp h).1

/-- The element that encloses a path is one of the document. -/
theorem enclosing?_eq_some (h : d.enclosing? path = some p) :
    ∃ f, d.element? p = some f ∧ f.encloses path = true := by
  obtain ⟨⟨f, q⟩, hfind, rfl⟩ := Option.map_eq_some_iff.mp h
  have hmem : (f, q) ∈ d.entries := List.mem_reverse.mp (List.mem_of_find?_eq_some hfind)
  have hencloses : f.encloses path = true := by simpa using List.find?_some hfind
  exact ⟨f, element?_of_mem_entries hmem, hencloses⟩

/-- What each nested element that is put at the end keeps holds when a map of paths is read. -/
theorem pushPaths_induction {P : Document → Prop}
    (hpush : ∀ d path attributes, P d → P (d.pushNested path attributes))
    {paths : List (String × Json)} (hd : P d) (h : pushPaths d paths = .ok d') : P d' := by
  have hentries (path : String) {entries : List Json} {d d' : Document} (hd : P d)
      (h : pushEntries path d entries = .ok d') : P d' := by
    induction entries generalizing d with
    | nil =>
        obtain rfl := Except.ok.inj h
        exact hd
    | cons v rest ih =>
        obtain ⟨attributes, -, hrest⟩ := bind_eq_ok h
        exact ih (hpush d path attributes hd) hrest
  induction paths generalizing d with
  | nil =>
      obtain rfl := Except.ok.inj h
      exact hd
  | cons entry rest ih =>
      unfold pushPaths at h
      split at h
      next heq => cases heq
      next path entries others heq =>
        obtain ⟨-, rfl⟩ := List.cons.inj heq
        obtain ⟨between, hbetween, hrest⟩ := bind_eq_ok h
        exact ih (hentries path hd hbetween) hrest
      next path v others _ heq =>
        obtain ⟨-, rfl⟩ := List.cons.inj heq
        obtain ⟨between, hbetween, hrest⟩ := bind_eq_ok h
        exact ih (hentries path hd hbetween) hrest

/-! ### Parents before their children -/

theorem parentsPrecede_empty : empty.ParentsPrecede := fun _ _ hmem => by cases hmem

theorem ParentsPrecede.push (hd : d.ParentsPrecede)
    (hparent : ∀ p, e.parent = some p → p < d.size) : (d.push e).ParentsPrecede := by
  intro f i hmem p hp
  rcases mem_entries_push.mp hmem with hold | hnew
  · exact hd f i hold p hp
  · obtain ⟨rfl, rfl⟩ := Prod.mk.inj hnew
    exact hparent p hp

theorem ParentsPrecede.pushNested (hd : d.ParentsPrecede) (path : String)
    (attributes : Fields String) : (d.pushNested path attributes).ParentsPrecede := by
  refine hd.push fun p hp => ?_
  obtain ⟨f, hf, -⟩ := enclosing?_eq_some hp
  exact lt_size_of_element? hf

theorem parentsPrecede_of_ofElements {items : List Json} (h : ofElements items = .ok d) :
    d.ParentsPrecede := by
  obtain ⟨es, -, h⟩ := bind_eq_ok h
  split at h
  next => cases h
  next hnone =>
    obtain rfl := Except.ok.inj h
    intro e i hmem p hp
    have hsearch := List.find?_eq_none.mp (Option.map_eq_none_iff.mp hnone) (e, i) hmem
    simpa [hp] using hsearch

theorem parentsPrecede_of_ofJson {v : Json} (h : ofJson v = .ok d) : d.ParentsPrecede := by
  unfold ofJson at h
  split at h
  next => exact parentsPrecede_of_ofElements h
  next =>
    exact pushPaths_induction (fun _ path attributes hd => hd.pushNested path attributes)
      parentsPrecede_empty h
  next => cases h

theorem Made.parentsPrecede (h : d.Made) : d.ParentsPrecede := by
  induction h with
  | empty => exact parentsPrecede_empty
  | read h => exact parentsPrecede_of_ofJson h
  | push e _ hparent ih => exact ih.push hparent
  | pushNested path attributes _ ih => exact ih.pushNested path attributes

/-! ### Paths around paths -/

/-- The path of every parent encloses those of its children. -/
def PathsEnclose (d : Document) : Prop :=
  ∀ e i, (e, i) ∈ d.entries → ∀ p, e.parent = some p →
    ∃ f, d.element? p = some f ∧ f.encloses e.path = true

theorem pathsEnclose_empty : empty.PathsEnclose := fun _ _ hmem => by cases hmem

theorem PathsEnclose.pushNested (hd : d.PathsEnclose) (path : String)
    (attributes : Fields String) : (d.pushNested path attributes).PathsEnclose := by
  have hfound : ∀ p, d.enclosing? path = some p →
      ∃ f, (d.pushNested path attributes).element? p = some f ∧ f.encloses path = true := by
    intro p hp
    obtain ⟨f, hf, hencloses⟩ := enclosing?_eq_some hp
    exact ⟨f, element?_push_of_eq_some hf, hencloses⟩
  intro e i hmem p hp
  rcases mem_entries_push.mp hmem with hold | hnew
  · obtain ⟨f, hf, hencloses⟩ := hd e i hold p hp
    exact ⟨f, element?_push_of_eq_some hf, hencloses⟩
  · obtain ⟨rfl, rfl⟩ := Prod.mk.inj hnew
    exact hfound p hp

theorem Nested.pathsEnclose (h : d.Nested) : d.PathsEnclose := by
  induction h with
  | empty => exact pathsEnclose_empty
  | read h =>
      exact pushPaths_induction (fun _ path attributes hd => hd.pushNested path attributes)
        pathsEnclose_empty h
  | pushNested path attributes _ ih => exact ih.pushNested path attributes

/-! ### Walks -/

/-- The walk from an element to the one around it, and on from there, in search of the element at
`a`: it ends with success where it meets that element, and without where nothing is around. -/
inductive Walk (d : Document) (a : Nat) : Nat → Bool → Prop where
  | met : Walk d a a true
  | up {i p : Nat} {b : Bool} (hne : i ≠ a) (hp : d.parent? i = some p) (hrest : Walk d a p b) :
      Walk d a i b
  | out {i : Nat} (hne : i ≠ a) (hp : d.parent? i = none) : Walk d a i false

def IsChild (d : Document) (i p : Nat) : Prop := d.parent? i = some p

theorem isWithin_iff_reachable (hd : d.ParentsPrecede) (i a : Nat) :
    d.isWithin i a = true ↔ Relation.ReflTransGen d.IsChild i a := by
  rw [hd.isWithin_iff]
  constructor
  · rintro ⟨n, hn⟩
    induction n generalizing a with
    | zero =>
        obtain rfl := Option.some.inj hn
        exact .refl
    | succ n ih =>
        obtain ⟨b, hb, hparent⟩ := Option.bind_eq_some_iff.mp hn
        exact (ih b hb).tail hparent
  · intro h
    induction h with
    | refl => exact ⟨0, rfl⟩
    | tail _ hparent ih =>
        obtain ⟨n, hn⟩ := ih
        exact ⟨n + 1, Option.bind_eq_some_iff.mpr ⟨_, hn, hparent⟩⟩

theorem isWithin_self (hd : d.ParentsPrecede) (a : Nat) : d.isWithin a a = true :=
  (isWithin_iff_reachable hd a a).mpr .refl

theorem isWithin_of_parent? (hd : d.ParentsPrecede) (hne : i ≠ a) (hp : d.parent? i = some p) :
    d.isWithin i a = d.isWithin p a := by
  rw [Bool.eq_iff_iff, isWithin_iff_reachable hd, isWithin_iff_reachable hd,
    Relation.ReflTransGen.cases_head_iff]
  constructor
  · rintro (rfl | ⟨q, hq, hrest⟩)
    · exact absurd rfl hne
    · obtain rfl := Option.some.inj (hp.symm.trans hq)
      exact hrest
  · exact fun hrest => .inr ⟨p, hp, hrest⟩

theorem isWithin_of_parent?_eq_none (hd : d.ParentsPrecede) (hne : i ≠ a)
    (hp : d.parent? i = none) : d.isWithin i a = false := by
  rw [Bool.eq_false_iff, ne_eq, isWithin_iff_reachable hd, Relation.ReflTransGen.cases_head_iff]
  rintro (rfl | ⟨q, hq, -⟩)
  · exact hne rfl
  · cases hp.symm.trans hq

/-- The walk comes to an end, because each step goes to an earlier element, and it ends as the
bounded search does. -/
theorem walk_isWithin (hd : d.ParentsPrecede) (i a : Nat) : d.Walk a i (d.isWithin i a) := by
  induction i using Nat.strongRecOn with
  | ind i ih =>
      by_cases hne : i = a
      · subst hne
        rw [isWithin_self hd]
        exact .met
      cases hp : d.parent? i with
      | none =>
          rw [isWithin_of_parent?_eq_none hd hne hp]
          exact .out hne hp
      | some p =>
          rw [isWithin_of_parent? hd hne hp]
          exact .up hne hp (ih p (hd.lt_of_parent? hp))

theorem Walk.eq {b b' : Bool} (h : d.Walk a i b) (h' : d.Walk a i b') : b = b' := by
  induction h with
  | met =>
      cases h' with
      | met => rfl
      | up hne => exact absurd rfl hne
      | out hne => exact absurd rfl hne
  | up hne hp _ ih =>
      cases h' with
      | met => exact absurd rfl hne
      | up _ hq hrest =>
          obtain rfl := Option.some.inj (hp.symm.trans hq)
          exact ih hrest
      | out _ hq => cases hp.symm.trans hq
  | out hne hp =>
      cases h' with
      | met => exact absurd rfl hne
      | up _ hq => cases hp.symm.trans hq
      | out => rfl

theorem walk_iff (hd : d.ParentsPrecede) (i a : Nat) (b : Bool) :
    d.Walk a i b ↔ d.isWithin i a = b :=
  ⟨(walk_isWithin hd i a).eq, fun h => h ▸ walk_isWithin hd i a⟩

/-- A chain of parents, however long, is one of paths each of which begins with the next. -/
theorem PathsEnclose.encloses_of_reachable (hd : d.PathsEnclose)
    (h : Relation.ReflTransGen d.IsChild i a) (hne : i ≠ a) :
    ∃ e f, d.element? i = some e ∧ d.element? a = some f ∧ f.encloses e.path = true := by
  induction h using Relation.ReflTransGen.head_induction_on with
  | refl => exact absurd rfl hne
  | @head i p hp _ ih =>
      obtain ⟨e, he, hparent⟩ := Option.bind_eq_some_iff.mp hp
      obtain ⟨f, hf, hencloses⟩ := hd e i (List.mem_zipIdx_iff_getElem?.mpr he) p hparent
      by_cases heq : p = a
      · exact ⟨e, f, he, heq ▸ hf, hencloses⟩
      · obtain ⟨f', g, hf', hg, houter⟩ := ih heq
        obtain rfl := Option.some.inj (hf.symm.trans hf')
        refine ⟨e, g, he, hg, ?_⟩
        rw [Element.encloses, List.isPrefixOf_iff_prefix] at hencloses houter ⊢
        exact houter.trans ((List.prefix_append _ _).trans hencloses)

/-- However a document comes about, every parent stands before its children.  So the walk outwards
from any index comes to an end, and it meets an element exactly if that can be reached by links to
parents, of which there may be none.  If no parent was given, whatever an element is within, itself
apart, has a path that with a slash behind it begins the path of the element. -/
theorem Made.wellFounded (h : d.Made) :
    d.ParentsPrecede ∧
      (∀ i a b, d.Walk a i b ↔ d.isWithin i a = b) ∧
      (∀ i a, d.isWithin i a = true ↔
        Relation.ReflTransGen d.IsChild i a) ∧
      (d.Nested → ∀ i a, i ≠ a → d.isWithin i a = true →
        ∃ e f, d.element? i = some e ∧ d.element? a = some f ∧
          (f.path ++ "/").toList <+: e.path.toList) := by
  have hd := h.parentsPrecede
  refine ⟨hd, walk_iff hd, isWithin_iff_reachable hd, ?_⟩
  intro hnested i a hne hwithin
  obtain ⟨e, f, he, hf, hencloses⟩ := hnested.pathsEnclose.encloses_of_reachable
    ((isWithin_iff_reachable hd i a).mp hwithin) hne
  refine ⟨e, f, he, hf, ?_⟩
  rw [String.toList_append]
  exact List.isPrefixOf_iff_prefix.mp hencloses

/-- Two contacts that are read, and the telephone of the second put at the end. -/
theorem Made.wellFounded_telephone :
    ∃ d, ofJson (.object [("/app", .null), ("/app/contact", .array [.null, .null])]) = .ok d ∧
      ∃ more, more = d.pushNested "/app/contact/telephone" [] ∧ more.Made ∧ more.Nested ∧
        more.ParentsPrecede ∧ more.Walk 0 3 true ∧ more.Walk 1 3 false ∧
        Relation.ReflTransGen more.IsChild 3 0 ∧
        ∃ e f, more.element? 3 = some e ∧ more.element? 0 = some f ∧
          (f.path ++ "/").toList <+: e.path.toList := by
  have hrun : ((ofJson (.object [("/app", .null), ("/app/contact", .array [.null, .null])])
      ).toOption.any fun d =>
        (d.pushNested "/app/contact/telephone" []).isWithin 3 0 &&
          !(d.pushNested "/app/contact/telephone" []).isWithin 3 1) = true := by
    decide +kernel
  obtain ⟨d, hd, hrun⟩ := any_toOption_iff.mp hrun
  rw [Bool.and_eq_true, Bool.not_eq_true'] at hrun
  have hmade := (Made.read hd).pushNested "/app/contact/telephone" []
  have hnested := (Nested.read hd).pushNested "/app/contact/telephone" []
  obtain ⟨hprecede, hwalk, hreachable, hpaths⟩ := Made.wellFounded hmade
  exact ⟨d, hd, _, rfl, hmade, hnested, hprecede, (hwalk 3 0 true).mpr hrun.1,
    (hwalk 3 1 false).mpr hrun.2, (hreachable 3 0).mp hrun.1,
    hpaths hnested 3 0 (by decide) hrun.1⟩

end RowContract.Document
