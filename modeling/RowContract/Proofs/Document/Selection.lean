import Mathlib.Data.List.Perm.Subperm
import RowContract.Document.Selection

/-!
The last candidate about each entity.  A selection has one candidate for each entity, the last one
about it, where the first one stood; candidates about no entity stay where they are.  What is
selected is selected again as it is.
-/

namespace RowContract.Document

/-! ### The last one with each key -/

/-- Of the candidates with each key the last one is kept, and no other. -/
def KeepsLast (key : Element → Option String) (kept candidates : List Entry) : Prop :=
  ∀ v, kept.filter (key ·.1 == some v) = (candidates.filter (key ·.1 == some v)).getLast?.toList

section
variable {key : Element → Option String} {kept candidates : List Entry}

theorem KeepsLast.exists_mem (h : KeepsLast key kept candidates) {a : Entry}
    (ha : a ∈ candidates) {v : String} (hv : key a.1 = some v) : ∃ b ∈ kept, key b.1 = some v := by
  have hmem : a ∈ candidates.filter (key ·.1 == some v) :=
    List.mem_filter.mpr ⟨ha, beq_iff_eq.mpr hv⟩
  obtain ⟨b, hb⟩ : ∃ b, b ∈ kept.filter (key ·.1 == some v) := by
    rw [h v, List.getLast?_eq_some_getLast (List.ne_nil_of_mem hmem)]
    exact ⟨_, List.mem_singleton_self _⟩
  obtain ⟨hkept, hkey⟩ := List.mem_filter.mp hb
  exact ⟨b, hkept, beq_iff_eq.mp hkey⟩

/-- No two that are kept have one key. -/
theorem KeepsLast.eq_of_key_eq (h : KeepsLast key kept candidates) {a b : Entry} (ha : a ∈ kept)
    (hb : b ∈ kept) {v : String} (hav : key a.1 = some v) (hbv : key b.1 = some v) : a = b := by
  have hmem : ∀ c ∈ kept, key c.1 = some v →
      c ∈ (candidates.filter (key ·.1 == some v)).getLast?.toList := fun c hc hcv =>
    h v ▸ List.mem_filter.mpr ⟨hc, beq_iff_eq.mpr hcv⟩
  exact Option.some.inj ((Option.mem_toList.mp (hmem a ha hav)).symm.trans
    (Option.mem_toList.mp (hmem b hb hbv)))

/-- With coarser keys the last ones are kept exactly if no two keys fall together. -/
theorem KeepsLast.map_iff (h : KeepsLast key kept candidates) (hsub : kept ⊆ candidates)
    (f : String → String) :
    KeepsLast (fun e => (key e).map f) kept candidates ↔
      ∀ a ∈ candidates, ∀ b ∈ candidates, ((key a.1).map f).isSome = true →
        (key a.1).map f = (key b.1).map f → key a.1 = key b.1 := by
  constructor
  · intro hmap a ha b hb hsome heq
    obtain ⟨u, hu⟩ := Option.isSome_iff_exists.mp hsome
    obtain ⟨v, hv, hfv⟩ := Option.map_eq_some_iff.mp hu
    obtain ⟨w, hw, hfw⟩ := Option.map_eq_some_iff.mp (heq ▸ hu)
    obtain ⟨a', ha', hav⟩ := h.exists_mem ha hv
    obtain ⟨b', hb', hbw⟩ := h.exists_mem hb hw
    have hsame : a' = b' := hmap.eq_of_key_eq ha' hb' (v := u)
      (by rw [hav, Option.map_some, hfv]) (by rw [hbw, Option.map_some, hfw])
    rw [hv, ← hav, hsame, hbw, hw]
  · intro hone u
    by_cases hexists : ∃ a ∈ candidates, (key a.1).map f = some u
    · obtain ⟨a, ha, hu⟩ := hexists
      obtain ⟨v, hv, hfv⟩ := Option.map_eq_some_iff.mp hu
      -- All candidates with the coarser key have the key of the one that was found.
      have hkeys : ∀ b ∈ candidates, ((key b.1).map f == some u) = (key b.1 == some v) := by
        intro b hb
        rw [Bool.eq_iff_iff, beq_iff_eq, beq_iff_eq, ← hv]
        constructor
        · intro hbu
          exact (hone a ha b hb (hu ▸ rfl) (hu.trans hbu.symm)).symm
        · intro hbv
          rw [hbv, hu]
      rw [List.filter_congr hkeys, List.filter_congr fun b hb => hkeys b (hsub hb)]
      exact h v
    · have hnone : ∀ b ∈ candidates, ¬ ((key b.1).map f == some u) = true := fun b hb hbu =>
        hexists ⟨b, hb, beq_iff_eq.mp hbu⟩
      rw [List.filter_eq_nil_iff.mpr hnone,
        List.filter_eq_nil_iff.mpr fun b hb => hnone b (hsub hb)]
      rfl

end

/-! ### Entities -/

section
variable (identity : Option String)

/-- Whether two candidates are about one entity; without an identity a candidate is about none. -/
def sameEntity (a b : Entry) : Bool :=
  match identity? identity a.1 with
  | some v => identity? identity b.1 == some v
  | none => false

def others (c : Entry) (candidates : List Entry) : List Entry :=
  candidates.filter fun b => !sameEntity identity c b

/-- The last candidate about the entity of a given one, or that one itself. -/
def latest (candidates : List Entry) (c : Entry) : Entry :=
  (candidates.filter (sameEntity identity c)).getLast?.getD c

end

variable {identity : Option String} {a b c : Entry} {candidates rest : List Entry}

theorem sameEntity_iff :
    sameEntity identity a b = true ↔
      ∃ v, identity? identity a.1 = some v ∧ identity? identity b.1 = some v := by
  unfold sameEntity
  cases identity? identity a.1 <;> simp

theorem sameEntity_comm (a b : Entry) : sameEntity identity a b = sameEntity identity b a := by
  rw [Bool.eq_iff_iff, sameEntity_iff, sameEntity_iff]
  exact exists_congr fun _ => and_comm

theorem sameEntity_congr (h : sameEntity identity a b = true) :
    sameEntity identity a = sameEntity identity b := by
  obtain ⟨v, ha, hb⟩ := sameEntity_iff.mp h
  funext c
  rw [sameEntity, sameEntity, ha, hb]

theorem mem_others : b ∈ others identity c candidates ↔
    b ∈ candidates ∧ sameEntity identity c b = false := by
  rw [others, List.mem_filter, Bool.not_eq_eq_eq_not, Bool.not_true]

theorem latest_mem (candidates : List Entry) (c : Entry) :
    latest identity candidates c ∈ c :: candidates.filter (sameEntity identity c) := by
  unfold latest
  cases h : (candidates.filter (sameEntity identity c)).getLast? with
  | none => exact List.mem_cons_self
  | some last => exact List.mem_cons_of_mem _ (List.mem_of_getLast? h)

theorem identity?_latest (candidates : List Entry) (c : Entry) :
    identity? identity (latest identity candidates c).1 = identity? identity c.1 := by
  rcases List.mem_cons.mp (latest_mem candidates c) with h | h
  · rw [h]
  · obtain ⟨v, hc, hlatest⟩ := sameEntity_iff.mp (List.mem_filter.mp h).2
    rw [hc, hlatest]

/-! ### One entity after the other -/

theorem place_cons (c s : Entry) (rest : List Entry) :
    place identity c (s :: rest) =
      if sameEntity identity s c then c :: rest else s :: place identity c rest := by
  have hsame : ((identity? identity c.1).isSome ∧
      identity? identity s.1 = identity? identity c.1) ↔ sameEntity identity s c = true := by
    rw [sameEntity_iff, Option.isSome_iff_exists]
    constructor
    · rintro ⟨⟨v, hc⟩, hs⟩
      exact ⟨v, hs.trans hc, hc⟩
    · rintro ⟨v, hs, hc⟩
      exact ⟨⟨v, hc⟩, hs.trans hc.symm⟩
  simp only [place, hsame]

/-- A selected candidate gives way to the last one about its entity; those about others pass it. -/
theorem foldl_place_cons (s : Entry) (selected : List Entry) :
    candidates.foldl (fun selected c => place identity c selected) (s :: selected) =
      latest identity candidates s ::
        (others identity s candidates).foldl (fun selected c => place identity c selected)
          selected := by
  induction candidates generalizing s selected with
  | nil => rfl
  | cons c rest ih =>
      rw [List.foldl_cons, place_cons, others, latest]
      cases hsame : sameEntity identity s c with
      | true =>
          rw [if_pos rfl, ih, List.filter_cons_of_pos hsame, List.getLast?_cons,
            List.filter_cons_of_neg (by simp [hsame]), sameEntity_congr hsame]
          rfl
      | false =>
          rw [if_neg Bool.false_ne_true, ih, List.filter_cons_of_neg (by simp [hsame]),
            List.filter_cons_of_pos (by simp [hsame])]
          rfl

theorem selectLast_cons (c : Entry) (rest : List Entry) :
    selectLast identity (c :: rest) =
      latest identity rest c :: selectLast identity (others identity c rest) :=
  foldl_place_cons c []

theorem eraseDupsBy_sameEntity_cons (c : Entry) (rest : List Entry) :
    (c :: rest).eraseDupsBy (sameEntity identity) =
      c :: (others identity c rest).eraseDupsBy (sameEntity identity) := by
  rw [List.eraseDupsBy_cons, others]
  simp only [sameEntity_comm _ c, Bool.decide_eq_false]

/-- What holds of a list of candidates if it holds of those about the entities besides the first. -/
@[elab_as_elim]
theorem entity_induction (identity : Option String) {P : List Entry → Prop} (nil : P [])
    (cons : ∀ c rest, P (others identity c rest) → P (c :: rest)) (candidates : List Entry) :
    P candidates :=
  match candidates with
  | [] => nil
  | c :: rest => cons c rest (entity_induction identity nil cons (others identity c rest))
termination_by candidates.length
decreasing_by exact Nat.lt_succ_of_le (List.length_filter_le ..)

theorem eraseDupsBy_sameEntity_sublist (candidates : List Entry) :
    (candidates.eraseDupsBy (sameEntity identity)).Sublist candidates := by
  induction candidates using entity_induction identity with
  | nil => exact .slnil
  | cons c rest ih =>
      rw [eraseDupsBy_sameEntity_cons]
      exact (ih.trans List.filter_sublist).cons_cons c

/-- Candidates about another entity are not about the one that is left out. -/
theorem filter_others {p : Entry → Bool}
    (h : ∀ b, p b = true → sameEntity identity c b = false) (candidates : List Entry) :
    (others identity c candidates).filter p = candidates.filter p := by
  rw [others, List.filter_filter]
  refine List.filter_congr fun b _ => ?_
  cases hp : p b with
  | false => rfl
  | true => rw [h b hp]; rfl

theorem latest_cons_self (c : Entry) (rest : List Entry) :
    latest identity (c :: rest) c = latest identity rest c := by
  unfold latest
  rw [List.filter_cons]
  split
  · rw [List.getLast?_cons]; rfl
  · rfl

theorem latest_others (h : sameEntity identity c a = false) (rest : List Entry) :
    latest identity (others identity c rest) a = latest identity (c :: rest) a := by
  have hother : ∀ b, sameEntity identity a b = true → sameEntity identity c b = false := by
    intro b hb
    rw [sameEntity_comm, ← sameEntity_congr hb, sameEntity_comm, h]
  rw [latest, filter_others hother, latest, List.filter_cons_of_neg]
  rw [sameEntity_comm, h]
  exact Bool.false_ne_true

/-- Each entity is there once, in the order of the first candidates about them, with the last
candidate about it. -/
theorem selectLast_eq_map (candidates : List Entry) :
    selectLast identity candidates =
      (candidates.eraseDupsBy (sameEntity identity)).map (latest identity candidates) := by
  induction candidates using entity_induction identity with
  | nil => rfl
  | cons c rest ih =>
      have hmem : ∀ a ∈ (others identity c rest).eraseDupsBy (sameEntity identity),
          latest identity (others identity c rest) a = latest identity (c :: rest) a :=
        fun a ha =>
          latest_others (mem_others.mp ((eraseDupsBy_sameEntity_sublist _).subset ha)).2 rest
      rw [selectLast_cons, eraseDupsBy_sameEntity_cons, List.map_cons, ih, latest_cons_self,
        List.map_congr_left hmem]

/-- Of the candidates about an entity the last one is selected, and no other. -/
theorem keepsLast_selectLast (candidates : List Entry) :
    KeepsLast (identity? identity) (selectLast identity candidates) candidates := by
  intro v
  induction candidates using entity_induction identity with
  | nil => rfl
  | cons c rest ih =>
      rw [selectLast_cons]
      cases hc : identity? identity c.1 == some v with
      | true =>
          have hsame : sameEntity identity c = fun b => identity? identity b.1 == some v := by
            funext b
            rw [sameEntity, eq_of_beq hc]
          have hnone : (others identity c rest).filter (identity? identity ·.1 == some v) = [] := by
            rw [others, hsame, List.filter_filter]
            exact List.filter_eq_nil_iff.mpr fun b _ => by simp
          rw [List.filter_cons_of_pos (by rw [identity?_latest, hc]), ih, hnone,
            List.filter_cons_of_pos (by exact hc), List.getLast?_cons, latest, hsame]
          rfl
      | false =>
          have hother : ∀ b : Entry, (identity? identity b.1 == some v) = true →
              sameEntity identity c b = false := by
            intro b hb
            rw [sameEntity_comm, sameEntity, eq_of_beq hb]
            exact hc
          rw [List.filter_cons_of_neg (by simp [identity?_latest, hc]), ih, filter_others hother,
            List.filter_cons_of_neg (by simp [hc])]

/-- Candidates about no entity are all selected. -/
theorem filter_selectLast_eq_none (candidates : List Entry) :
    (selectLast identity candidates).filter (identity? identity ·.1 == none) =
      candidates.filter (identity? identity ·.1 == none) := by
  induction candidates using entity_induction identity with
  | nil => rfl
  | cons c rest ih =>
      have hother : ∀ b : Entry, (identity? identity b.1 == none) = true →
          sameEntity identity c b = false := by
        intro b hb
        rw [sameEntity_comm, sameEntity, eq_of_beq hb]
      rw [selectLast_cons, List.filter_cons, List.filter_cons, identity?_latest, ih,
        filter_others hother]
      split
      · rename_i hc
        have hnone : rest.filter (sameEntity identity c) = [] :=
          List.filter_eq_nil_iff.mpr fun b _ => by rw [sameEntity, eq_of_beq hc]; nofun
        rw [latest, hnone]
        rfl
      · rfl

/-- Nothing is selected that is no candidate, and no candidate twice. -/
theorem selectLast_subperm (candidates : List Entry) :
    (selectLast identity candidates).Subperm candidates := by
  induction candidates using entity_induction identity with
  | nil => exact .refl _
  | cons c rest ih =>
      have hlatest : [latest identity rest c].Subperm (c :: rest.filter (sameEntity identity c)) :=
        List.singleton_subperm_iff.mpr (latest_mem rest c)
      have hparts : (c :: rest.filter (sameEntity identity c) ++ others identity c rest).Perm
          (c :: rest) := (List.filter_append_perm _ rest).cons c
      rw [selectLast_cons]
      exact (hlatest.append ih).trans hparts.subperm

theorem pairwise_selectLast (candidates : List Entry) :
    (selectLast identity candidates).Pairwise fun a b => sameEntity identity a b = false := by
  induction candidates using entity_induction identity with
  | nil => exact .nil
  | cons c rest ih =>
      rw [selectLast_cons]
      refine .cons (fun b hb => ?_) ih
      have hother := (mem_others.mp ((selectLast_subperm _).subset hb)).2
      rw [sameEntity, identity?_latest]
      exact hother

/-- Candidates about different entities are all selected. -/
theorem selectLast_of_pairwise
    (h : candidates.Pairwise fun a b => sameEntity identity a b = false) :
    selectLast identity candidates = candidates := by
  induction candidates with
  | nil => rfl
  | cons c rest ih =>
      obtain ⟨hc, hrest⟩ := List.pairwise_cons.mp h
      have hothers : others identity c rest = rest :=
        List.filter_eq_self.mpr fun b hb => by rw [hc b hb]; rfl
      have hsame : rest.filter (sameEntity identity c) = [] :=
        List.filter_eq_nil_iff.mpr fun b hb => by rw [hc b hb]; exact Bool.false_ne_true
      rw [selectLast_cons, hothers, ih hrest, latest, hsame]
      rfl

/-- For each identity that some candidates have, the last one of them is selected, in the place of
the first, and candidates without an identity are kept in theirs; nothing else is selected, nothing
twice, and nothing changes if a selection is made from what is selected. -/
theorem selectLast_lastOfEach (identity : Option String) (candidates : List Entry) :
    selectLast identity candidates =
        (candidates.eraseDupsBy (sameEntity identity)).map (latest identity candidates) ∧
      KeepsLast (identity? identity) (selectLast identity candidates) candidates ∧
      (selectLast identity candidates).filter (identity? identity ·.1 == none) =
        candidates.filter (identity? identity ·.1 == none) ∧
      (selectLast identity candidates).Subperm candidates ∧
      selectLast identity (selectLast identity candidates) = selectLast identity candidates ∧
      selectLast none candidates = candidates :=
  ⟨selectLast_eq_map candidates, keepsLast_selectLast candidates,
    filter_selectLast_eq_none candidates, selectLast_subperm candidates,
    selectLast_of_pairwise (pairwise_selectLast candidates),
    selectLast_of_pairwise (List.pairwise_of_forall fun _ _ => rfl)⟩

/-- The second contact with an identity takes the place of the first, and a blank one is none. -/
example :
    let contact := fun id : String => (⟨"/app/contact", [("id", id)], none⟩ : Element)
    selectLast (some "id") [contact "1", contact "2", contact " ", contact "1"].zipIdx =
      [(contact "1", 3), (contact "2", 1), (contact " ", 2)] := by
  decide

end RowContract.Document
