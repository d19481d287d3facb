import RowContract.Json.Shape
import RowContract.Proofs.Fields
import RowContract.Proofs.Outcome

/-!
Structures in JSON.  What is read under a name was written under one of the names of its rule; and
a structure whose fields are written one after the other, each with a value that its rule takes, is
read as these fields.
-/

namespace RowContract.Json

variable {α : Type} {rules : List FieldRule} {name : String} {v : Json}

/-! ### Rules -/

def Unambiguous (rules : List FieldRule) : Prop :=
  rules.Pairwise fun r later => r.name ≠ later.name ∧ r.otherName ≠ some later.name

instance (rules : List FieldRule) : Decidable (Unambiguous rules) :=
  inferInstanceAs (Decidable (rules.Pairwise fun r later =>
    r.name ≠ later.name ∧ r.otherName ≠ some later.name))

theorem Unambiguous.ruleFor?_name (h : Unambiguous rules) {rule : FieldRule} (hr : rule ∈ rules) :
    ruleFor? rules rule.name = some rule := by
  induction rules with
  | nil => cases hr
  | cons first rest ih =>
      obtain ⟨hfirst, hrest⟩ := List.pairwise_cons.mp h
      rcases List.mem_cons.mp hr with rfl | hr
      · exact List.find?_cons_of_pos (by simp)
      · have hother := hfirst rule hr
        have hskip : ruleFor? (first :: rest) rule.name = ruleFor? rest rule.name :=
          List.find?_cons_of_neg (by simp [hother.1, hother.2])
        rw [hskip]
        exact ih hrest hr

theorem Unambiguous.nodup (h : Unambiguous rules) : (rules.map FieldRule.name).Nodup :=
  List.pairwise_map.mpr (h.imp And.left)

/-! ### What has been read -/

/-- Among some entries a value stands under a name that has the rule of a field. -/
def EnteredFor (rules : List FieldRule) (entries : List (String × Json)) (name : String)
    (v : Json) : Prop :=
  ∃ written rule, ruleFor? rules written = some rule ∧ rule.name = name ∧
    Fields.get? entries written = some v

theorem EnteredFor.cons {rest : List (String × Json)} {n : String} {w : Json}
    (h : EnteredFor rules rest name v)
    (hother : ∀ rule, ruleFor? rules n = some rule → rule.name ≠ name) :
    EnteredFor rules ((n, w) :: rest) name v := by
  obtain ⟨written, rule, hfor, hname, hget⟩ := h
  have hne : n ≠ written := by
    rintro rfl
    exact hother rule hfor hname
  exact ⟨written, rule, hfor, hname, by rw [Fields.get?_cons, if_neg hne, hget]⟩

/-- A value that is read was entered for its field, unless it had been read before. -/
theorem enteredFor_of_readEntries {seen fs : Fields Json} {entries : List (String × Json)}
    (h : readEntries rules seen entries = .ok fs) (hv : fs.get? name = some v) :
    seen.get? name = some v ∨ seen.get? name = none ∧ EnteredFor rules entries name v := by
  induction entries generalizing seen with
  | nil =>
      obtain rfl : seen = fs := Except.ok.inj h
      exact .inl hv
  | cons entry rest ih =>
      obtain ⟨n, w⟩ := entry
      rw [readEntries] at h
      cases hrule : ruleFor? rules n with
      | none =>
          rw [hrule] at h
          exact (ih h).imp_right fun ⟨hseen, hentered⟩ =>
            ⟨hseen, hentered.cons fun rule hfor => by rw [hrule] at hfor; cases hfor⟩
      | some rule =>
          rw [hrule] at h
          dsimp only at h
          split at h
          · cases h
          next hnew =>
            obtain ⟨_, -, h⟩ := bind_eq_ok h
            have hrest := ih h
            rw [Fields.get?_append, Fields.get?_cons, Fields.get?_nil] at hrest
            have hunseen : seen.get? rule.name = none := by
              rwa [Fields.contains, Bool.not_eq_true, Option.isSome_eq_false_iff,
                Option.isNone_iff_eq_none] at hnew
            by_cases hname : rule.name = name
            · -- The rule of the name is used up, so the value is the one entered here.
              rw [if_pos hname, ← hname, hunseen, Option.none_or] at hrest
              rcases hrest with hrest | ⟨hnone, -⟩
              · refine .inr ⟨hname ▸ hunseen, n, rule, hrule, hname, ?_⟩
                rw [Fields.get?_cons, if_pos rfl, hrest]
              · cases hnone
            · rw [if_neg hname, Option.or_none] at hrest
              refine hrest.imp_right fun ⟨hseen, hentered⟩ => ⟨hseen, hentered.cons ?_⟩
              intro rule' hfor
              obtain rfl := Option.some.inj (hrule.symm.trans hfor)
              exact hname

/-- A value that is read was written under the name of its rule or under the other name. -/
theorem Unambiguous.exists_get?_of_readStruct (hrules : Unambiguous rules) {structName : String}
    {rule : FieldRule} (hrule : rule ∈ rules) {fs fields : Fields Json}
    (h : readStruct structName rules (.object fields) = .ok fs)
    (hv : fs.get? rule.name = some v) :
    ∃ written, (written = rule.name ∨ rule.otherName = some written) ∧
      fields.get? written = some v := by
  have hentries : readEntries rules [] fields = .ok fs := h
  rcases enteredFor_of_readEntries hentries hv with hnone | ⟨-, written, rule', hfor, hname, hget⟩
  · cases hnone
  · have hown := hrules.ruleFor?_name (List.mem_of_find?_eq_some hfor)
    rw [hname, hrules.ruleFor?_name hrule] at hown
    obtain rfl := Option.some.inj hown
    have hfound := List.find?_some hfor
    rw [Bool.or_eq_true, beq_iff_eq, beq_iff_eq] at hfound
    exact ⟨written, hfound.imp_left Eq.symm, hget⟩

theorem Unambiguous.get?_of_readStruct (hrules : Unambiguous rules) {structName : String}
    (hplain : ∃ rule ∈ rules, rule.name = name ∧ rule.otherName = none) {fs fields : Fields Json}
    (h : readStruct structName rules (.object fields) = .ok fs) (hv : fs.get? name = some v) :
    fields.get? name = some v := by
  obtain ⟨rule, hrule, rfl, hother⟩ := hplain
  obtain ⟨written, rfl | hwritten, hget⟩ := hrules.exists_get?_of_readStruct hrule h hv
  · exact hget
  · rw [hother] at hwritten
    cases hwritten

section

variable {r : Reader α} {fields : Fields Json} {a : α}

theorem require_eq_ok (h : require fields name r = .ok a) :
    ∃ v, fields.get? name = some v ∧ r v = .ok a := by
  unfold require at h
  split at h
  next v hv => exact ⟨v, hv, h⟩
  next => cases h

theorem getOr_eq_ok {default : α} (h : getOr fields name r default = .ok a) :
    a = default ∨ ∃ v, fields.get? name = some v ∧ r v = .ok a := by
  unfold getOr at h
  split at h
  next v hv => exact .inr ⟨v, hv, h⟩
  next => exact .inl (Except.ok.inj h).symm

theorem readText_eq_ok {s : String} (h : readText v = .ok s) : v = .string s := by
  cases v with
  | string t => exact congrArg _ (Except.ok.inj h)
  | _ => cases h

theorem readCount_eq_ok {n : Nat} (h : readCount v = .ok n) : v = Json.ofNat n := by
  unfold readCount at h
  split at h
  next k =>
    split at h
    next hk =>
      obtain rfl := Except.ok.inj h
      rw [Json.ofNat, Int.toNat_of_nonneg hk]
    next => cases h
  next =>
    cases v <;> cases h

theorem readOption_eq_ok {setting : Option α} (h : readOption r v = .ok setting) :
    ∀ a ∈ setting, r v = .ok a := by
  intro a ha
  unfold readOption at h
  split at h
  · obtain rfl := Except.ok.inj h
    cases ha
  · obtain ⟨a', ha', rfl⟩ := map_eq_ok h
    obtain rfl := Option.some.inj ha
    exact ha'

theorem readList_eq_ok {as : List α} (h : readList r v = .ok as) :
    ∃ items, v = .array items ∧ ∀ a ∈ as, ∃ item ∈ items, r item = .ok a := by
  cases v with
  | array items => exact ⟨items, rfl, mapM_eq_ok h⟩
  | _ => cases h

/-- The texts that are read are those that stand in the array. -/
theorem readList_readText_eq_ok {ss : List String} (h : readList readText v = .ok ss) :
    v = .array (ss.map .string) := by
  cases v with
  | array items => exact congrArg _ (eq_map_of_mapM_eq_ok (fun _ _ => readText_eq_ok) h)
  | _ => cases h

theorem readMap_eq_ok {entries : Fields α} (h : readMap r v = .ok entries) :
    entries.names.Nodup ∧ ∃ fields, v = .object fields ∧
      ∀ e ∈ entries, ∃ w, (e.1, w) ∈ fields ∧ r w = .ok e.2 := by
  cases v with
  | object fields =>
      obtain ⟨read, hread, h⟩ := bind_eq_ok h
      obtain rfl := Except.ok.inj h
      refine ⟨Fields.nodup_names_ofList read, fields, rfl, fun e he => ?_⟩
      rcases Fields.mem_setAll he with he | he
      · cases he
      · obtain ⟨⟨n, w⟩, hfield, hvalue⟩ := mapM_eq_ok hread e he
        obtain ⟨a, ha, heq⟩ := bind_eq_ok hvalue
        obtain rfl := Except.ok.inj heq
        exact ⟨w, hfield, ha⟩
  | _ => cases h

end

/-! ### What is written -/

/-- The fields of a structure; one without a value is not written. -/
abbrev Slots := List (String × Option Json)

def written (slots : Slots) : List (String × Json) :=
  slots.filterMap fun slot => slot.2.map fun v => (slot.1, v)

@[simp] theorem written_nil : written [] = [] := rfl

@[simp] theorem written_none (slots : Slots) :
    written ((name, none) :: slots) = written slots := rfl

@[simp] theorem written_some (slots : Slots) :
    written ((name, some v) :: slots) = (name, v) :: written slots := rfl

theorem get?_written {slots : Slots} (h : (slots.map Prod.fst).Nodup) (name : String) :
    Fields.get? (written slots) name = (Fields.get? slots name).join := by
  induction slots with
  | nil => rfl
  | cons slot rest ih =>
      obtain ⟨n, value⟩ := slot
      obtain ⟨hn, hrest⟩ := List.nodup_cons.mp h
      rw [Fields.get?_cons]
      split
      next hname =>
        subst hname
        cases value with
        | some v => rw [written_some, Fields.get?_cons, if_pos rfl]; rfl
        | none =>
            have hmissing : Fields.get? rest n = none := by
              rw [← Option.not_isSome_iff_eq_none, ← Fields.mem_names_iff]
              exact hn
            rw [written_none, ih hrest, hmissing]
            rfl
      next hname =>
        cases value with
        | some v => rw [written_some, Fields.get?_cons, if_neg hname, ih hrest]
        | none => rw [written_none, ih hrest]

/-- The slot is for the field of a rule, and its value passes the check of the rule. -/
def Suits (rule : FieldRule) (slot : String × Option Json) : Prop :=
  rule.name = slot.1 ∧ ∀ v ∈ slot.2, rule.check v = .ok ()

theorem readEntries_written (hrules : Unambiguous rules) {seen : Fields Json} {slots : Slots}
    (hsuits : ∀ slot ∈ slots, ∃ rule ∈ rules, Suits rule slot)
    (hnodup : (seen.names ++ slots.map Prod.fst).Nodup) :
    readEntries rules seen (written slots) = .ok (seen ++ written slots) := by
  induction slots generalizing seen with
  | nil => rw [written_nil, List.append_nil]; rfl
  | cons slot rest ih =>
      obtain ⟨n, value⟩ := slot
      obtain ⟨⟨rule, hrule, hname, hcheck⟩, hrest⟩ := List.forall_mem_cons.mp hsuits
      dsimp only at hname
      cases value with
      | none =>
          rw [written_none]
          exact ih hrest (hnodup.sublist ((List.sublist_cons_self _ _).append_left _))
      | some v =>
          have hnew : seen.contains rule.name = false := by
            have hmem : n ∉ seen.names := fun hmem =>
              (List.nodup_append.mp hnodup).2.2 n hmem n List.mem_cons_self rfl
            rw [hname, Fields.contains, ← Bool.not_eq_true, ← Fields.mem_names_iff]
            exact hmem
          have hnext : ((seen ++ [(n, v)]).names ++ rest.map Prod.fst).Nodup := by
            simpa [Fields.names] using hnodup
          have hfor : ruleFor? rules n = some rule := hname ▸ hrules.ruleFor?_name hrule
          rw [written_some, readEntries, hfor]
          dsimp only
          rw [if_neg (Bool.eq_false_iff.mp hnew), hcheck v rfl, ok_bind, hname, ih hrest hnext,
            List.append_assoc]
          rfl

variable {slots : Slots}

theorem names_of_suits (h : List.Forall₂ Suits rules slots) :
    slots.map Prod.fst = rules.map FieldRule.name := by
  induction h with
  | nil => rfl
  | cons hsuits _ ih => rw [List.map_cons, List.map_cons, hsuits.1, ih]

theorem exists_mem_of_forall₂ {β γ : Type} {R : β → γ → Prop} {bs : List β} {cs : List γ}
    (h : List.Forall₂ R bs cs) : ∀ c ∈ cs, ∃ b ∈ bs, R b c := by
  induction h with
  | nil => exact List.forall_mem_nil _
  | cons hfirst _ ih =>
      refine List.forall_mem_cons.mpr ⟨⟨_, List.mem_cons_self, hfirst⟩, fun c hc => ?_⟩
      obtain ⟨b, hb, hrel⟩ := ih c hc
      exact ⟨b, List.mem_cons_of_mem _ hb, hrel⟩

/-- Written fields are read as they are. -/
theorem readStruct_written {structName : String} (hrules : Unambiguous rules)
    (h : List.Forall₂ Suits rules slots) :
    readStruct structName rules (.object (written slots)) = .ok (written slots) := by
  have hnodup : (slots.map Prod.fst).Nodup := names_of_suits h ▸ hrules.nodup
  exact readEntries_written hrules (exists_mem_of_forall₂ h) hnodup

/-- A value of a structure stands in a slot: it is read from what the slot has, or it is the default
where the slot has nothing. -/
def ReadsAs {α : Type} (r : Reader α) (default : Option α) (value : Option Json) (a : α) : Prop :=
  match value with
  | some v => r v = .ok a
  | none => default = some a

section

variable {r : Reader α} {value : Option Json} {a : α}

theorem ReadsAs.check {default : Option α} (h : ReadsAs r default value a) :
    ∀ v ∈ value, checkWith r v = .ok () := by
  intro v hv
  obtain rfl : value = some v := hv
  have hread : r v = .ok a := h
  rw [checkWith, hread]
  rfl

theorem ReadsAs.suits_needed {default : Option α} (h : ReadsAs r default value a) :
    Suits (needed name r) (name, value) := ⟨rfl, h.check⟩

theorem ReadsAs.suits_spare {default : Option α} (h : ReadsAs r default value a) :
    Suits (spare name r) (name, value) := ⟨rfl, h.check⟩

theorem ReadsAs.require (h : ReadsAs r none value a) (hnodup : (slots.map Prod.fst).Nodup)
    (hslot : Fields.get? slots name = some value) : require (written slots) name r = .ok a := by
  rw [Json.require, get?_written hnodup, hslot]
  cases value with
  | some v => exact h
  | none => cases h

theorem ReadsAs.getOr {default : α} (h : ReadsAs r (some default) value a)
    (hnodup : (slots.map Prod.fst).Nodup) (hslot : Fields.get? slots name = some value) :
    getOr (written slots) name r default = .ok a := by
  rw [Json.getOr, get?_written hnodup, hslot]
  cases value with
  | some v => exact h
  | none => exact congrArg _ (Option.some.inj h)

/-- A setting that is left out when it is not given. -/
theorem readsAs_map {r : Reader (Option α)} {f : α → Json} {setting : Option α}
    (h : ∀ a ∈ setting, r (f a) = .ok (some a)) :
    ReadsAs r (some none) (setting.map f) setting := by
  cases setting with
  | some a => exact h a rfl
  | none => rfl

end

/-! ### Lists, tables and settings that are written -/

theorem readList_map {r : Reader α} {f : α → Json} {as : List α}
    (h : ∀ a ∈ as, r (f a) = .ok a) : readList r (.array (as.map f)) = .ok as :=
  mapM_map_eq_ok h

theorem readMap_map {r : Reader α} {f : α → Json} {fields : Fields α}
    (hnodup : fields.names.Nodup) (h : ∀ e ∈ fields, r (f e.2) = .ok e.2) :
    readMap r (.object (fields.map fun e => (e.1, f e.2))) = .ok fields := by
  have hentries : (fields.map fun e => (e.1, f e.2)).mapM (fun e => do
      let a ← r e.2
      return (e.1, a)) = .ok fields := by
    refine mapM_map_eq_ok fun e he => ?_
    rw [h e he]
    rfl
  have hread : readMap r (.object (fields.map fun e => (e.1, f e.2))) =
      ((fields.map fun e => (e.1, f e.2)).mapM fun e => do
        let a ← r e.2
        return (e.1, a)) >>= fun entries => .ok (Fields.ofList entries) := rfl
  rw [hread, hentries, ok_bind, Fields.ofList_of_nodup hnodup]

end RowContract.Json
