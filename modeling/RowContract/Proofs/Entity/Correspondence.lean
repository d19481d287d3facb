import RowContract.Proofs.Entity.Build

/-!
Two builds side by side.  One site corresponds to another if its elements stand at places that have
moved, while its tables, the keys of its rows and what its rules make of an entity are the same but
for the places.  Then each entity has the same rows in both, and both have the same records, or the
same error, and write the same lines.
-/

namespace RowContract

/-! ### Computations carried over -/

/-- The second computation writes the same lines as the first, and gives its value carried over. -/
structure Transform.Carries {α β : Type} (g : α → β) (x : Transform α) (y : Transform β) :
    Prop where
  value : y.run.value = x.run.value.map g
  lines : y.run.lines = x.run.lines

namespace Transform

variable {α β γ δ : Type} {g : α → β} {h : γ → δ}

theorem lines_bind (x : Transform α) (f : α → Transform γ) :
    (x >>= f).run.lines = x.run.lines ++
      match x.run.value with
      | .ok a => (f a).run.lines
      | .error _ => [] := by
  rw [ExceptT.run_bind, Logged.lines_bind]
  cases x.run.value <;> rfl

theorem Carries.refl (x : Transform α) : Carries id x x :=
  ⟨by cases x.run.value <;> rfl, rfl⟩

/-- What is carried over as it is, is the same. -/
theorem Carries.run_eq {x y : Transform α} (h : Carries id x y) : y.run = x.run := by
  obtain ⟨hvalue, hlines⟩ := h
  rw [(Carries.refl x).value.symm] at hvalue
  show Logged.mk y.run.value y.run.lines = _
  rw [hvalue, hlines]

theorem Carries.pure (g : α → β) (a : α) :
    Carries g (Pure.pure a : Transform α) (Pure.pure (g a) : Transform β) := ⟨rfl, rfl⟩

/-- Steps that are carried over, one after the other. -/
theorem Carries.bind {x : Transform α} {y : Transform β} {f : α → Transform γ}
    {f' : β → Transform δ} (hx : Carries g x y) (hf : ∀ a, Carries h (f a) (f' (g a))) :
    Carries h (x >>= f) (y >>= f') := by
  obtain ⟨hvalue, hlines⟩ := hx
  constructor
  · rw [value_bind, value_bind, hvalue]
    cases x.run.value with
    | error e => rfl
    | ok a => exact (hf a).value
  · rw [lines_bind, lines_bind, hvalue, hlines]
    cases x.run.value with
    | error e => rfl
    | ok a => exact congrArg (x.run.lines ++ ·) (hf a).lines

/-- After the same step, steps that are carried over. -/
theorem Carries.after (x : Transform α) {f : α → Transform γ} {f' : α → Transform δ}
    (hf : ∀ a, Carries h (f a) (f' a)) : Carries h (x >>= f) (x >>= f') :=
  (Carries.refl x).bind hf

end Transform

/-! ### Rows with their elements moved -/

def Built.moved (place : Nat → Nat) (b : Built) : Built :=
  { b with element := b.element.map place }

def Draft.moved (place : Nat → Nat) (w : Draft) : Draft :=
  { w with rows := w.rows.map (Built.moved place) }

def Draft.append (w : Draft) (b : Built) : Draft := { w with rows := w.rows ++ [b] }

theorem Built.moved_id : Built.moved id = id := by
  funext b
  rw [moved, Option.map_id]
  rfl

theorem Draft.moved_id : Draft.moved id = id := by
  funext w
  rw [moved, Built.moved_id, List.map_id]
  rfl

theorem Draft.moved_append (place : Nat → Nat) (w : Draft) (b : Built) :
    (w.append b).moved place = (w.moved place).append (b.moved place) := by
  simp [moved, append]

theorem Draft.finish_moved (place : Nat → Nat) (w : Draft) (anchor : Nat) :
    (w.moved place).finish (place anchor) = (w.finish anchor).map (Built.moved place) := by
  unfold finish
  rw [apply_ite (List.map (Built.moved place))]
  rfl

/-! ### Sites -/

namespace Site

/-- The second site builds what the first does, from elements that stand at other places. -/
structure Corresponds (place : Nat → Nat) (s s' : Site) : Prop where
  tables : s'.contract.tables = s.contract.tables
  rules : ∀ table, s'.contract.mappingsFor table = s.contract.mappingsFor table
  anchors : ∀ table, s'.contract.anchors s'.document (s.contract.mappingsFor table) =
    (s.contract.anchors s.document (s.contract.mappingsFor table)).map place
  keys : ∀ table anchor built,
    s'.contract.parentKeys s'.document table (some (place anchor)) (built.map (Built.moved place)) =
      s.contract.parentKeys s.document table (some anchor) built
  rule : ∀ m ∈ s.contract.mappings, ∀ built anchor w,
    Transform.Carries (Draft.moved place) (s.applyRule built anchor m w)
      (s'.applyRule (built.map (Built.moved place)) (place anchor) m (w.moved place))

namespace Corresponds

variable {place : Nat → Nat} {s s' : Site} (h : Corresponds place s s')
include h

theorem applyRules {rules : List FieldMapping} (hrules : rules ⊆ s.contract.mappings)
    (built : List Built) (anchor : Nat) (w : Draft) :
    Transform.Carries (Draft.moved place) (s.applyRules built anchor rules w)
      (s'.applyRules (built.map (Built.moved place)) (place anchor) rules (w.moved place)) := by
  induction rules generalizing w with
  | nil => exact .pure _ w
  | cons m rest ih =>
      obtain ⟨hm, hrest⟩ := List.cons_subset.mp hrules
      exact (h.rule m hm built anchor w).bind (ih hrest)

theorem buildEntity (table : String) {rules : List FieldMapping}
    (hrules : rules ⊆ s.contract.mappings) (built : List Built) (anchor : Nat) :
    Transform.Carries (List.map (Built.moved place)) (s.buildEntity table rules built anchor)
      (s'.buildEntity table rules (built.map (Built.moved place)) (place anchor)) := by
  unfold Site.buildEntity
  rw [h.keys]
  refine .after _ fun keys => ?_
  refine (h.applyRules hrules built anchor (Draft.start table keys)).bind fun w => ?_
  rw [Draft.finish_moved]
  exact .pure _ (w.finish anchor)

theorem buildEntities (table : String) {rules : List FieldMapping}
    (hrules : rules ⊆ s.contract.mappings) (anchors : List Nat) (built : List Built) :
    Transform.Carries (List.map (Built.moved place)) (s.buildEntities table rules anchors built)
      (s'.buildEntities table rules (anchors.map place) (built.map (Built.moved place))) := by
  induction anchors generalizing built with
  | nil => exact .pure _ built
  | cons anchor rest ih =>
      refine (h.buildEntity table hrules built anchor).bind fun rows => ?_
      have hrest := ih (built ++ rows)
      rw [List.map_append] at hrest
      exact hrest

theorem buildTables (tables : List String) (built : List Built) :
    Transform.Carries (List.map (Built.moved place)) (s.buildTables tables built)
      (s'.buildTables tables (built.map (Built.moved place))) := by
  induction tables generalizing built with
  | nil => exact .pure _ built
  | cons table rest ih =>
      have hrules : s.contract.mappingsFor table ⊆ s.contract.mappings := List.filter_subset_self _
      unfold Site.buildTables
      dsimp only
      rw [h.rules, h.anchors]
      exact (h.buildEntities table hrules _ built).bind ih

/-- Corresponding sites have the same records. -/
theorem records_run :
    (s'.contract.records s'.document).run = (s.contract.records s.document).run := by
  refine Transform.Carries.run_eq ?_
  have hbuild : Transform.Carries (List.map (Built.moved place)) s.build s'.build := by
    unfold Site.build
    rw [h.tables]
    exact h.buildTables _ []
  refine hbuild.bind fun built => ?_
  have hpure := Transform.Carries.pure id (built.map Built.record)
  rw [List.map_map]
  exact hpure

end Corresponds

end Site

end RowContract
