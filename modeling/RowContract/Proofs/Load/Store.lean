import Mathlib.Data.List.Induction
import RowContract.Load.Store
import RowContract.Proofs.Calendar.Order
import RowContract.Proofs.Fields
import RowContract.Proofs.Text.Search

/-!
A store of diagnostics is a map.  Whatever is saved and deleted, a name has the diagnostic that was
saved last under it, unless it was deleted since, and the list and the number of the files tell the
same.  `Reflects` ties the files of a store to what its names have; each call keeps the tie, as
different names have different files.
-/

namespace RowContract.Store

/-! ### Names and files -/

/-- A name whose file a directory can have: the name is valid, and that of the file is not too
long. -/
def Storable (id : String) : Prop :=
  isValidId id = true ∧ (id ++ ".json").utf8ByteSize ≤ FileFault.maxNameLength

instance (id : String) : Decidable (Storable id) := inferInstanceAs (Decidable (_ ∧ _))

def fileOf (d : Diagnostic) : String × String := (d.id ++ ".json", d.toJson.indented)

/-- The text of the diagnostic is read as the diagnostic. -/
def Readable (d : Diagnostic) : Prop := Diagnostic.ofText? d.toJson.indented = some d

theorem id_eq_of_fileOf {d : Diagnostic} {id text : String} (h : fileOf d = (id ++ ".json", text)) :
    d.id = id := (String.append_left_inj ".json").mp (Prod.mk.inj h).1

theorem isDiagnosticFile_of_isValidId {id : String} (h : isValidId id = true) :
    isDiagnosticFile (id ++ ".json") = true := by
  unfold isDiagnosticFile
  rw [String.toList_append, Text.dropSuffix?_append]
  rw [isValidId, Bool.and_eq_true, Bool.not_eq_true', String.isEmpty_eq_false_iff] at h
  simpa using h.1

theorem get?_of_isValidId (s : Store) {id : String} (h : isValidId id = true) :
    s.get? id = (s.files.get? (id ++ ".json")).bind Diagnostic.ofText? := by
  rw [get?, fileName?, if_pos h]
  rfl

theorem get?_of_not_isValidId (s : Store) {id : String} (h : ¬ isValidId id = true) :
    s.get? id = none := by
  rw [get?, fileName?, if_neg h]
  rfl

theorem delete?_of_isValidId (s : Store) {id : String} (h : isValidId id = true) :
    s.delete? id = if s.files.contains (id ++ ".json") then
      some { s with files := s.files.filter fun f => f.1 != id ++ ".json" } else none := by
  rw [delete?, fileName?, if_pos h]
  rfl

theorem delete?_of_not_isValidId (s : Store) {id : String} (h : ¬ isValidId id = true) :
    s.delete? id = none := by
  rw [delete?, fileName?, if_neg h]
  rfl

theorem save_of_not_isValidId (s : Store) {d : Diagnostic} (h : ¬ isValidId d.id = true) :
    s.save d = .error (.invalidId d.id) := by
  rw [save, fileName?, if_neg h]

/-- In a store that can be written, a diagnostic is saved if its name allows it. -/
theorem save_eq {s : Store} (hs : s.blocked = none) {d : Diagnostic} (h : isValidId d.id = true) :
    s.save d = if FileFault.maxNameLength < (d.id ++ ".json").utf8ByteSize then .error .nameTooLong
      else .ok (s.write (d.id ++ ".json") d.toJson.indented) := by
  rw [save, fileName?, if_pos h, hs]

/-! ### Calls -/

inductive Call where
  | save (d : Diagnostic)
  | delete (id : String)

def Call.id : Call → String
  | .save d => d.id
  | .delete id => id

def Call.left? : Call → Option Diagnostic
  | .save d => if Storable d.id then some d else none
  | .delete _ => none

/-- The store after a call; a call that fails leaves it as it is. -/
def apply (s : Store) : Call → Store
  | .save d => (s.save d).toOption.getD s
  | .delete id => (s.delete? id).getD s

def run (s : Store) (calls : List Call) : Store := calls.foldl apply s

/-- The last diagnostic that was saved under a name, if the name was not deleted since: what the
last call about the name has left. -/
def lastSaved (calls : List Call) (id : String) : Option Diagnostic :=
  (calls.reverse.find? fun c => c.id == id).bind Call.left?

theorem lastSaved_concat (calls : List Call) (c : Call) (id : String) :
    lastSaved (calls ++ [c]) id = if c.id = id then c.left? else lastSaved calls id := by
  rw [lastSaved, List.reverse_concat, List.find?_cons]
  by_cases h : c.id = id
  · simp [h]
  · rw [if_neg h, beq_eq_false_iff_ne.mpr h]
    rfl

/-! ### Stores and what their names have -/

/-- The files of a store are those of the diagnostics that the names have. -/
structure Reflects (s : Store) (saved : String → Option Diagnostic) : Prop where
  writable : s.blocked = none
  nodup : s.files.names.Nodup
  files : ∀ name text, s.files.get? name = some text ↔
    ∃ d, saved d.id = some d ∧ fileOf d = (name, text)
  kept : ∀ id d, saved id = some d → d.id = id ∧ Storable id ∧ Readable d

theorem reflects_empty : Reflects {} (lastSaved []) where
  writable := rfl
  nodup := List.nodup_nil
  files _ _ := by simp [lastSaved]
  kept _ _ h := by cases h

namespace Reflects

variable {s : Store} {saved saved' : String → Option Diagnostic} {id : String} {d : Diagnostic}

/-- Nothing but what the names have matters. -/
theorem congr (h : Reflects s saved) (heq : ∀ id, saved' id = saved id) : Reflects s saved' := by
  obtain rfl : saved' = saved := funext heq
  exact h

theorem get?_fileName (h : Reflects s saved) (hid : saved id = some d) :
    s.files.get? (id ++ ".json") = some d.toJson.indented := by
  obtain ⟨rfl, -, -⟩ := h.kept id d hid
  exact (h.files _ _).mpr ⟨d, hid, rfl⟩

/-- Without a diagnostic there is no file. -/
theorem get?_fileName_of_eq_none (h : Reflects s saved) (hid : saved id = none) :
    s.files.get? (id ++ ".json") = none := by
  rw [Option.eq_none_iff_forall_ne_some]
  intro text htext
  obtain ⟨d, hd, hfile⟩ := (h.files _ _).mp htext
  rw [id_eq_of_fileOf hfile, hid] at hd
  cases hd

/-- A read gives what the name has. -/
theorem get?_eq (h : Reflects s saved) (id : String) : s.get? id = saved id := by
  cases hid : saved id with
  | some d =>
      obtain ⟨-, hstorable, hreadable⟩ := h.kept id d hid
      rw [get?_of_isValidId s hstorable.1, h.get?_fileName hid, Option.bind_some]
      exact hreadable
  | none =>
      by_cases hvalid : isValidId id = true
      · rw [get?_of_isValidId s hvalid, h.get?_fileName_of_eq_none hid, Option.bind_none]
      · exact get?_of_not_isValidId s hvalid

/-! ### Single calls -/

/-- A name that no file can have has nothing. -/
theorem eq_none_of_not_storable (h : Reflects s saved) (hid : ¬ Storable id) : saved id = none := by
  rw [Option.eq_none_iff_forall_ne_some]
  intro d hd
  exact hid (h.kept id d hd).2.1

theorem write (h : Reflects s saved) (hstorable : Storable d.id) (hreadable : Readable d) :
    Reflects (s.write (d.id ++ ".json") d.toJson.indented)
      fun id => if d.id = id then some d else saved id where
  writable := h.writable
  nodup := Fields.nodup_names_set h.nodup _ _
  files name text := by
    by_cases hname : name = d.id ++ ".json"
    · subst hname
      rw [Store.write, Fields.get?_set_same, Option.some.injEq]
      constructor
      · rintro rfl
        exact ⟨d, if_pos rfl, rfl⟩
      · rintro ⟨d', hd', hfile⟩
        rw [id_eq_of_fileOf hfile, if_pos rfl] at hd'
        obtain rfl := Option.some.inj hd'
        exact (Prod.mk.inj hfile).2
    · rw [Store.write, Fields.get?_set_of_ne _ _ hname, h.files]
      refine exists_congr fun d' => and_congr_left fun hfile => ?_
      have hne : d.id ≠ d'.id := fun heq => hname (heq ▸ (Prod.mk.inj hfile).1.symm)
      rw [if_neg hne]
  kept id d' hd' := by
    split at hd'
    next hid =>
      obtain rfl := Option.some.inj hd'
      exact ⟨hid, hid ▸ hstorable, hreadable⟩
    next => exact h.kept id d' hd'

theorem save (h : Reflects s saved) (hreadable : Readable d) :
    Reflects (s.apply (.save d))
      fun id => if d.id = id then (Call.save d).left? else saved id := by
  by_cases hstorable : Storable d.id
  · have hsave : s.save d = .ok (s.write (d.id ++ ".json") d.toJson.indented) := by
      rw [save_eq h.writable hstorable.1, if_neg (Nat.not_lt.mpr hstorable.2)]
    rw [apply, hsave, Call.left?, if_pos hstorable]
    exact h.write hstorable hreadable
  · -- Nothing is written, and nothing was there.
    have hsave : ∃ e, s.save d = .error e := by
      by_cases hvalid : isValidId d.id = true
      · refine ⟨.nameTooLong, ?_⟩
        rw [save_eq h.writable hvalid, if_pos (Nat.lt_of_not_le fun hle => hstorable ⟨hvalid, hle⟩)]
      · exact ⟨_, save_of_not_isValidId s hvalid⟩
    obtain ⟨e, he⟩ := hsave
    rw [apply, he, Call.left?, if_neg hstorable]
    refine h.congr fun id => ?_
    split
    next hid =>
      subst hid
      exact (h.eq_none_of_not_storable hstorable).symm
    next => rfl

theorem contains_iff (h : Reflects s saved) (id : String) :
    s.files.contains (id ++ ".json") = (saved id).isSome := by
  rw [Fields.contains]
  cases hid : saved id with
  | some d => rw [h.get?_fileName hid]; rfl
  | none => rw [h.get?_fileName_of_eq_none hid]; rfl

theorem erase (h : Reflects s saved) (id : String) :
    Reflects { s with files := s.files.filter fun f => f.1 != id ++ ".json" }
      fun other => if id = other then none else saved other where
  writable := h.writable
  nodup := Fields.nodup_names_filter h.nodup _
  files name text := by
    rw [Fields.get?_filter_ne]
    split
    next hname =>
      subst hname
      refine iff_of_false nofun ?_
      rintro ⟨d, hd, hfile⟩
      rw [if_pos (id_eq_of_fileOf hfile).symm] at hd
      cases hd
    next hname =>
      rw [h.files]
      refine exists_congr fun d => and_congr_left fun hfile => ?_
      have hne : id ≠ d.id := fun heq => hname (heq ▸ (Prod.mk.inj hfile).1.symm)
      rw [if_neg hne]
  kept other d hd := by
    split at hd
    · cases hd
    · exact h.kept other d hd

/-- Only what is there can be deleted. -/
theorem delete?_eq (h : Reflects s saved) (id : String) :
    s.delete? id = if (saved id).isSome then
      some { s with files := s.files.filter fun f => f.1 != id ++ ".json" } else none := by
  by_cases hvalid : isValidId id = true
  · rw [delete?_of_isValidId s hvalid, h.contains_iff]
  · rw [delete?_of_not_isValidId s hvalid,
      h.eq_none_of_not_storable fun hstorable => hvalid hstorable.1]
    rfl

theorem delete (h : Reflects s saved) (id : String) :
    Reflects (s.apply (.delete id)) fun other => if id = other then none else saved other := by
  rw [apply, h.delete?_eq]
  cases hid : saved id with
  | some d => exact h.erase id
  | none =>
      refine h.congr fun other => ?_
      split
      next hother => rw [← hother, hid]
      next => rfl

/-! ### The list -/

/-- The files, in their order, are those of diagnostics that can be read. -/
theorem exists_files_eq_map (h : Reflects s saved) :
    ∃ ds : List Diagnostic, s.files = ds.map fileOf ∧ ∀ d, d ∈ ds ↔ saved d.id = some d := by
  have hfile : ∀ f ∈ s.files, ∃ d, saved d.id = some d ∧ fileOf d = f := fun f hf =>
    (h.files f.1 f.2).mp (Fields.get?_of_mem h.nodup hf)
  choose read hsaved hread using hfile
  let ds := s.files.attach.map fun f => read f.1 f.2
  have hds : s.files = ds.map fileOf := by
    conv_lhs => rw [← List.attach_map_subtype_val s.files]
    rw [List.map_map]
    exact List.map_congr_left fun f _ => (hread f.1 f.2).symm
  have hall : ∀ d ∈ ds, saved d.id = some d := List.forall_mem_map.mpr fun f _ => hsaved f.1 f.2
  refine ⟨ds, hds, fun d => ⟨hall d, fun hd => ?_⟩⟩
  have hmem : fileOf d ∈ ds.map fileOf := hds ▸ Fields.mem_of_get? ((h.files _ _).mpr ⟨d, hd, rfl⟩)
  obtain ⟨d', hd', hfile⟩ := List.mem_map.mp hmem
  have hid := hall d' hd'
  rw [id_eq_of_fileOf hfile, hd] at hid
  rwa [Option.some.inj hid]

theorem contents_eq {ds : List Diagnostic} (hfiles : s.files = ds.map fileOf)
    (hvalid : ∀ d ∈ ds, isValidId d.id = true) :
    s.contents = ds.map fun d => d.toJson.indented := by
  have hall : s.files.filter (fun f => isDiagnosticFile f.1) = s.files := by
    rw [List.filter_eq_self, hfiles]
    exact List.forall_mem_map.mpr fun d hd => isDiagnosticFile_of_isValidId (hvalid d hd)
  rw [contents, hall, hfiles, List.map_map]
  rfl

theorem filterMap_texts {ds : List Diagnostic} (h : ∀ d ∈ ds, Readable d) :
    (ds.map fun d => d.toJson.indented).filterMap Diagnostic.ofText? = ds := by
  induction ds with
  | nil => rfl
  | cons d rest ih =>
      obtain ⟨hd, hrest⟩ := List.forall_mem_cons.mp h
      rw [List.map_cons, List.filterMap_cons_some hd, ih hrest]

/-- Every diagnostic that a name has is in the list, once, and the newest is first. -/
theorem list_spec (h : Reflects s saved) :
    (s.list.map Diagnostic.id).Nodup ∧ (∀ d, d ∈ s.list ↔ saved d.id = some d) ∧
      (s.list.Pairwise fun d later => d.createdAt.isBefore later.createdAt = false) ∧
      s.size = s.list.length := by
  obtain ⟨ds, hfiles, hds⟩ := h.exists_files_eq_map
  have hkept : ∀ d ∈ ds, Storable d.id ∧ Readable d := fun d hd =>
    (h.kept d.id d ((hds d).mp hd)).2
  have hcontents := contents_eq hfiles fun d hd => (hkept d hd).1.1
  have hlist : s.list = ds.mergeSort notBefore := by
    rw [list, hcontents, filterMap_texts fun d hd => (hkept d hd).2]
  have hperm : s.list.Perm ds := hlist ▸ List.mergeSort_perm ds notBefore
  have hids : (ds.map Diagnostic.id).Nodup := by
    have hnames := h.nodup
    rw [Fields.names, hfiles, List.map_map] at hnames
    refine List.Nodup.of_map (· ++ ".json") ?_
    rw [List.map_map]
    exact hnames
  refine ⟨(hperm.map _).nodup_iff.mpr hids, fun d => hperm.mem_iff.trans (hds d), ?_, ?_⟩
  · rw [hlist]
    refine (List.pairwise_mergeSort (fun a b c hab hbc => ?_) (fun a b => ?_) ds).imp ?_
    · simp only [notBefore, Bool.not_eq_true'] at *
      exact DateTime.isBefore_trans hab hbc
    · simp only [notBefore, Bool.or_eq_true, Bool.not_eq_true']
      exact DateTime.isBefore_total _ _
    · intro a b hab
      simpa [notBefore] using hab
  · rw [size, hcontents, List.length_map, hperm.length_eq]

end Reflects

/-- After some calls each name has what was saved last under it. -/
theorem reflects_run {calls : List Call} (h : ∀ d, .save d ∈ calls → Readable d) :
    Reflects (run {} calls) (lastSaved calls) := by
  induction calls using List.reverseRecOn with
  | nil => exact reflects_empty
  | append_singleton calls c ih =>
      have hbefore := ih fun d hd => h d (List.mem_append_left _ hd)
      rw [run, List.foldl_concat, ← run]
      cases c with
      | save d =>
          have hreadable := h d (List.mem_append_right _ (List.mem_singleton_self _))
          exact (hbefore.save hreadable).congr (lastSaved_concat calls (.save d))
      | delete id => exact (hbefore.delete id).congr (lastSaved_concat calls (.delete id))

/-! ### The store as a map -/

def IsIdChar (c : Char) : Prop :=
  ('A' ≤ c ∧ c ≤ 'Z') ∨ ('a' ≤ c ∧ c ≤ 'z') ∨ ('0' ≤ c ∧ c ≤ '9') ∨ c = '-'

theorem isValidId_iff (id : String) :
    isValidId id = true ↔ id ≠ "" ∧ ∀ c ∈ id.toList, IsIdChar c := by
  have hchar (c : Char) : (c.isAlphanum || c == '-') = true ↔ IsIdChar c := by
    have halphanum : c.isAlphanum = (decide ('A' ≤ c ∧ c ≤ 'Z') ||
        (decide ('a' ≤ c) && decide (c ≤ 'z')) || (decide ('0' ≤ c) && decide (c ≤ '9'))) := rfl
    simp only [halphanum, IsIdChar, Bool.or_eq_true, Bool.and_eq_true, decide_eq_true_eq,
      beq_iff_eq, or_assoc]
  simp only [isValidId, Bool.and_eq_true, Bool.not_eq_true', String.isEmpty_eq_false_iff,
    List.all_eq_true, hchar]

/-- Of a store that began empty, after any calls: a name has the diagnostic that was saved last
under it, if it was not deleted since; the list has exactly these diagnostics, the newest first, and
their number is that of the files; to delete fails exactly where there is none, and takes nothing
else away.  A name that is empty or has another character than a letter, a digit or a hyphen can be
neither read, nor written, nor deleted, in any store. -/
theorem run_isMap {calls : List Call} (h : ∀ d, .save d ∈ calls → Readable d) :
    (∀ id, (run {} calls).get? id = lastSaved calls id) ∧
      (((run {} calls).list.map Diagnostic.id).Nodup ∧
        (∀ d, d ∈ (run {} calls).list ↔ ∃ id, lastSaved calls id = some d) ∧
        (run {} calls).list.Pairwise fun d later => d.createdAt.isBefore later.createdAt = false) ∧
      (run {} calls).size = (run {} calls).list.length ∧
      (∀ id, (run {} calls).delete? id = none ↔ lastSaved calls id = none) ∧
      (∀ id s, (run {} calls).delete? id = some s →
        ∀ other, s.get? other = if other = id then none else (run {} calls).get? other) ∧
      ∀ id : String, (id = "" ∨ ∃ c ∈ id.toList, ¬ IsIdChar c) → ∀ s : Store,
        s.get? id = none ∧ s.delete? id = none ∧
          ∀ d, d.id = id → s.save d = .error (.invalidId id) := by
  have hrun := reflects_run h
  obtain ⟨hnodup, hmem, hsorted, hsize⟩ := hrun.list_spec
  refine ⟨hrun.get?_eq, ⟨hnodup, fun d => ?_, hsorted⟩, hsize, fun id => ?_, fun id s hs => ?_,
    fun id hid s => ?_⟩
  · rw [hmem]
    constructor
    · exact fun hd => ⟨d.id, hd⟩
    · rintro ⟨id, hid⟩
      obtain ⟨rfl, -⟩ := hrun.kept id d hid
      exact hid
  · rw [hrun.delete?_eq]
    cases lastSaved calls id <;> simp
  · rw [hrun.delete?_eq] at hs
    split at hs
    · obtain rfl := Option.some.inj hs
      intro other
      rw [(hrun.erase id).get?_eq, hrun.get?_eq]
      simp only [eq_comm]
    · cases hs
  · have hinvalid : ¬ isValidId id = true := by
      rw [isValidId_iff]
      rintro ⟨hne, hall⟩
      rcases hid with hempty | ⟨c, hc, hbad⟩
      · exact hne hempty
      · exact hbad (hall c hc)
    refine ⟨get?_of_not_isValidId s hinvalid, delete?_of_not_isValidId s hinvalid, ?_⟩
    rintro d rfl
    exact save_of_not_isValidId s hinvalid

/-! ### A run -/

def hourly (id : String) (hour : Nat) (h : Calendar.isTime hour 30 0 0 = true) : Diagnostic where
  id := id
  table := "scores"
  statement := "INSERT"
  columns := []
  sampleParams := []
  row := some 0
  fault := .system
  message := "deadlock"
  createdAt := ⟨2024, 2, 29, hour, 30, 0, 0, by decide, h⟩

/-- Both diagnostics are without parameters, and else the same. -/
def sameBare (d e : Diagnostic) : Bool :=
  d.id == e.id && d.table == e.table && d.statement == e.statement && d.columns == e.columns &&
    d.sampleParams.isEmpty && e.sampleParams.isEmpty && d.row == e.row && d.fault == e.fault &&
    d.message == e.message && d.createdAt == e.createdAt

theorem readable_of_any {d : Diagnostic}
    (h : (Diagnostic.ofText? d.toJson.indented).any (sameBare d) = true) : Readable d := by
  obtain ⟨e, he, hsame⟩ := (Option.any_eq_true _ _).mp h
  obtain ⟨⟨table, statement, columns, params, row, fault, message⟩, id, createdAt⟩ := d
  obtain ⟨⟨table', statement', columns', params', row', fault', message'⟩, id', createdAt'⟩ := e
  simp only [sameBare, Bool.and_eq_true, beq_iff_eq, List.isEmpty_iff] at hsame
  rw [Readable, he]
  grind

set_option maxRecDepth 20000 in
theorem readable_noon : Readable (hourly "a-1" 12 (by decide)) :=
  readable_of_any (by decide +kernel)

set_option maxRecDepth 20000 in
theorem readable_morning : Readable (hourly "a-1" 9 (by decide)) :=
  readable_of_any (by decide +kernel)

/-- Two diagnostics are saved under one name, the older one later, and another name is deleted. -/
def noonThenMorning : List Call :=
  [.save (hourly "a-1" 12 (by decide)), .save (hourly "a-1" 9 (by decide)), .delete "b"]

/-- What was saved last counts, though it is the older one; what was never saved cannot be deleted,
and a slash makes no name. -/
theorem run_isMap_noonThenMorning :
    (∀ d, .save d ∈ noonThenMorning → Readable d) ∧
      (run {} noonThenMorning).get? "a-1" = some (hourly "a-1" 9 (by decide)) ∧
      (run {} noonThenMorning).delete? "b" = none ∧
      (run {} noonThenMorning).get? "a/1" = none := by
  have hreadable : ∀ d, .save d ∈ noonThenMorning → Readable d := by
    intro d hd
    simp only [noonThenMorning, List.mem_cons, Call.save.injEq, List.not_mem_nil, or_false,
      reduceCtorEq] at hd
    rcases hd with rfl | rfl
    · exact readable_noon
    · exact readable_morning
  obtain ⟨hget, -, -, hdelete, -, hinvalid⟩ := run_isMap hreadable
  have hlast : lastSaved noonThenMorning "a-1" =
      (Call.save (hourly "a-1" 9 (by decide))).left? := rfl
  have hstorable : Storable (hourly "a-1" 9 (by decide)).id := by decide +kernel
  have hslash : ∃ c ∈ "a/1".toList, ¬ IsIdChar c := ⟨'/', by decide, by unfold IsIdChar; decide⟩
  refine ⟨hreadable, ?_, (hdelete "b").mpr rfl, (hinvalid "a/1" (.inr hslash) _).1⟩
  rw [hget, hlast, Call.left?, if_pos hstorable]

end RowContract.Store
