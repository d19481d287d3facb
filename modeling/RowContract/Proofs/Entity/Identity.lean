import RowContract.Proofs.Document.Outline
import RowContract.Proofs.Document.Selection
import RowContract.Proofs.Plan

/-!
Entities by their identities.  Of the valid elements about an entity the last one counts, where an
entity is named by a text as it stands.  Whether an element is valid is told without the blanks
around its texts; if identities are compared so, too, the last one counts exactly if no two valid
elements spell one of them differently.
-/

namespace RowContract

def Element.trimmed? (e : Element) (name : String) : Option String :=
  (e.visible? name).map Text.trim

namespace Document

def validEntries (d : Document) (rule : FilterRule) : List Entry :=
  (d.entriesAt rule.xmlPath).filter fun (e, _) => rule.accepts e.attributes

theorem selected_subset (d : Document) (rule : FilterRule) :
    d.selected rule ⊆ d.validEntries rule :=
  (selectLast_subperm _).subset

theorem element?_of_mem_selected {d : Document} {rule : FilterRule} {entry : Entry}
    (h : entry ∈ d.selected rule) : d.element? entry.2 = some entry.1 :=
  element?_of_mem_entries
    (List.mem_filter.mp (List.mem_filter.mp (d.selected_subset rule h)).1).1

end Document

namespace Site

/-- A table that comes once among others has its own entities there, and no others. -/
theorem filter_entities {tables : List String} (h : tables.Nodup) (anchors : String → List Nat)
    {table : String} (htable : table ∈ tables) :
    (tables.flatMap fun t => (anchors t).map fun a => (t, a)).filter (·.1 == table) =
      (anchors table).map fun a => (table, a) := by
  have hother : ∀ t, t ≠ table → ((anchors t).map fun a => (t, a)).filter (·.1 == table) = [] :=
    fun t ht => List.filter_eq_nil_iff.mpr <| List.forall_mem_map.mpr fun _ _ => by simp [ht]
  have hown : ((anchors table).map fun a => (table, a)).filter (·.1 == table) =
      (anchors table).map fun a => (table, a) :=
    List.filter_eq_self.mpr <| List.forall_mem_map.mpr fun _ _ => beq_self_eq_true table
  obtain ⟨before, after, rfl⟩ := List.append_of_mem htable
  obtain ⟨-, hnodup, hapart⟩ := List.nodup_append.mp h
  have hbefore : ∀ t ∈ before, t ≠ table := fun t ht => hapart t ht table List.mem_cons_self
  have hafter : ∀ t ∈ after, t ≠ table := fun t ht heq =>
    (List.nodup_cons.mp hnodup).1 (heq ▸ ht)
  rw [List.filter_flatMap, List.flatMap_append, List.flatMap_cons, hown,
    List.flatMap_eq_nil_iff.mpr fun t ht => hother t (hbefore t ht),
    List.flatMap_eq_nil_iff.mpr fun t ht => hother t (hafter t ht), List.nil_append,
    List.append_nil]

/-- The entities of a table with a filter stand for the elements that are selected. -/
theorem anchors_of_history {c : Contract} (horder : c.tableInsertionOrder.Nodup) {d : Document}
    {done : List Stage} (h : history ⟨c, d⟩ = .ok done) {table : String} {rule : FilterRule}
    (hrule : c.entityRule? (c.mappingsFor table) = some rule) :
    (done.filter fun stage => stage.table == table).map Stage.anchor =
      (d.selected rule).map Prod.snd := by
  have htable : table ∈ c.tables := by
    obtain ⟨m, hm⟩ := List.exists_mem_of_ne_nil (c.mappingsFor table) fun hnil => by
      rw [hnil] at hrule
      cases hrule
    obtain ⟨hmem, htarget⟩ := Contract.mem_mappingsFor_iff.mp hm
    rw [← htarget]
    exact Contract.targetTable_mem_tables hmem
  have hanchors : c.anchors d (c.mappingsFor table) = (d.selected rule).map Prod.snd := by
    rw [Contract.anchors, hrule]
  have hown := filter_entities (Contract.nodup_tables horder)
    (fun t => c.anchors d (c.mappingsFor t)) htable
  rw [hanchors] at hown
  have hstages := congrArg (List.filter (·.1 == table)) (history_entities h)
  rw [List.filter_map, entities, hown] at hstages
  have hsnd := congrArg (List.map Prod.snd) hstages
  simpa only [List.map_map, Function.comp_def, List.map_id'] using hsnd

end Site

namespace Contract

/-- The entities of a table with an identity stand for valid elements, the last one for each text
that names an entity.  Without the blanks around these texts the last one stands for each exactly
if no two valid elements spell one of them differently. -/
theorem entities_keepLast {document : Json} {c : Contract} (hc : ofDocument document = .ok c)
    {table : String} {rule : FilterRule}
    (hrule : c.entityRule? (c.mappingsFor table) = some rule) {name : String}
    (hname : rule.identityAttribute = some name) {d : Document} {done : List Site.Stage}
    (hdone : Site.history ⟨c, d⟩ = .ok done) :
    (done.filter fun stage => stage.table == table).map Site.Stage.anchor =
        (d.selected rule).map Prod.snd ∧
      (∀ entry ∈ d.selected rule, d.element? entry.2 = some entry.1) ∧
      Document.KeepsLast (Element.visible? · name) (d.selected rule) (d.validEntries rule) ∧
      (Document.KeepsLast (Element.trimmed? · name) (d.selected rule) (d.validEntries rule) ↔
        ∀ a ∈ d.validEntries rule, ∀ b ∈ d.validEntries rule,
          (a.1.trimmed? name).isSome = true → a.1.trimmed? name = b.1.trimmed? name →
          a.1.visible? name = b.1.visible? name) := by
  have hkeeps : Document.KeepsLast (Element.visible? · name) (d.selected rule)
      (d.validEntries rule) := by
    rw [Document.selected, hname]
    show Document.KeepsLast (Document.identity? (some name))
      (Document.selectLast (some name) (d.validEntries rule)) _
    exact Document.keepsLast_selectLast _
  exact ⟨Site.anchors_of_history (wellFormed_of_ofDocument hc).orderNodup hdone hrule,
    fun _ => Document.element?_of_mem_selected, hkeeps,
    hkeeps.map_iff (d.selected_subset rule) Text.trim⟩

def numbered : Json :=
  .object
    [("element_filtering", .object
       [("filter_rules", .array
         [.object
           [("element_type", .string "contact"), ("xml_path", .string "/app/contact"),
            ("required_attributes", .object [("con_id", .bool true)]),
            ("identity_attribute", .string "con_id")]])]),
     ("mappings", .array
       [.object [("source_path", .string "/app/contact/@con_id"),
          ("target_table", .string "contact_base"), ("target_column", .string "con_id"),
          ("data_type", .string "int")],
        .object [("source_path", .string "/app/contact/@name"),
          ("target_table", .string "contact_base"), ("target_column", .string "name")]])]

/-- A contact under an old and a new name, with its number as it is spelled for each, and one that
has no number. -/
def renamed (first second : String) : Document where
  elements :=
    [{ path := "/app/contact", attributes := [("con_id", first), ("name", "old")] },
     { path := "/app/contact", attributes := [("con_id", second), ("name", "new")] },
     { path := "/app/contact", attributes := [("con_id", " "), ("name", "none")] }]

/-- A number that is spelled in one way names one contact. -/
theorem numbered_keepLast :
    ∃ c, ofDocument numbered = .ok c ∧
      ∃ rule, c.entityRule? (c.mappingsFor "contact_base") = some rule ∧
        rule.identityAttribute = some "con_id" ∧
        ∃ done, Site.history ⟨c, renamed " 1" " 1"⟩ = .ok done ∧
          (done.filter fun stage => stage.table == "contact_base").map Site.Stage.anchor = [1] ∧
          Document.KeepsLast (Element.visible? · "con_id") ((renamed " 1" " 1").selected rule)
            ((renamed " 1" " 1").validEntries rule) ∧
          Document.KeepsLast (Element.trimmed? · "con_id") ((renamed " 1" " 1").selected rule)
            ((renamed " 1" " 1").validEntries rule) := by
  have hrun : ((ofDocument numbered).toOption.any fun c =>
      (c.entityRule? (c.mappingsFor "contact_base")).any fun rule =>
        decide (rule.identityAttribute = some "con_id" ∧
          ((renamed " 1" " 1").selected rule).map Prod.snd = [1] ∧
          ∀ a ∈ (renamed " 1" " 1").validEntries rule,
            ∀ b ∈ (renamed " 1" " 1").validEntries rule,
              (a.1.trimmed? "con_id").isSome = true →
              a.1.trimmed? "con_id" = b.1.trimmed? "con_id" →
              a.1.visible? "con_id" = b.1.visible? "con_id") &&
        (Site.history ⟨c, renamed " 1" " 1"⟩).toOption.any fun _ => true) = true := by
    decide +kernel
  obtain ⟨c, hc, hrun⟩ := any_toOption_iff.mp hrun
  obtain ⟨rule, hrule, hrun⟩ := (Option.any_eq_true _ _).mp hrun
  obtain ⟨hfacts, hrun⟩ := (Bool.and_eq_true _ _).mp hrun
  obtain ⟨hname, hselected, hspelled⟩ := of_decide_eq_true hfacts
  obtain ⟨done, hdone, -⟩ := any_toOption_iff.mp hrun
  obtain ⟨hanchors, -, hkeeps, htrimmed⟩ := entities_keepLast hc hrule hname hdone
  exact ⟨c, hc, rule, hrule, hname, done, hdone, hanchors.trans hselected, hkeeps,
    htrimmed.mpr hspelled⟩

/-- With a blank more the same number names two contacts, and both rows have it for their key. -/
theorem numbered_splitsContact :
    ∃ c, ofDocument numbered = .ok c ∧
      ∃ rule, c.entityRule? (c.mappingsFor "contact_base") = some rule ∧
        rule.identityAttribute = some "con_id" ∧
        ¬ Document.KeepsLast (Element.trimmed? · "con_id") ((renamed "1" "1 ").selected rule)
          ((renamed "1" "1 ").validEntries rule) ∧
        ∃ done, Site.history ⟨c, renamed "1" "1 "⟩ = .ok done ∧
          (done.map fun stage => ((renamed "1" "1 ").element? stage.anchor).bind
            (Element.trimmed? · "con_id")) = [some "1", some "1"] ∧
          (done.map fun stage => stage.rows.map fun b => b.record.columns) =
            [[[("con_id", .int 1), ("name", .text "old")]],
             [[("con_id", .int 1), ("name", .text "new")]]] := by
  have hrun : ((ofDocument numbered).toOption.any fun c =>
      (c.entityRule? (c.mappingsFor "contact_base")).any fun rule =>
        decide (rule.identityAttribute = some "con_id" ∧
          ((renamed "1" "1 ").selected rule).filter (·.1.trimmed? "con_id" == some "1") ≠
            (((renamed "1" "1 ").validEntries rule).filter
              (·.1.trimmed? "con_id" == some "1")).getLast?.toList) &&
        (Site.history ⟨c, renamed "1" "1 "⟩).toOption.any fun done =>
          decide ((done.map fun stage => ((renamed "1" "1 ").element? stage.anchor).bind
              (Element.trimmed? · "con_id")) = [some "1", some "1"] ∧
            (done.map fun stage => stage.rows.map fun b => b.record.columns) =
              [[[("con_id", .int 1), ("name", .text "old")]],
               [[("con_id", .int 1), ("name", .text "new")]]])) = true := by
    decide +kernel
  obtain ⟨c, hc, hrun⟩ := any_toOption_iff.mp hrun
  obtain ⟨rule, hrule, hrun⟩ := (Option.any_eq_true _ _).mp hrun
  obtain ⟨hfacts, hrun⟩ := (Bool.and_eq_true _ _).mp hrun
  obtain ⟨hname, htwo⟩ := of_decide_eq_true hfacts
  obtain ⟨done, hdone, hrun⟩ := any_toOption_iff.mp hrun
  exact ⟨c, hc, rule, hrule, hname, fun h => htwo (h "1"), done, hdone, of_decide_eq_true hrun⟩

end Contract

end RowContract
