import RowContract.Proofs.Contract.RoundTrip

/-!
The two ways to write a chain.  A chain may be an array of texts, one for each operation, or one
text with commas in between.  No comma within a parameter is taken for one of these, because the
parentheses around it keep it from being cut at, so both ways name the same operations.
-/

namespace RowContract

open RowContract.Text

/-! ### Cutting at commas -/

theorem splitTopLevel_ne_nil (depth : Nat) (cs : List Char) : splitTopLevel depth cs ≠ [] := by
  cases cs with
  | nil => exact List.cons_ne_nil _ _
  | cons c r =>
      unfold splitTopLevel
      split
      · exact List.cons_ne_nil _ _
      · dsimp only
        split <;> exact List.cons_ne_nil _ _

theorem splitTopLevel_comma (r : List Char) :
    splitTopLevel 0 (',' :: r) = [] :: splitTopLevel 0 r := rfl

def depthBehind (depth : Nat) (c : Char) : Nat :=
  if c = '(' then depth + 1 else if c = ')' then depth - 1 else depth

theorem splitTopLevel_cons {depth : Nat} {c : Char} (h : ¬ (c = ',' ∧ depth = 0)) (r : List Char) :
    splitTopLevel depth (c :: r) =
      (splitTopLevel (depthBehind depth c) r).modifyHead (c :: ·) := by
  rw [splitTopLevel, if_neg h]
  dsimp only
  rw [← depthBehind]
  cases hparts : splitTopLevel (depthBehind depth c) r with
  | nil => exact absurd hparts (splitTopLevel_ne_nil _ _)
  | cons part parts => rfl

/-- A text that is not cut, begun at one depth and left at another: what follows it is cut as it
would be without it. -/
def Uncut (depth : Nat) (cs : List Char) (after : Nat) : Prop :=
  ∀ rest, splitTopLevel depth (cs ++ rest) = (splitTopLevel after rest).modifyHead (cs ++ ·)

theorem uncut_nil (depth : Nat) : Uncut depth [] depth := by
  intro rest
  exact (congrFun List.modifyHead_id (splitTopLevel depth rest)).symm

theorem Uncut.append {depth between after : Nat} {cs ds : List Char} (hcs : Uncut depth cs between)
    (hds : Uncut between ds after) : Uncut depth (cs ++ ds) after := by
  intro rest
  rw [List.append_assoc, hcs, hds, List.modifyHead_modifyHead]
  congr 1
  funext part
  exact (List.append_assoc cs ds part).symm

theorem uncut_singleton {depth : Nat} {c : Char} (h : ¬ (c = ',' ∧ depth = 0)) :
    Uncut depth [c] (depthBehind depth c) := by
  intro rest
  exact splitTopLevel_cons h rest

/-- Characters that are no parenthesis leave the depth as it is. -/
theorem uncut_of_forall {depth : Nat} {cs : List Char}
    (h : ∀ c ∈ cs, c ≠ '(' ∧ c ≠ ')' ∧ ¬ (c = ',' ∧ depth = 0)) : Uncut depth cs depth := by
  induction cs with
  | nil => exact uncut_nil depth
  | cons c r ih =>
      obtain ⟨⟨hopen, hclose, hcomma⟩, hr⟩ := List.forall_mem_cons.mp h
      have hc := uncut_singleton hcomma
      rw [depthBehind, if_neg hopen, if_neg hclose] at hc
      exact hc.append (ih hr)

/-- Within parentheses nothing is cut. -/
theorem uncut_parenthesised {cs : List Char} (h : ∀ c ∈ cs, c ≠ '(' ∧ c ≠ ')') :
    Uncut 0 ('(' :: (cs ++ [')'])) 0 := by
  have hopen : Uncut 0 ['('] 1 := uncut_singleton (by decide)
  have hinside : Uncut 1 cs 1 :=
    uncut_of_forall fun c hc => ⟨(h c hc).1, (h c hc).2, fun hzero => Nat.one_ne_zero hzero.2⟩
  have hclose : Uncut 1 [')'] 0 := uncut_singleton (by decide)
  exact hopen.append (hinside.append hclose)

/-- Texts that are joined by commas fall into the same texts again, if none of them is cut. -/
theorem splitTopLevel_intercalate {parts : List (List Char)} (hparts : parts ≠ [])
    (h : ∀ part ∈ parts, Uncut 0 part 0) : splitTopLevel 0 ([','].intercalate parts) = parts := by
  induction parts with
  | nil => exact absurd rfl hparts
  | cons first rest ih =>
      have hfirst := h first List.mem_cons_self
      cases rest with
      | nil =>
          rw [List.intercalate_singleton]
          have hcut := hfirst []
          rw [List.append_nil] at hcut
          rw [hcut]
          simp [splitTopLevel]
      | cons second rest =>
          have hrest := ih (List.cons_ne_nil _ _) fun part hpart =>
            h part (List.mem_cons_of_mem first hpart)
          rw [List.intercalate_cons_cons, List.append_assoc, hfirst, List.singleton_append,
            splitTopLevel_comma, hrest]
          simp

/-! ### Blanks around a text -/

def Padded (s : String) (cs : List Char) : Prop :=
  ∃ before after, (∀ c ∈ before, isBlank c = true) ∧ (∀ c ∈ after, isBlank c = true) ∧
    cs = before ++ (s.toList ++ after)

theorem Padded.trim_eq {s : String} {cs : List Char} (h : Padded s cs) (hs : Trimmed s.toList)
    (hne : s.toList ≠ []) : trim (String.ofList cs) = s := by
  obtain ⟨before, after, hbefore, hafter, rfl⟩ := h
  obtain ⟨c, r, hcons⟩ := List.exists_cons_of_ne_nil hne
  have hhead : isBlank c = false := hs.head c (by rw [hcons]; rfl)
  have hfront : dropBlanks (before ++ (s.toList ++ after)) = s.toList ++ after := by
    rw [dropBlanks, List.dropWhile_append_of_pos hbefore, hcons]
    exact List.dropWhile_cons_of_neg (Bool.eq_false_iff.mp hhead)
  have hback : dropTrailingBlanks (s.toList ++ after) = dropTrailingBlanks s.toList := by
    have hreverse : ∀ c ∈ after.reverse, isBlank c = true := fun c hc =>
      hafter c (List.mem_reverse.mp hc)
    rw [dropTrailingBlanks, List.reverse_append, List.dropWhile_append_of_pos hreverse]
    rfl
  rw [trim, trimChars, String.toList_ofList, hfront, hback, dropTrailingBlanks_of_last hs.last,
    String.ofList_toList]

namespace Operation

theorem parse_eq_of_trim_eq {s t : String} (h : trim s = trim t) : parse s = parse t := by
  unfold parse
  rw [h]

theorem trimmed_display (op : Operation) : Trimmed op.display.toList := by
  rw [display_eq_withParameter]
  exact trimmed_withParameter (isVerb_spelling op)

theorem display_ne_nil (op : Operation) : op.display.toList ≠ [] := by
  intro hnil
  have hblank := isBlankText_display op
  rw [isBlankText, hnil] at hblank
  cases hblank

theorem uncut_verb {verb : String} (h : IsVerb verb) : Uncut 0 verb.toList 0 := by
  refine uncut_of_forall fun c hc => ?_
  have hchar := h.chars c hc
  refine ⟨?_, ?_, fun hcomma => ?_⟩
  · rintro rfl
    cases hchar
  · rintro rfl
    cases hchar
  · obtain ⟨rfl, -⟩ := hcomma
    cases hchar

theorem uncut_display {op : Operation} (h : op.WellFormed) : Uncut 0 op.display.toList 0 := by
  have hverb := uncut_verb (isVerb_spelling op)
  rw [display_eq_withParameter]
  cases hparameter : op.spelling.2 with
  | none => exact hverb
  | some p =>
      have hp := (h p hparameter).noParenthesis
      rw [toList_withParameter_some]
      refine hverb.append (uncut_parenthesised fun c hc => ?_)
      simpa using hp c hc

theorem uncut_of_isBlank {cs : List Char} (h : ∀ c ∈ cs, isBlank c = true) : Uncut 0 cs 0 := by
  refine uncut_of_forall fun c hc => ?_
  have hblank := h c hc
  refine ⟨?_, ?_, fun hcomma => ?_⟩
  · rintro rfl
    cases hblank
  · rintro rfl
    cases hblank
  · obtain ⟨rfl, -⟩ := hcomma
    cases hblank

theorem uncut_padded {op : Operation} (h : op.WellFormed) {cs : List Char}
    (hcs : Padded op.display cs) : Uncut 0 cs 0 := by
  obtain ⟨before, after, hbefore, hafter, rfl⟩ := hcs
  exact (uncut_of_isBlank hbefore).append ((uncut_display h).append (uncut_of_isBlank hafter))

/-! ### Both ways to write a chain -/

/-- Texts that name operations, each with blanks around it, name these operations. -/
theorem ofTokens_padded {ops : List Operation} {parts : List (List Char)}
    (hparts : List.Forall₂ (fun op part => Padded op.display part) ops parts)
    (h : ∀ op ∈ ops, op.WellFormed) : ofTokens (parts.map String.ofList) = .ok ops := by
  induction hparts with
  | nil => rfl
  | @cons op part ops parts hpart _ ih =>
      obtain ⟨hop, hops⟩ := List.forall_mem_cons.mp h
      have htrim : trim (String.ofList part) = op.display :=
        hpart.trim_eq op.trimmed_display op.display_ne_nil
      have hshows : isBlankText (String.ofList part) = false := by
        obtain ⟨before, after, -, -, rfl⟩ := hpart
        have hdisplay := isBlankText_display op
        rw [isBlankText, List.all_eq_false] at hdisplay ⊢
        obtain ⟨c, hc, hvisible⟩ := hdisplay
        exact ⟨c, by simp [hc], hvisible⟩
      have hparse : parse (String.ofList part) = .ok op := by
        rw [parse_eq_of_trim_eq (htrim.trans (trim_of_trimmed op.trimmed_display).symm)]
        exact parse_display hop
      have hrest := ih hops
      unfold ofTokens at hrest ⊢
      rw [List.map_cons, List.filter_cons_of_pos (by rw [hshows]; rfl), List.mapM_cons, hparse]
      show (Except.ok op >>= _) = _
      rw [ok_bind, hrest]
      rfl

/-- Operations that texts name are the same in an array of their texts and in one text with commas
between these, whatever blanks stand around the commas. -/
theorem chainOfJson_array_and_text {ops : List Operation}
    (h : ∀ op ∈ ops, ∃ token, parse token = .ok op) :
    chainOfJson (.array (ops.map fun op => .string op.display)) = .ok ops ∧
      ∀ parts : List (List Char), List.Forall₂ (fun op part => Padded op.display part) ops parts →
        chainOfJson (.string (String.ofList ([','].intercalate parts))) = .ok ops := by
  have hops : ∀ op ∈ ops, op.WellFormed := by
    intro op hop
    obtain ⟨token, htoken⟩ := h op hop
    exact wellFormed_of_parse htoken
  refine ⟨chainOfJson_display hops, fun parts hparts => ?_⟩
  have huncut : ∀ part ∈ parts, Uncut 0 part 0 := by
    intro part hpart
    obtain ⟨op, hop, hpadded⟩ := Json.exists_mem_of_forall₂ hparts part hpart
    exact uncut_padded (hops op hop) hpadded
  rw [chainOfJson, String.toList_ofList]
  by_cases hnil : parts = []
  · -- Without operations there is one blank text, which names none.
    subst hnil
    cases hparts
    rfl
  · rw [splitTopLevel_intercalate hnil huncut]
    exact ofTokens_padded hparts hops

/-- A parameter with a comma and blanks of its own, and blanks around the commas of the chain. -/
theorem chainOfJson_array_and_text_score :
    parse " add_score( V4, P 5 )" = .ok (.addScore "V4, P 5") ∧
      chainOfJson (.array [.string "enum", .string "add_score(V4, P 5)", .string "add_history"]) =
        .ok [.enum, .addScore "V4, P 5", .addHistory none] ∧
      chainOfJson (.string "enum ,\tadd_score(V4, P 5),add_history") =
        .ok [.enum, .addScore "V4, P 5", .addHistory none] := by
  have hscore : parse " add_score( V4, P 5 )" = .ok (.addScore "V4, P 5") := by decide +kernel
  have hops : ∀ op ∈ [Operation.enum, .addScore "V4, P 5", .addHistory none],
      ∃ token, parse token = .ok op := by
    simp only [List.forall_mem_cons]
    exact ⟨⟨"enum", by decide +kernel⟩, ⟨_, hscore⟩, ⟨"add_history", by decide +kernel⟩,
      List.forall_mem_nil _⟩
  have hboth := chainOfJson_array_and_text hops
  refine ⟨hscore, hboth.1, ?_⟩
  have hparts := hboth.2 ["enum ".toList, "\tadd_score(V4, P 5)".toList, "add_history".toList]
    (.cons ⟨[], [' '], List.forall_mem_nil _, List.forall_mem_singleton.mpr rfl, rfl⟩ <|
      .cons ⟨['\t'], [], List.forall_mem_singleton.mpr rfl, List.forall_mem_nil _, rfl⟩ <|
      .cons ⟨[], [], List.forall_mem_nil _, List.forall_mem_nil _, rfl⟩ .nil)
  exact hparts

end Operation

end RowContract
