import RowContract.Proofs.Contract.Expressions
import RowContract.Proofs.Contract.RoundTrip
import RowContract.Proofs.Entity.Correspondence

/-!
Tables whose entries come in any order.  A name that a table has is found wherever it stands, so
tables of codes and compiled expressions may be gone through in any order.  Only a lookup that puts
up with letters of another case takes the first entry that will do: there the order bears on the
result exactly if the word is no entry itself, and is the same but for case as words with different
codes.  A rule that comes to no such lookup resolves alike in every order, and where no rule does,
the records of a document are the same.
-/

namespace RowContract

/-- A contract with other tables of codes and other expressions. -/
def Contract.withTables (c : Contract) (enums : Fields CodeTable) (bits : BitConversions)
    (expressions : Fields Expression) : Contract :=
  { c with enumMappings := enums, bitConversions := bits, expressions := expressions }

/-- The same contract with its tables gone through in another order. -/
structure Contract.Rehashed (c c' : Contract) : Prop where
  enumMappings : Fields.Reordered List.Perm c.enumMappings c'.enumMappings
  charToBit : c.bitConversions.charToBit.Perm c'.bitConversions.charToBit
  booleanToBit : c.bitConversions.booleanToBit.Perm c'.bitConversions.booleanToBit
  expressions : c.expressions.Perm c'.expressions
  rest : c' = c.withTables c'.enumMappings c'.bitConversions c'.expressions

/-! ### Lookups by name -/

namespace Contract.Rehashed

variable {c c' : Contract}

theorem enumCode?_eq (h : c.Rehashed c') (hc : c.WellFormed) (table word : String) :
    c'.enumCode? table word = c.enumCode? table word := by
  have hrel := h.enumMappings.get? hc.enumNodup table
  unfold enumCode?
  generalize hcodes : c.enumMappings.get? table = found at hrel ⊢
  generalize c'.enumMappings.get? table = found' at hrel ⊢
  cases hrel with
  | none => rfl
  | some hperm =>
      have hnodup := (hc.enumTables _ (Fields.mem_of_get? hcodes)).nodup
      exact congrArg (Option.map Code.toValue) (Fields.get?_perm hperm hnodup word)

theorem compiled?_eq (h : c.Rehashed c') (hnodup : c.expressions.names.Nodup) (text : String) :
    c'.compiled? text = c.compiled? text := by
  have hget := Fields.get?_perm h.expressions hnodup
  rw [compiled?, compiled?, hget, hget]

end Contract.Rehashed

/-! ### Lookups ignoring case -/

/-- The first of some elements has the same image in every order, if all that will do have one
image. -/
theorem map_find?_perm {α β : Type} {xs ys : List α} {p : α → Bool} {f : α → β} (hperm : xs.Perm ys)
    (h : ∀ a ∈ xs, ∀ b ∈ xs, p a = true → p b = true → f a = f b) :
    (ys.find? p).map f = (xs.find? p).map f := by
  cases hx : xs.find? p with
  | none =>
      have hy : ys.find? p = none := List.find?_eq_none.mpr fun b hb =>
        List.find?_eq_none.mp hx b (hperm.mem_iff.mpr hb)
      rw [hy]
  | some a =>
      have ha := List.mem_of_find?_eq_some hx
      have hpa := List.find?_some hx
      cases hy : ys.find? p with
      | none => exact absurd hpa (List.find?_eq_none.mp hy a (hperm.mem_iff.mp ha))
      | some b =>
          have hb := hperm.mem_iff.mpr (List.mem_of_find?_eq_some hy)
          exact congrArg some (h b hb a ha (List.find?_some hy) hpa)

theorem Code.toValue_injective : Function.Injective Code.toValue := by
  intro a b h
  cases a <;> cases b <;> cases h <;> rfl

theorem Code.toValue_ne_null (code : Code) : code.toValue ≠ .null := by
  cases code <;> exact nofun

/-- A code that is missing shows. -/
theorem Code.map_toValue_getD_injective :
    Function.Injective fun code : Option Code => (code.map toValue).getD .null := by
  rintro (_ | a) (_ | b) h
  · rfl
  · exact absurd h.symm b.toValue_ne_null
  · exact absurd h a.toValue_ne_null
  · exact congrArg some (toValue_injective h)

namespace CodeTable

variable {codes codes' : CodeTable} {word : String}

/-- The word is an entry, or those that are the same but for case have one code. -/
def SettledAt (codes : CodeTable) (word : String) : Prop :=
  codes.get? word = none → ∀ e ∈ codes, ∀ f ∈ codes,
    Text.sameIgnoringCase e.1 word = true → Text.sameIgnoringCase f.1 word = true → e.2 = f.2

/-- Then it does not matter which entry comes first. -/
theorem SettledAt.first?_perm (h : codes.SettledAt word) (hnodup : codes.names.Nodup)
    (hperm : codes.Perm codes') : first? codes' word = first? codes word := by
  rw [first?, first?, Fields.get?_perm hperm hnodup]
  cases hget : codes.get? word with
  | some code => rfl
  | none =>
      rw [Option.none_or, Option.none_or]
      exact map_find?_perm hperm (h hget)

theorem first?_cons {e : String × Code} {rest : CodeTable}
    (h : Fields.get? (e :: rest) word = none) (hsame : Text.sameIgnoringCase e.1 word = true) :
    first? (e :: rest) word = some e.2 := by
  rw [first?, h, Option.none_or, List.find?_cons, hsame]
  rfl

/-- An entry that will do counts if it is put first. -/
theorem exists_perm_first? (hnodup : codes.names.Nodup) (h : codes.get? word = none)
    {e : String × Code} (he : e ∈ codes) (hsame : Text.sameIgnoringCase e.1 word = true) :
    ∃ codes' : CodeTable, codes.Perm codes' ∧ first? codes' word = some e.2 := by
  obtain ⟨before, after, rfl⟩ := List.append_of_mem he
  have hperm : (before ++ e :: after).Perm (e :: (before ++ after)) := List.perm_middle
  exact ⟨_, hperm, first?_cons ((Fields.get?_perm hperm hnodup word).trans h) hsame⟩

/-- A table is settled at a word exactly if the order of its entries does not bear on the code. -/
theorem settledAt_iff (hnodup : codes.names.Nodup) :
    codes.SettledAt word ↔
      ∀ codes' : CodeTable, codes.Perm codes' → first? codes' word = first? codes word := by
  constructor
  · exact fun h codes' => h.first?_perm hnodup
  · intro h hget e he f hf hsame hsame'
    obtain ⟨codes₁, hperm₁, he⟩ := exists_perm_first? hnodup hget he hsame
    obtain ⟨codes₂, hperm₂, hf⟩ := exists_perm_first? hnodup hget hf hsame'
    rw [h codes₁ hperm₁] at he
    rw [h codes₂ hperm₂, he] at hf
    exact Option.some.inj hf

/-- A table that has one code for words that are the same but for case is settled everywhere. -/
theorem settledAt_of_sameIgnoringCase
    (h : ∀ e ∈ codes, ∀ f ∈ codes, Text.sameIgnoringCase e.1 f.1 = true → e.2 = f.2)
    (word : String) : codes.SettledAt word := by
  intro _ e he f hf hsame hsame'
  refine h e he f hf (Text.sameIgnoringCase_iff.mpr ?_)
  rw [Text.sameIgnoringCase_iff.mp hsame, Text.sameIgnoringCase_iff.mp hsame']

end CodeTable

/-! ### Operations -/

/-- The order of tables does not bear on what the operation makes of the value. -/
def Contract.SettlesAt (c : Contract) (op : Operation) (v : Value) : Prop :=
  match op with
  | .charToBit => ∀ s ∈ v.text?, c.bitConversions.charToBit.SettledAt (Text.trim s)
  | .booleanToBit => ∀ s ∈ v.text?, c.bitConversions.booleanToBit.SettledAt (Text.trim s)
  | _ => True

namespace ChainContext

theorem convertWord_codeIgnoringCase? (codes : CodeTable) (v : Value) :
    convertWord (fun word => Contract.codeIgnoringCase? codes (Text.trim word)) v =
      (v.text?.bind fun word => (codes.first? (Text.trim word)).map Code.toValue).getD .null := by
  unfold convertWord
  cases v.text? <;> rfl

theorem convertWord_perm_iff {codes : CodeTable} (hnodup : codes.names.Nodup) (v : Value) :
    (∀ s ∈ v.text?, codes.SettledAt (Text.trim s)) ↔ ∀ codes' : CodeTable, codes.Perm codes' →
      convertWord (fun word => Contract.codeIgnoringCase? codes' (Text.trim word)) v =
        convertWord (fun word => Contract.codeIgnoringCase? codes (Text.trim word)) v := by
  simp only [convertWord_codeIgnoringCase?, CodeTable.settledAt_iff hnodup]
  cases v.text? with
  | none => exact iff_of_true nofun fun _ _ => rfl
  | some s =>
      constructor
      · intro h codes' hperm
        rw [Option.bind_some, Option.bind_some, h s rfl codes' hperm]
      · intro h s' hs' codes' hperm
        obtain rfl := Option.some.inj hs'
        exact Code.map_toValue_getD_injective (h codes' hperm)

/-- The chain of the rule comes to no lookup that the order of a table bears on. -/
def OrderFree (ctx : ChainContext) (raw : Value) : Prop :=
  ∀ op rest v marked, ctx.Reaches (entry raw) (ctx.start raw) ⟨op :: rest, v, marked⟩ →
    ctx.contract.SettlesAt op v

section
variable (ctx : ChainContext) {document : Json} {c' : Contract} {fields' : Expr.Context}
  (hc : Contract.ofDocument document = .ok ctx.contract) (h : ctx.contract.Rehashed c')
  (hfields : ∀ name, fields'.get? name = ctx.fields.get? name)
include hc h hfields

theorem evaluate_rehashed :
    ({ ctx with contract := c', fields := fields' } : ChainContext).evaluate = ctx.evaluate := by
  have hcompiled := h.compiled?_eq (Contract.nodup_expressions hc)
  have hoperand (e : Expression) : e.evaluate ctx.mapping.label fields' =
      e.evaluate ctx.mapping.label ctx.fields := by
    rw [Expression.evaluate, Expression.evaluate,
      (e.root.sameOver fun name _ => hfields name).eval]
  simp only [evaluate, expression, hcompiled, hoperand]

/-- A settled operation gives the same over tables and fields in another order. -/
theorem applyOperation_rehashed {op : Operation} {v : Value}
    (hop : ctx.contract.SettlesAt op v) :
    ({ ctx with contract := c', fields := fields' } : ChainContext).applyOperation op v =
      ctx.applyOperation op v := by
  have hwf := Contract.wellFormed_of_ofDocument hc
  cases op with
  | enum =>
      change lookUp _ v = lookUp _ v
      simp only [lookUp, h.enumCode?_eq hwf]
  | charToBit =>
      have hperm := (convertWord_perm_iff hwf.bitConversions.charToBit.nodup v).mp hop
      exact congrArg pure (hperm _ h.charToBit)
  | booleanToBit =>
      have hperm := (convertWord_perm_iff hwf.bitConversions.booleanToBit.nodup v).mp hop
      exact congrArg pure (hperm _ h.booleanToBit)
  | calculatedField =>
      change calculate _ = calculate _
      rw [calculate, calculate, evaluate_rehashed ctx hc h hfields]
  | _ => rfl

theorem resolve_rehashed {raw : Value} (hfree : ctx.OrderFree raw) :
    ({ ctx with contract := c', fields := fields' } : ChainContext).resolve raw =
      ctx.resolve raw :=
  resolve_congr rfl fun hreach => applyOperation_rehashed ctx hc h hfields (hfree _ _ _ _ hreach)

end

end ChainContext

/-- An operation that gives the same over every order of the tables is settled. -/
theorem Contract.settlesAt_of_applyOperation {c : Contract} (hc : c.WellFormed) {op : Operation}
    {v : Value} (m : FieldMapping)
    (h : ∀ c', c.Rehashed c' → (⟨c', m, [], none⟩ : ChainContext).applyOperation op v =
      (⟨c, m, [], none⟩ : ChainContext).applyOperation op v) : c.SettlesAt op v := by
  have hrefl : Fields.Reordered List.Perm c.enumMappings c.enumMappings :=
    .refl (fun _ => .refl _) _
  cases op with
  | charToBit =>
      refine (ChainContext.convertWord_perm_iff hc.bitConversions.charToBit.nodup v).mpr
        fun codes' hperm => ?_
      have hsame := h (c.withTables c.enumMappings { c.bitConversions with charToBit := codes' }
        c.expressions) ⟨hrefl, hperm, .refl _, .refl _, rfl⟩
      exact Except.ok.inj (congrArg (fun x : Transform Value => x.run.value) hsame)
  | booleanToBit =>
      refine (ChainContext.convertWord_perm_iff hc.bitConversions.booleanToBit.nodup v).mpr
        fun codes' hperm => ?_
      have hsame := h (c.withTables c.enumMappings { c.bitConversions with booleanToBit := codes' }
        c.expressions) ⟨hrefl, .refl _, hperm, .refl _, rfl⟩
      exact Except.ok.inj (congrArg (fun x : Transform Value => x.run.value) hsame)
  | _ => trivial

/-! ### Records -/

namespace Site

/-- No rule comes to a lookup that the order of a table bears on, whatever it reads for an entity
and whatever its row has so far. -/
def OrderFree (s : Site) : Prop :=
  ∀ m ∈ s.contract.mappings, ∀ anchor record,
    let source := m.source? s.document anchor
    (⟨s.contract, m, fieldValues source record, some s.contacts⟩ : ChainContext).OrderFree
      (m.rawValue source)

/-- Beside what fields resolve to, nothing is asked of the tables. -/
theorem corresponds_withTables {c : Contract} {enums : Fields CodeTable} {bits : BitConversions}
    {expressions : Fields Expression} {d : Document}
    (h : ∀ m ∈ c.mappings, ∀ anchor record,
      let source := m.source? d anchor
      let fields := fieldValues source record
      let contacts := some (contacts ⟨c, d⟩)
      (⟨c.withTables enums bits expressions, m, fields, contacts⟩ : ChainContext).resolve
          (m.rawValue source) =
        (⟨c, m, fields, contacts⟩ : ChainContext).resolve (m.rawValue source)) :
    Corresponds id ⟨c, d⟩ ⟨c.withTables enums bits expressions, d⟩ where
  tables := rfl
  rules _ := rfl
  anchors _ := (List.map_id _).symm
  keys table anchor built := by
    rw [Built.moved_id, List.map_id]
    rfl
  rule m hm built anchor w := by
    have hrule : applyRule ⟨c.withTables enums bits expressions, d⟩ built anchor m w =
        applyRule ⟨c, d⟩ built anchor m w := by
      have hcontacts : contacts ⟨c.withTables enums bits expressions, d⟩ = contacts ⟨c, d⟩ := rfl
      unfold applyRule
      dsimp only
      rw [hcontacts, h m hm]
      rfl
    rw [Built.moved_id, Draft.moved_id, List.map_id, id, id, hrule]
    exact .refl _

end Site

/-- What does not depend on the order in which the tables of an accepted contract are gone through:
what an operation makes of a value, exactly if it is settled there; what a rule resolves to, where
its chain comes to settled operations only, and for it the other fields may come in any order as
well; and the records of a document where that holds of all rules. -/
theorem Contract.rehashed_alike {document : Json} {c : Contract}
    (hc : ofDocument document = .ok c) :
    (∀ op v, c.SettlesAt op v ↔ ∀ c', c.Rehashed c' → ∀ m fields contacts,
      (⟨c', m, fields, contacts⟩ : ChainContext).applyOperation op v =
        (⟨c, m, fields, contacts⟩ : ChainContext).applyOperation op v) ∧
    ∀ c', c.Rehashed c' →
      (∀ m fields fields' contacts raw, fields.names.Nodup → fields.Perm fields' →
        (⟨c, m, fields, contacts⟩ : ChainContext).OrderFree raw →
          (⟨c', m, fields', contacts⟩ : ChainContext).resolve raw =
            (⟨c, m, fields, contacts⟩ : ChainContext).resolve raw) ∧
      ∀ d, (Site.mk c d).OrderFree → c'.records d = c.records d := by
  have hwf := wellFormed_of_ofDocument hc
  refine ⟨fun op v => ⟨fun hop c' h m fields contacts => ?_, fun h => ?_⟩, fun c' h => ⟨?_, ?_⟩⟩
  · exact ChainContext.applyOperation_rehashed ⟨c, m, fields, contacts⟩ hc h (fun _ => rfl) hop
  · exact settlesAt_of_applyOperation hwf { sourcePath := "", targetTable := "" }
      fun c' hc' => h c' hc' _ [] none
  · intro m fields fields' contacts raw hnodup hperm hfree
    exact ChainContext.resolve_rehashed ⟨c, m, fields, contacts⟩ hc h
      (Fields.get?_perm hperm hnodup) hfree
  · intro d hfree
    have hcorresponds : Site.Corresponds id ⟨c, d⟩ ⟨c', d⟩ := by
      rw [h.rest]
      refine Site.corresponds_withTables fun m hm anchor record => ?_
      dsimp only
      rw [← h.rest]
      exact ChainContext.resolve_rehashed ⟨c, m, _, _⟩ hc h (fun _ => rfl)
        (hfree m hm anchor record)
    exact hcorresponds.records_run

/-! ### Answers -/

def answer : FieldMapping where
  sourcePath := "/app/@answer"
  targetTable := "app_base"
  targetColumn := "answer"
  dataType := .bit
  chain := [.charToBit]

def answers (words : List (String × Int)) : Contract where
  bitConversions := { charToBit := words.map fun e => (e.1, .int e.2) }
  mappings := [answer]

theorem answers_wellFormed {words : List (String × Int)} (hnodup : (words.map Prod.fst).Nodup)
    (hfits : ∀ e ∈ words, Text.fitsSigned e.2 = true) : (answers words).WellFormed where
  targetSchema := (by decide : Schema.isIdentifier "dbo".toList = true)
  orderNames := List.forall_mem_nil _
  orderNodup := List.nodup_nil
  elementFiltering := ⟨List.forall_mem_nil _, ContactRoles.isPath_default⟩
  relationships := List.forall_mem_nil _
  enumNodup := List.nodup_nil
  enumTables := List.forall_mem_nil _
  bitConversions := by
    refine ⟨⟨⟨?_, List.forall_mem_map.mpr hfits⟩, ?_⟩, CodeTable.isBitTable_nil⟩
    · unfold answers Fields.names
      rw [List.map_map]
      exact hnodup
    · exact List.forall_mem_map.mpr fun _ _ => trivial
  mappings := by
    refine List.forall_mem_singleton.mpr ⟨by decide, nofun, by decide, trivial, nofun, ?_, nofun⟩
    exact List.forall_mem_singleton.mpr nofun

/-- The contract is accepted as it is written, whatever the words. -/
theorem answers_accepted {words : List (String × Int)} (hnodup : (words.map Prod.fst).Nodup)
    (hfits : ∀ e ∈ words, Text.fitsSigned e.2 = true) :
    Contract.ofDocument (answers words).toJson = .ok (answers words) :=
  Contract.ofDocument_of_wellFormed (answers_wellFormed hnodup hfits) rfl rfl

theorem answers_rehashed {words words' : List (String × Int)} (h : words.Perm words') :
    (answers words).Rehashed (answers words') :=
  ⟨.refl (fun _ => .refl _) _, h.map _, .refl _, .refl _, rfl⟩

/-- An answer is the bit of its word. -/
theorem resolve_answer {words : List (String × Int)} {s : String} {code : Code} {v : Value}
    (hs : Text.isBlankText s = false)
    (hcode : CodeTable.first? (answers words).bitConversions.charToBit (Text.trim s) = some code)
    (hv : answer.convert code.toValue = some v) (hnull : v.isNull = false) :
    ((⟨answers words, answer, [], none⟩ : ChainContext).resolve (.text s)).run.value =
      .ok (.column v) := by
  have hentry : ChainContext.entry (.text s) = .text s := if_neg (Bool.eq_false_iff.mp hs)
  have happly : ((⟨answers words, answer, [], none⟩ : ChainContext).applyOperation .charToBit
      (.text s)).run.value = .ok code.toValue := by
    refine congrArg Except.ok ((ChainContext.convertWord_codeIgnoringCase? _ _).trans ?_)
    change ((CodeTable.first? _ (Text.trim s)).map Code.toValue).getD .null = _
    rw [hcode]
    rfl
  have hchain : (⟨answers words, answer, [], none⟩ : ChainContext).restValue (.text s)
      ⟨[.charToBit], .text s, false⟩ = .ok code.toValue := by
    rw [ChainContext.restValue_cons (by simp), happly, ok_bind,
      if_neg (mt Value.isNull_iff.mp code.toValue_ne_null)]
    rfl
  have hsettled : answer.settled? code.toValue = some v := by
    rw [FieldMapping.settled?, hv, Option.getD_some, hnull]
    rfl
  rw [ChainContext.resolve_value, ChainContext.start, hentry]
  change ChainContext.restValue _ _ ⟨[.charToBit], .text s, false⟩ >>= _ = _
  rw [hchain, ok_bind, ChainContext.finish_value]
  dsimp only
  rw [hsettled]
  rfl

/-- Two spellings of one word that say the same, and a word that says the opposite. -/
def agreeing : List (String × Int) := [("YES", 1), ("yes", 1), ("no", 0)]

theorem answers_agreeing_settlesAt (op : Operation) (v : Value) :
    (answers agreeing).SettlesAt op v := by
  cases op with
  | charToBit =>
      refine fun s _ => CodeTable.settledAt_of_sameIgnoringCase ?_ _
      simp only [Text.sameIgnoringCase_iff]
      decide
  | booleanToBit => exact fun _ _ _ => nofun
  | _ => trivial

/-- The words may stand in any order. -/
theorem answers_agreeing_alike :
    Contract.ofDocument (answers agreeing).toJson = .ok (answers agreeing) ∧
      (answers agreeing).Rehashed (answers agreeing.reverse) ∧
      (∀ raw, (⟨answers agreeing.reverse, answer, [], none⟩ : ChainContext).resolve raw =
        (⟨answers agreeing, answer, [], none⟩ : ChainContext).resolve raw) ∧
      ∀ d, (answers agreeing.reverse).records d = (answers agreeing).records d := by
  have haccepted : Contract.ofDocument (answers agreeing).toJson = .ok (answers agreeing) :=
    answers_accepted (by decide) (by decide)
  have hrehashed := answers_rehashed (List.reverse_perm agreeing).symm
  obtain ⟨-, halike⟩ := Contract.rehashed_alike haccepted
  obtain ⟨hresolve, hrecords⟩ := halike _ hrehashed
  refine ⟨haccepted, hrehashed, fun raw => ?_, fun d => ?_⟩
  · exact hresolve answer [] [] none raw List.nodup_nil .nil
      fun op _ v _ _ => answers_agreeing_settlesAt op v
  · exact hrecords d fun _ _ _ _ op _ v _ _ => answers_agreeing_settlesAt op v

/-- One spelling of the word says yes, the other no. -/
def contrary : List (String × Int) := [("YES", 1), ("yes", 0)]

/-- What a third spelling says is up to the order of the table. -/
theorem answers_contrary_differ :
    Contract.ofDocument (answers contrary).toJson = .ok (answers contrary) ∧
      Contract.ofDocument (answers contrary.reverse).toJson = .ok (answers contrary.reverse) ∧
      (answers contrary).Rehashed (answers contrary.reverse) ∧
      answer ∈ (answers contrary).mappings ∧
      ((⟨answers contrary, answer, [], none⟩ : ChainContext).resolve (.text "Yes")).run.value =
        .ok (.column (.bit true)) ∧
      ((⟨answers contrary.reverse, answer, [], none⟩ : ChainContext).resolve
        (.text "Yes")).run.value = .ok (.column (.bit false)) := by
  have htrim : Text.trim "Yes" = "Yes" := by decide +kernel
  have hword (first second : String × Code) (hfirst : first.1 ≠ "Yes") (hsecond : second.1 ≠ "Yes")
      (hsame : first.1.toList.map Char.toLower = "Yes".toList.map Char.toLower) :
      CodeTable.first? [first, second] (Text.trim "Yes") = some first.2 := by
    rw [htrim]
    refine CodeTable.first?_cons ?_ (Text.sameIgnoringCase_iff.mpr hsame)
    rw [Fields.get?_cons, if_neg hfirst, Fields.get?_cons, if_neg hsecond, Fields.get?_nil]
  have hyes := hword ("YES", .int 1) ("yes", .int 0) (by decide) (by decide) (by decide)
  have hno := hword ("yes", .int 0) ("YES", .int 1) (by decide) (by decide) (by decide)
  exact ⟨answers_accepted (by decide) (by decide), answers_accepted (by decide) (by decide),
    answers_rehashed (List.reverse_perm contrary).symm, List.mem_singleton.mpr rfl,
    resolve_answer (by decide) hyes rfl rfl, resolve_answer (by decide) hno rfl rfl⟩

end RowContract
