import RowContract.Proofs.Expr.Lexer
import RowContract.Proofs.Text.Trim

/-!
Tokens written out.  A token that was read off a text is read off its own spelling, too, whatever
follows after a blank: a word and a number are the longest there are, a quoted text ends where its
doubled quotes no longer do, and no symbol reaches over a blank.  So the tokens of a text, written
one after the other with blanks in between, are read again.
-/

namespace RowContract.Expr

open RowContract.Text

/-! ### Spellings -/

def doubleQuotes (cs : List Char) : List Char :=
  cs.flatMap fun c => if c = '\'' then ['\'', '\''] else [c]

def Token.spelling (sign : Symbol → String) : Token → List Char
  | .identifier name => name.toList
  | .number lexeme => lexeme.toList
  | .string s => '\'' :: (doubleQuotes s.toList ++ ['\''])
  | .keyword k => k.text.toList
  | .symbol s => (sign s).toList

/-- Tokens in writing, with one blank between them. -/
def spell (sign : Symbol → String) (ts : List Token) : List Char :=
  [' '].intercalate (ts.map (Token.spelling sign))

theorem doubleQuotes_cons (c : Char) (cs : List Char) :
    doubleQuotes (c :: cs) = (if c = '\'' then ['\'', '\''] else [c]) ++ doubleQuotes cs :=
  List.flatMap_cons

theorem spell_cons_cons (sign : Symbol → String) (t next : Token) (ts : List Token) :
    spell sign (t :: next :: ts) = t.spelling sign ++ ' ' :: spell sign (next :: ts) := by
  simp [spell, List.intercalate]

/-! ### Single tokens -/

section
variable {sign : Symbol → String} {c : Char} {r rest : List Char} {t : Token}

/-- A token that is read off its own spelling. -/
def Token.ReadsBack (sign : Symbol → String) (t : Token) : Prop :=
  ∃ c r, t.spelling sign = c :: r ∧ nextToken c r = .ok (t, [])

theorem Keyword.nextToken_text (k : Keyword) :
    ∃ c r, k.text.toList = c :: r ∧ nextToken c r = .ok (.keyword k, []) := by
  cases k <;> exact ⟨_, _, rfl, by decide +kernel⟩

theorem run_takeWhile (p : Char → Bool) (cs : List Char) :
    (cs.takeWhile p).takeWhile p = cs.takeWhile p ∧ (cs.takeWhile p).dropWhile p = [] := by
  have hall : ∀ a ∈ cs.takeWhile p, p a = true := fun a ha => List.mem_takeWhile_imp ha
  exact ⟨List.takeWhile_eq_self_iff.mpr hall, List.dropWhile_eq_nil_iff.mpr hall⟩

/-- A name is its own spelling; a keyword is read off its capitals. -/
theorem readsBack_of_word (hname : isNameStart c = true)
    (h : classifyWord ((c :: r).takeWhile isNameChar) = .ok t) : t.ReadsBack sign := by
  obtain ⟨htake, hdrop⟩ := run_takeWhile isNameChar (c :: r)
  rw [List.takeWhile_cons_of_pos (isNameChar_of_isNameStart hname)] at h htake hdrop
  rcases classifyWord_eq_ok h with ⟨k, rfl⟩ | rfl
  · exact k.nextToken_text
  · refine ⟨c, r.takeWhile isNameChar, String.toList_ofList, ?_⟩
    rw [← htake] at h
    have hreads := Reads.word hname h
    rw [htake, hdrop] at hreads
    exact nextToken_eq_ok_iff.mpr hreads

/-- A numeral goes on as far as it can, so it is the numeral at its own front. -/
theorem numberLexeme_numberLexeme (cs : List Char) :
    numberLexeme (numberLexeme cs) = numberLexeme cs := by
  obtain ⟨htake, hdrop⟩ := run_takeWhile isDigit cs
  have hwhole : numberLexeme (cs.takeWhile isDigit) = cs.takeWhile isDigit := by
    simp [numberLexeme, htake, hdrop]
  cases hrest : cs.dropWhile isDigit with
  | nil =>
      have hlexeme : numberLexeme cs = cs.takeWhile isDigit := by simp [numberLexeme, hrest]
      rw [hlexeme, hwhole]
  | cons a rest =>
      by_cases ha : a = '.'
      · subst ha
        have hlexeme : numberLexeme cs = cs.takeWhile isDigit ++ '.' :: rest.takeWhile isDigit := by
          simp [numberLexeme, hrest]
        obtain ⟨hrun, hstop⟩ := run_of_stop (f := isDigit)
          (fun a ha => List.mem_takeWhile_imp ha) (rest.takeWhile isDigit)
          (show isDigit '.' = false by decide)
        rw [hlexeme, numberLexeme, hrun, hstop]
        simp only [(run_takeWhile isDigit rest).1]
      · have hlexeme : numberLexeme cs = cs.takeWhile isDigit := by simp [numberLexeme, hrest, ha]
        rw [hlexeme, hwhole]

/-- A numeral begins as what it was read off. -/
theorem numberLexeme_cons (h : startsNumber (c :: r) = true) :
    ∃ r', numberLexeme (c :: r) = c :: r' ∧ startsNumber (c :: r') = true := by
  by_cases hc : c = '.'
  · subst hc
    cases r with
    | nil => cases h
    | cons d r =>
        have hd : isDigit d = true := h
        refine ⟨d :: r.takeWhile isDigit, ?_, h⟩
        rw [← List.takeWhile_cons_of_pos hd]
        rfl
  · have hdigit : isDigit c = true := by simpa [startsNumber, hc] using h
    refine ⟨numberLexeme r, ?_, by simp [startsNumber, hc, hdigit]⟩
    rw [numberLexeme, List.takeWhile_cons_of_pos hdigit, List.dropWhile_cons_of_pos hdigit]
    rfl

theorem readsBack_of_number (hname : isNameStart c = false) (h : startsNumber (c :: r) = true) :
    (Token.number (String.ofList (numberLexeme (c :: r)))).ReadsBack sign := by
  obtain ⟨r', hlexeme, hstarts⟩ := numberLexeme_cons h
  have hself : numberLexeme (c :: r') = c :: r' := hlexeme ▸ numberLexeme_numberLexeme (c :: r)
  have hreads := Reads.number hname hstarts
  rw [hself, List.drop_length] at hreads
  rw [hlexeme]
  exact ⟨c, r', String.toList_ofList, nextToken_eq_ok_iff.mpr hreads⟩

/-- A quoted text ends at the first quote that is not doubled. -/
theorem stringBody?_doubleQuotes (cs : List Char) :
    stringBody? '\'' (doubleQuotes cs ++ ['\'']) = some (cs, []) := by
  induction cs with
  | nil => rfl
  | cons c cs ih =>
      rw [doubleQuotes_cons]
      by_cases hc : c = '\''
      · subst hc
        simp [stringBody?, ih]
      · obtain ⟨d, rest, hrest⟩ : ∃ d rest, doubleQuotes cs ++ ['\''] = d :: rest :=
          List.exists_cons_of_ne_nil (by simp)
        rw [if_neg hc, List.append_assoc, List.singleton_append, hrest, stringBody?, if_neg hc,
          ← hrest, ih]
        rfl

theorem readsBack_string (s : String) : (Token.string s).ReadsBack sign := by
  have hnumber : startsNumber ('\'' :: (doubleQuotes s.toList ++ ['\''])) = false := by
    simp [startsNumber, isDigit]
  have hreads := Reads.string (by decide) hnumber (.inl rfl) (stringBody?_doubleQuotes s.toList)
  rw [String.ofList_toList] at hreads
  exact ⟨'\'', _, rfl, nextToken_eq_ok_iff.mpr hreads⟩

theorem Symbol.nextToken_of_mem_spellings {s : Symbol} {w : String} (h : w ∈ s.spellings) :
    ∃ c r, w.toList = c :: r ∧ nextToken c r = .ok (.symbol s, []) := by
  have hread : ∀ w ∈ s.spellings,
      w.toList.head?.map (fun c => nextToken c w.toList.tail) = some (.ok (.symbol s, [])) := by
    cases s <;> decide +kernel
  obtain ⟨c, hc, htoken⟩ := Option.map_eq_some_iff.mp (hread w h)
  exact ⟨c, w.toList.tail, (List.eq_cons_of_mem_head? hc), htoken⟩

/-- Whatever token is read, it is read again where it stands alone. -/
theorem readsBack_of_nextToken (hsign : ∀ s : Symbol, sign s ∈ s.spellings)
    (h : nextToken c r = .ok (t, rest)) : t.ReadsBack sign := by
  cases nextToken_eq_ok_iff.mp h with
  | word hname hword => exact readsBack_of_word hname hword
  | number hname hnumber => exact readsBack_of_number hname hnumber
  | string => exact readsBack_string _
  | symbol => exact Symbol.nextToken_of_mem_spellings (hsign _)

/-! ### All tokens -/

theorem Symbol.isBlank_eq_false_of_mem_spellings {s : Symbol} {w : String} (hw : w ∈ s.spellings) :
    ∀ c ∈ w.toList, isBlank c = false := by
  have hall : ∀ w ∈ s.spellings, w.toList.all (!isBlank ·) = true := by
    cases s <;> decide +kernel
  intro c hc
  simpa using List.all_eq_true.mp (hall w hw) c hc

/-- No token begins with a blank. -/
theorem isBlank_eq_false_of_nextToken (h : nextToken c r = .ok (t, rest)) : isBlank c = false := by
  rw [Bool.eq_false_iff]
  intro hblank
  have hne (d : Char) (hd : isBlank d = false) : c ≠ d := ne_of_isBlank hblank hd
  cases nextToken_eq_ok_iff.mp h with
  | word hname hword =>
      have hchar := isNameChar_of_isNameStart hname
      rw [isNameChar_of_isBlank c hblank] at hchar
      cases hchar
  | number hname hnumber =>
      simp [startsNumber, hne '.' (by decide), isDigit_of_isBlank c hblank] at hnumber
  | string hname hnumber hquote hbody =>
      exact hquote.elim (hne '\'' (by decide)) (hne '"' (by decide))
  | symbol hname hnumber hquote hsymbol =>
      obtain ⟨w, hw, more, hcons, -⟩ := exists_spelling_of_symbol? hsymbol
      have hc : c ∈ w.toList := hcons ▸ List.mem_cons_self
      exact hne c (Symbol.isBlank_eq_false_of_mem_spellings hw c hc) rfl

theorem tokenize_of_isBlank (hc : isBlank c = true) (cs : List Char) :
    tokenize (c :: cs) = tokenize cs := by
  have hdrop : dropBlanks (c :: cs) = dropBlanks cs := List.dropWhile_cons_of_pos hc
  have hfuel : tokenize cs = tokens (cs.length + 2) cs := tokens_fuel (by omega) (by omega)
  rw [hfuel, tokenize, tokens, tokens, hdrop]
  rfl

/-- The tokens of a text are the first and those of the rest. -/
theorem tokenize_of_nextToken (h : nextToken c r = .ok (t, rest)) :
    tokenize (c :: r) = (tokenize rest).map (t :: ·) := by
  have hdrop : dropBlanks (c :: r) = c :: r :=
    List.dropWhile_cons_of_neg (Bool.eq_false_iff.mp (isBlank_eq_false_of_nextToken h))
  have hlength := (suffix_of_nextToken h).length_le
  have hfuel : tokenize rest = tokens (c :: r).length rest :=
    tokens_fuel (by omega) (by rw [List.length_cons]; omega)
  rw [hfuel, tokenize, tokens, hdrop]
  show nextToken c r >>= _ = _
  rw [h, ok_bind]
  show tokens (c :: r).length rest >>= _ = _
  cases tokens (c :: r).length rest <;> rfl

theorem tokenize_spell_of_readsBack {ts : List Token} (h : ∀ t ∈ ts, t.ReadsBack sign) :
    tokenize (spell sign ts) = .ok ts := by
  induction ts with
  | nil => rfl
  | cons t ts ih =>
      obtain ⟨⟨c, r, hspelling, htoken⟩, hts⟩ := List.forall_mem_cons.mp h
      cases ts with
      | nil =>
          have hspell : spell sign [t] = c :: r := by simp [spell, List.intercalate, hspelling]
          rw [hspell, tokenize_of_nextToken htoken]
          rfl
      | cons next ts =>
          -- The blank after the token parts it from the others and is passed over.
          have hparted : Parted (' ' :: spell sign (next :: ts)) := by
            rintro _ ⟨⟩
            decide
          have hfirst := nextToken_append hparted htoken
          rw [spell_cons_cons, hspelling, List.cons_append, tokenize_of_nextToken hfirst,
            List.nil_append, tokenize_of_isBlank (by decide), ih hts]
          rfl

/-- The tokens of a text, written out with one blank between them, are the tokens of what is
written. -/
theorem tokenize_spell (hsign : ∀ s : Symbol, sign s ∈ s.spellings) {cs : List Char}
    {ts : List Token} (h : tokenize cs = .ok ts) : tokenize (spell sign ts) = .ok ts := by
  refine tokenize_spell_of_readsBack fun t ht => ?_
  obtain ⟨c, r, rest, -, htoken⟩ := exists_nextToken_of_mem h ht
  exact readsBack_of_nextToken hsign htoken

/-- A crowded text, and its tokens set apart. -/
theorem tokenize_spell_crowded :
    ∃ ts, tokenize "when(x!=\"it's\")or a>=.5**2.then'O''Brien'".toList = .ok ts ∧
      spell (fun s => s.spellings.headD "") ts =
        "WHEN ( x <> 'it''s' ) OR a >= .5 ** 2. THEN 'O''Brien'".toList ∧
      tokenize "WHEN ( x <> 'it''s' ) OR a >= .5 ** 2. THEN 'O''Brien'".toList = .ok ts := by
  have hrun : ((tokenize "when(x!=\"it's\")or a>=.5**2.then'O''Brien'".toList).toOption.any
      fun ts => spell (fun s => s.spellings.headD "") ts ==
        "WHEN ( x <> 'it''s' ) OR a >= .5 ** 2. THEN 'O''Brien'".toList) = true := by
    decide +kernel
  obtain ⟨ts, htokens, hspell⟩ := any_toOption_iff.mp hrun
  have hsign : ∀ s : Symbol, s.spellings.headD "" ∈ s.spellings := by
    intro s
    cases s <;> decide
  exact ⟨ts, htokens, beq_iff_eq.mp hspell, beq_iff_eq.mp hspell ▸ tokenize_spell hsign htokens⟩

end

end RowContract.Expr
