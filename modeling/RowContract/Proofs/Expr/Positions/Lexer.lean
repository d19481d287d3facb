import RowContract.Binary64.Reading
import RowContract.Proofs.Expr.Positions.Step
import RowContract.Proofs.Expr.Spelling

/-!
The tokens of a text by places.  A run of characters goes from one place to another, and each token
ends behind the place where it begins.  So all the places come in order, no part is out of reach,
and the reading ends; and the characters of a numeral always name a number.
-/

namespace RowContract.Expr.Positions

open RowContract.Text

/-! ### Runs of characters -/

/-- The place behind the characters of a class. -/
def runEnd (p : Char → Bool) (cs : List Char) (i : Nat) : Nat :=
  if h : i < cs.length then if p cs[i] then runEnd p cs (i + 1) else i else i
termination_by cs.length - i

/-- The place behind digits, and one point among them unless it was seen. -/
def numberEnd (seenPoint : Bool) (cs : List Char) (i : Nat) : Nat :=
  if h : i < cs.length then
    if isDigit cs[i] then numberEnd seenPoint cs (i + 1)
    else if cs[i] = '.' ∧ seenPoint = false then numberEnd true cs (i + 1)
    else i
  else i
termination_by cs.length - i

theorem runEnd_eq (p : Char → Bool) (cs : List Char) (i : Nat) :
    runEnd p cs i = i + ((cs.drop i).takeWhile p).length := by
  fun_induction runEnd p cs i with
  | case1 i h hp ih =>
      rw [ih, List.drop_eq_getElem_cons h, List.takeWhile_cons_of_pos hp, List.length_cons]
      omega
  | case2 i h hp =>
      rw [List.drop_eq_getElem_cons h, List.takeWhile_cons_of_neg hp]
      rfl
  | case3 i h =>
      rw [List.drop_eq_nil_of_le (Nat.not_lt.mp h)]
      rfl

variable {p : Char → Bool} {cs : List Char} {i : Nat}

theorem runEnd_le (h : i < cs.length) : runEnd p cs i ≤ cs.length := by
  have hrun := (List.takeWhile_prefix p (l := cs.drop i)).length_le
  rw [List.length_drop] at hrun
  rw [runEnd_eq]
  omega

theorem drop_runEnd (p : Char → Bool) (cs : List Char) (i : Nat) :
    cs.drop (runEnd p cs i) = (cs.drop i).dropWhile p := by
  have hsplit := List.takeWhile_append_dropWhile (p := p) (l := cs.drop i)
  rw [runEnd_eq, ← List.drop_drop]
  exact (congrArg (List.drop _) hsplit).symm.trans List.drop_left

/-- A run of characters is a part of the text. -/
theorem part_runEnd (h : i < cs.length) :
    part cs i (runEnd p cs i) = .ok ((cs.drop i).takeWhile p) := by
  rw [runEnd_eq]
  exact part_of_prefix (Nat.le_of_lt h) (List.takeWhile_prefix p)

theorem lt_runEnd (h : i < cs.length) (hp : p cs[i] = true) : i < runEnd p cs i := by
  rw [runEnd_eq, List.drop_eq_getElem_cons h, List.takeWhile_cons_of_pos hp, List.length_cons]
  omega

theorem numberLexeme_cons_of_isDigit {c : Char} (hc : isDigit c = true) (r : List Char) :
    numberLexeme (c :: r) = c :: numberLexeme r := by
  rw [numberLexeme, List.takeWhile_cons_of_pos hc, List.dropWhile_cons_of_pos hc]
  rfl

theorem numberLexeme_point (r : List Char) :
    numberLexeme ('.' :: r) = '.' :: r.takeWhile isDigit := rfl

theorem numberLexeme_cons_of_ne {c : Char} (hc : ¬ isDigit c = true) (hpoint : c ≠ '.')
    (r : List Char) : numberLexeme (c :: r) = [] := by
  rw [numberLexeme, List.takeWhile_cons_of_neg hc, List.dropWhile_cons_of_neg hc]
  split
  next heq => exact absurd (List.cons.inj heq).1 hpoint
  next => rfl

theorem numberEnd_true (cs : List Char) (i : Nat) :
    numberEnd true cs i = runEnd isDigit cs i := by
  fun_induction runEnd isDigit cs i with
  | case1 i h hp ih => rw [numberEnd, dif_pos h, if_pos hp, ih]
  | case2 i h hp => rw [numberEnd, dif_pos h, if_neg hp, if_neg (by simp)]
  | case3 i h => rw [numberEnd, dif_neg h]

theorem numberEnd_false (cs : List Char) (i : Nat) :
    numberEnd false cs i = i + (numberLexeme (cs.drop i)).length := by
  induction hn : cs.length - i generalizing i with
  | zero =>
      have hend : ¬ i < cs.length := by omega
      rw [numberEnd, dif_neg hend, List.drop_eq_nil_of_le (Nat.not_lt.mp hend)]
      rfl
  | succ n ih =>
      have h : i < cs.length := by omega
      rw [numberEnd, dif_pos h, List.drop_eq_getElem_cons h]
      by_cases hdigit : isDigit cs[i] = true
      · rw [if_pos hdigit, ih (i + 1) (by omega), numberLexeme_cons_of_isDigit hdigit,
          List.length_cons]
        omega
      by_cases hpoint : cs[i] = '.'
      · rw [if_neg hdigit, if_pos ⟨hpoint, rfl⟩, numberEnd_true, runEnd_eq, hpoint,
          numberLexeme_point, List.length_cons]
        omega
      · rw [if_neg hdigit, if_neg fun hand => hpoint hand.1, numberLexeme_cons_of_ne hdigit hpoint]
        rfl

theorem numberEnd_le (h : i < cs.length) : numberEnd false cs i ≤ cs.length := by
  have hlexeme := length_numberLexeme_le (cs.drop i)
  rw [List.length_drop] at hlexeme
  rw [numberEnd_false]
  omega

theorem lt_numberEnd (h : startsNumber (cs.drop i) = true) : i < numberEnd false cs i := by
  have hlexeme := length_numberLexeme_pos h
  rw [numberEnd_false]
  omega

theorem prefix_numberLexeme (cs : List Char) : numberLexeme cs <+: cs := by
  have hsplit := List.takeWhile_append_dropWhile (p := isDigit) (l := cs)
  unfold numberLexeme
  split
  next r hr =>
    rw [hr] at hsplit
    conv_rhs => rw [← hsplit]
    have hdigits : r.takeWhile isDigit <+: r := List.takeWhile_prefix isDigit
    exact (List.prefix_append_right_inj _).mpr ((List.prefix_cons_inj _).mpr hdigits)
  next =>
    rw [List.append_nil]
    exact List.takeWhile_prefix isDigit

/-- A numeral is a part of the text. -/
theorem part_numberEnd (h : i < cs.length) :
    part cs i (numberEnd false cs i) = .ok (numberLexeme (cs.drop i)) := by
  rw [numberEnd_false]
  exact part_of_prefix (Nat.le_of_lt h) (prefix_numberLexeme _)

theorem drop_numberEnd (cs : List Char) (i : Nat) :
    cs.drop (numberEnd false cs i) = (cs.drop i).drop (numberLexeme (cs.drop i)).length := by
  rw [numberEnd_false, List.drop_drop]

/-- A symbol ends behind its first character. -/
theorem lt_of_symbol? {s : Symbol} {rest : List Char} (h : i < cs.length)
    (hsymbol : symbol? (cs.drop i) = some (s, rest)) : i < cs.length - rest.length := by
  rw [List.drop_eq_getElem_cons h] at hsymbol
  have hlength := (suffix_of_symbol? hsymbol).length_le
  rw [List.length_drop] at hlength
  omega

/-- Behind a symbol stands what it leaves. -/
theorem drop_of_symbol? {s : Symbol} {rest : List Char} (h : i < cs.length)
    (hsymbol : symbol? (cs.drop i) = some (s, rest)) :
    cs.drop (cs.length - rest.length) = rest := by
  have hr := List.drop_eq_getElem_cons h
  rw [hr] at hsymbol
  exact (List.suffix_iff_eq_drop.mp ((suffix_of_symbol? hsymbol).trans (List.drop_suffix _ _))).symm

/-! ### Numbers -/

/-- A point alone begins no number. -/
theorem exists_isDigit_of_startsNumber_point {r : List Char} (h : startsNumber ('.' :: r) = true) :
    r.takeWhile isDigit ≠ [] := by
  cases r with
  | nil => cases h
  | cons d r =>
      have hd : isDigit d = true := h
      rw [List.takeWhile_cons_of_pos hd]
      exact List.cons_ne_nil _ _

/-- The characters of a numeral name a number: a digit is among them, and at most one point. -/
theorem exists_numeral_of_startsNumber {cs : List Char} (h : startsNumber cs = true) :
    ∃ n, Binary64.Numeral.ofChars? (numberLexeme cs) = some n := by
  obtain ⟨hwhole, hwholeRest⟩ := run_takeWhile isDigit cs
  by_cases hpoint : ∃ r, cs.dropWhile isDigit = '.' :: r
  · obtain ⟨r, hr⟩ := hpoint
    have hlexeme : numberLexeme cs = cs.takeWhile isDigit ++ '.' :: r.takeWhile isDigit := by
      simp only [numberLexeme, hr]
    have hdigits : ∀ c ∈ cs.takeWhile isDigit, isDigit c = true := fun _ hc =>
      List.mem_takeWhile_imp hc
    obtain ⟨hrun, hstop⟩ := run_of_stop hdigits (r.takeWhile isDigit)
      (by decide : isDigit '.' = false)
    obtain ⟨hfraction, hfractionRest⟩ := run_takeWhile isDigit r
    have hdigit : ((cs.takeWhile isDigit).isEmpty && (r.takeWhile isDigit).isEmpty) = false := by
      rw [Bool.and_eq_false_imp]
      intro hempty
      have hcs := List.takeWhile_append_dropWhile (p := isDigit) (l := cs)
      rw [List.isEmpty_iff.mp hempty, hr, List.nil_append] at hcs
      exact List.isEmpty_eq_false_iff.mpr (exists_isDigit_of_startsNumber_point (hcs ▸ h))
    rw [hlexeme]
    simp only [Binary64.Numeral.ofChars?, hrun, hstop, hfraction, hfractionRest, hdigit]
    exact ⟨_, rfl⟩
  · have hlexeme : numberLexeme cs = cs.takeWhile isDigit := by
      rw [numberLexeme]
      split
      next r hr => exact absurd ⟨r, hr⟩ hpoint
      next => exact List.append_nil _
    have hpos := length_numberLexeme_pos h
    rw [hlexeme] at hpos ⊢
    have hdigit := List.isEmpty_eq_false_iff.mpr (List.ne_nil_of_length_pos hpos)
    simp only [Binary64.Numeral.ofChars?, hwhole, hwholeRest, hdigit, Bool.false_and]
    exact ⟨_, rfl⟩

/-! ### Quoted texts -/

/-- The characters of a quoted text from a place on, and the place behind the closing quote. -/
def quotedFrom (quote : Char) (cs : List Char) (i : Nat) :
    Except Stop (Found (List Char) (i + 1) cs.length) :=
  match take? cs i with
  | none => .error (.refused (.malformed .unterminatedString))
  | some ⟨c, p, hp, hend⟩ =>
    if c = quote then
      match take? cs p with
      | some ⟨d, q, hq, _⟩ =>
        if d = quote then do
          let ⟨s, next, hnext, hle⟩ ← quotedFrom quote cs q
          return ⟨quote :: s, next, by omega, hle⟩
        else return ⟨[], p, hp, hend⟩
      | none => return ⟨[], p, hp, hend⟩
    else do
      let ⟨s, next, hnext, hle⟩ ← quotedFrom quote cs p
      return ⟨c :: s, next, by omega, hle⟩
termination_by cs.length - i

/-- The characters of a quoted text, or the fault that it does not end. -/
def quoted (quote : Char) (cs : List Char) : Except Fault (List Char × List Char) :=
  match stringBody? quote cs with
  | some found => .ok found
  | none => .error (.malformed .unterminatedString)

theorem quoted_doubled (quote : Char) (r : List Char) :
    quoted quote (quote :: quote :: r) =
      quoted quote r >>= fun (s, rest) => .ok (quote :: s, rest) := by
  rw [quoted, stringBody?, if_pos rfl, if_pos rfl, quoted]
  cases stringBody? quote r <;> rfl

theorem quoted_cons_of_ne {quote c : Char} (hc : c ≠ quote) (d : Char) (r : List Char) :
    quoted quote (c :: d :: r) = quoted quote (d :: r) >>= fun (s, rest) => .ok (c :: s, rest) := by
  rw [quoted, stringBody?, if_neg hc, quoted]
  cases stringBody? quote (d :: r) <;> rfl

theorem quotedFrom_agrees {quote : Char} {cs r : List Char} {i : Nat} (hr : cs.drop i = r) :
    Agrees id (quotedFrom quote cs i) (quoted quote r) := by
  fun_induction stringBody? quote r generalizing i with
  | case1 =>
      rw [quotedFrom, take?_of_drop_eq_nil hr]
      exact .refused _
  | case2 =>
      have hnext := drop_succ_of_drop_eq_cons hr
      rw [quotedFrom, take?_of_drop_eq_cons hr]
      dsimp only
      rw [if_pos rfl, take?_of_drop_eq_nil hnext, quoted, stringBody?, if_pos rfl]
      exact .of_drop hnext
  | case3 c hc =>
      have hnext := drop_succ_of_drop_eq_cons hr
      rw [quotedFrom, take?_of_drop_eq_cons hr]
      dsimp only
      rw [if_neg hc, quoted, stringBody?, if_neg hc, quotedFrom, take?_of_drop_eq_nil hnext]
      exact .refused _
  | case4 r ih =>
      have hnext := drop_succ_of_drop_eq_cons hr
      rw [quotedFrom, take?_of_drop_eq_cons hr]
      dsimp only
      rw [if_pos rfl, take?_of_drop_eq_cons hnext]
      dsimp only
      rw [if_pos rfl, quoted_doubled]
      exact (ih (drop_succ_of_drop_eq_cons hnext)).bind fun found => .found _
  | case5 d r hd =>
      have hnext := drop_succ_of_drop_eq_cons hr
      rw [quotedFrom, take?_of_drop_eq_cons hr]
      dsimp only
      rw [if_pos rfl, take?_of_drop_eq_cons hnext]
      dsimp only
      rw [if_neg hd, quoted, stringBody?, if_pos rfl, if_neg hd]
      exact .of_drop hnext
  | case6 c d r hc ih =>
      rw [quotedFrom, take?_of_drop_eq_cons hr]
      dsimp only
      rw [if_neg hc, quoted_cons_of_ne hc]
      exact (ih (drop_succ_of_drop_eq_cons hr)).bind fun found => .found _

/-! ### Single tokens -/

def tokenAt (cs : List Char) (i : Nat) (h : i < cs.length) :
    Except Stop (Found Token (i + 1) cs.length) :=
  if hname : isNameStart cs[i] then do
    let word ← part cs i (runEnd isNameChar cs i)
    let t ← (classifyWord word).mapError .refused
    return ⟨t, runEnd isNameChar cs i, lt_runEnd h (isNameChar_of_isNameStart hname), runEnd_le h⟩
  else if hnumber : startsNumber (cs.drop i) then do
    let lexeme ← part cs i (numberEnd false cs i)
    match Binary64.Numeral.ofChars? lexeme with
    | some _ =>
      return ⟨.number (String.ofList lexeme), numberEnd false cs i, lt_numberEnd hnumber,
        numberEnd_le h⟩
    | none => .error (.noNumber lexeme)
  else if cs[i] = '\'' ∨ cs[i] = '"' then do
    let ⟨s, next, hnext, hle⟩ ← quotedFrom cs[i] cs (i + 1)
    return ⟨.string (String.ofList s), next, by omega, hle⟩
  else
    match hsymbol : symbol? (cs.drop i) with
    | some (s, rest) =>
      return ⟨.symbol s, cs.length - rest.length, lt_of_symbol? h hsymbol, Nat.sub_le _ _⟩
    | none => .error (.refused (.disallowedCharacter cs[i]))

def tokensFrom (cs : List Char) (i : Nat) : Except Stop (List Token) :=
  if h : i < cs.length then
    if isBlank cs[i] then tokensFrom cs (i + 1)
    else do
      let ⟨t, next, hnext, _⟩ ← tokenAt cs i h
      let ts ← tokensFrom cs next
      return t :: ts
  else return []
termination_by cs.length - i

theorem nextToken_of_quote {c : Char} {r : List Char} (hname : isNameStart c = false)
    (hnumber : startsNumber (c :: r) = false) (hquote : c = '\'' ∨ c = '"') :
    nextToken c r = quoted c r >>= fun (s, rest) => .ok (.string (String.ofList s), rest) := by
  rw [nextToken, hname, hnumber, if_neg Bool.false_ne_true, if_neg Bool.false_ne_true,
    if_pos hquote, quoted]
  cases stringBody? c r <;> rfl

/-- A text is refused for what its first token is refused for. -/
theorem tokenize_of_nextToken_error {c : Char} {r : List Char} {fault : Fault}
    (hblank : isBlank c = false) (h : nextToken c r = .error fault) :
    tokenize (c :: r) = .error fault := by
  have hdrop : dropBlanks (c :: r) = c :: r :=
    List.dropWhile_cons_of_neg (Bool.eq_false_iff.mp hblank)
  rw [tokenize, tokens, hdrop]
  show nextToken c r >>= _ = _
  rw [h]
  rfl

/-- The token at a place is the one at the front of the text behind the place. -/
theorem tokenAt_agrees {c : Char} {r : List Char} (h : i < cs.length) (hr : cs.drop i = c :: r) :
    Agrees id (tokenAt cs i h) (nextToken c r) := by
  obtain rfl : cs[i] = c := by
    rw [List.drop_eq_getElem_cons h] at hr
    exact (List.cons.inj hr).1
  rw [tokenAt]
  by_cases hname : isNameStart cs[i] = true
  · rw [dif_pos hname, part_runEnd h, ok_bind, hr, nextToken, if_pos hname]
    cases hword : classifyWord ((cs[i] :: r).takeWhile isNameChar) with
    | error fault => exact .refused fault
    | ok t => exact .of_drop (hr ▸ drop_runEnd isNameChar cs i)
  rw [dif_neg hname]
  by_cases hnumber : startsNumber (cs.drop i) = true
  · obtain ⟨n, hn⟩ := exists_numeral_of_startsNumber hnumber
    rw [dif_pos hnumber, part_numberEnd h, ok_bind, nextToken, if_neg hname, ← hr, if_pos hnumber]
    dsimp only
    rw [hn]
    exact .of_drop (drop_numberEnd cs i)
  rw [dif_neg hnumber]
  rw [Bool.not_eq_true] at hname hnumber
  by_cases hquote : cs[i] = '\'' ∨ cs[i] = '"'
  · rw [if_pos hquote, nextToken_of_quote hname (hr ▸ hnumber) hquote]
    exact (quotedFrom_agrees (drop_succ_of_drop_eq_cons hr)).bind fun found => .found _
  rw [if_neg hquote]
  split
  next s rest hsymbol =>
    have hnext : nextToken cs[i] r = .ok (.symbol s, rest) :=
      nextToken_eq_ok_iff.mpr (.symbol hname (hr ▸ hnumber) hquote (hr ▸ hsymbol))
    rw [hnext]
    exact .of_drop (drop_of_symbol? h hsymbol)
  next hnone =>
    rw [hr] at hnumber hnone
    rw [nextToken, hname, hnumber, if_neg Bool.false_ne_true, if_neg Bool.false_ne_true,
      if_neg hquote, hnone]
    exact .refused _

/-- The tokens from a place on are those of the text behind it. -/
theorem tokensFrom_eq (cs : List Char) (i : Nat) :
    tokensFrom cs i = (tokenize (cs.drop i)).mapError .refused := by
  induction hn : cs.length - i using Nat.strong_induction_on generalizing i with
  | h n ih =>
      rw [tokensFrom]
      by_cases h : i < cs.length
      · have hr := List.drop_eq_getElem_cons h
        rw [dif_pos h, hr]
        by_cases hblank : isBlank cs[i] = true
        · rw [if_pos hblank, tokenize_of_isBlank hblank]
          exact ih (cs.length - (i + 1)) (by omega) (i + 1) rfl
        rw [if_neg hblank]
        have htoken := tokenAt_agrees h hr
        generalize tokenAt cs i h = byPlaces at htoken ⊢
        generalize hnext : nextToken cs[i] (cs.drop (i + 1)) = byFront at htoken
        cases htoken with
        | refused fault =>
            rw [tokenize_of_nextToken_error (Bool.eq_false_iff.mpr hblank) hnext]
            rfl
        | found x =>
            have hle := x.least_le
            rw [tokenize_of_nextToken hnext, ok_bind]
            dsimp only
            rw [ih (cs.length - x.next) (by omega) x.next rfl]
            cases tokenize (cs.drop x.next) <;> rfl
      · rw [dif_neg h, List.drop_eq_nil_of_le (Nat.not_lt.mp h)]
        rfl

end RowContract.Expr.Positions
