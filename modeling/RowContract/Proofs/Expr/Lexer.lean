import Mathlib.Data.List.DropRight
import Mathlib.Data.List.TakeWhile
import RowContract.Expr.Token.Lexer
import RowContract.Proofs.Outcome

/-!
The tokens of a text, one after the other.  Taking a token uses up a part of the text, and
what follows after a blank has no influence on it.  So the bound on the number of rounds is
never reached, and the blanks around a text do not count.
-/

namespace RowContract.Expr

open RowContract.Text

/-! ### Blanks between tokens -/

/-- The text is over, or goes on with a blank. -/
def Parted (cs : List Char) : Prop := ∀ c ∈ cs.head?, isBlank c = true

theorem parted_of_forall {cs : List Char} (h : ∀ c ∈ cs, isBlank c = true) : Parted cs :=
  fun c hc => h c (List.mem_of_mem_head? hc)

/-- A visible character of the ASCII range is no blank. -/
theorem isBlank_eq_false {c : Char} (hlow : 32 < c.toNat) (hhigh : c.toNat < 127) :
    isBlank c = false := by
  simp only [isBlank, Bool.or_eq_false_iff, Bool.and_eq_false_iff, decide_eq_false_iff_not,
    beq_eq_false_iff_ne]
  omega

theorem ne_of_isBlank {c d : Char} (h : isBlank c = true) (hd : isBlank d = false) : c ≠ d := by
  rintro rfl
  rw [h] at hd
  cases hd

theorem isNameChar_of_isBlank (c : Char) (h : isBlank c = true) : isNameChar c = false := by
  rw [Bool.eq_false_iff]
  intro hname
  simp only [isNameChar, isLetter, isDigit, Bool.or_eq_true, Bool.and_eq_true, decide_eq_true_eq,
    beq_iff_eq, Char.le_def, UInt32.le_iff_toNat_le] at hname
  have hvisible : 32 < c.toNat ∧ c.toNat < 127 := by
    rcases hname with ((⟨hl, hh⟩ | ⟨hl, hh⟩) | ⟨hl, hh⟩) | rfl
    · exact ⟨Nat.lt_of_lt_of_le (by decide) hl, Nat.lt_of_le_of_lt hh (by decide)⟩
    · exact ⟨Nat.lt_of_lt_of_le (by decide) hl, Nat.lt_of_le_of_lt hh (by decide)⟩
    · exact ⟨Nat.lt_of_lt_of_le (by decide) hl, Nat.lt_of_le_of_lt hh (by decide)⟩
    · decide
  exact ne_of_isBlank h (isBlank_eq_false hvisible.1 hvisible.2) rfl

theorem isDigit_of_isBlank (c : Char) (h : isBlank c = true) : isDigit c = false := by
  have hname := isNameChar_of_isBlank c h
  simp only [isNameChar, Bool.or_eq_false_iff] at hname
  exact hname.1.2

theorem isNameChar_of_isNameStart {c : Char} (h : isNameStart c = true) : isNameChar c = true := by
  unfold isNameStart at h
  unfold isNameChar
  rw [Bool.or_eq_true] at h ⊢
  rw [Bool.or_eq_true]
  exact h.imp_left .inl

section
variable {p : Char → Bool} {more : List Char} (hp : ∀ c, isBlank c = true → p c = false)
  (hmore : Parted more)
include hp hmore

theorem takeWhile_append_of_parted (cs : List Char) :
    (cs ++ more).takeWhile p = cs.takeWhile p := by
  have hnil : more.takeWhile p = [] := by
    cases more with
    | nil => rfl
    | cons c r => rw [List.takeWhile_cons, hp c (hmore c rfl)]; rfl
  rw [List.takeWhile_append, hnil, List.append_nil]
  split
  · next hlength => exact ((List.takeWhile_prefix p).eq_of_length hlength).symm
  · rfl

theorem dropWhile_append_of_parted (cs : List Char) :
    (cs ++ more).dropWhile p = cs.dropWhile p ++ more := by
  have hself : more.dropWhile p = more := by
    cases more with
    | nil => rfl
    | cons c r => rw [List.dropWhile_cons, hp c (hmore c rfl)]; rfl
  rw [List.dropWhile_append, hself]
  split
  · next hnil => rw [List.isEmpty_iff.mp hnil, List.nil_append]
  · rfl

end

def Symbol.spellings : Symbol → List String
  | .plus => ["+"]
  | .minus => ["-"]
  | .star => ["*"]
  | .doubleStar => ["**"]
  | .slash => ["/"]
  | .doubleSlash => ["//"]
  | .percent => ["%"]
  | .leftParen => ["("]
  | .rightParen => [")"]
  | .eq => ["=", "=="]
  | .notEq => ["<>", "!="]
  | .lt => ["<"]
  | .le => ["<="]
  | .gt => [">"]
  | .ge => [">="]

section
variable {c : Char} {r rest more : List Char} {quote : Char} {s : List Char} {t : Token}

/-! ### Numbers -/

theorem startsNumber_append (hmore : Parted more) (c : Char) (r : List Char) :
    startsNumber (c :: (r ++ more)) = startsNumber (c :: r) := by
  by_cases hc : c = '.'
  · subst hc
    cases r with
    | cons d r => rfl
    | nil =>
        cases more with
        | nil => rfl
        | cons d r => exact isDigit_of_isBlank d (hmore d rfl)
  · simp [startsNumber, hc]

theorem numberLexeme_append (hmore : Parted more) (cs : List Char) :
    numberLexeme (cs ++ more) = numberLexeme cs := by
  unfold numberLexeme
  rw [takeWhile_append_of_parted isDigit_of_isBlank hmore,
    dropWhile_append_of_parted isDigit_of_isBlank hmore]
  congr 1
  cases cs.dropWhile isDigit with
  | nil =>
      cases more with
      | nil => rfl
      | cons d r =>
          have hd : d ≠ '.' := ne_of_isBlank (hmore d rfl) (by decide)
          simp [hd]
  | cons d r =>
      by_cases hd : d = '.'
      · subst hd
        simp only [List.cons_append]
        rw [takeWhile_append_of_parted isDigit_of_isBlank hmore]
      · simp [hd]

theorem length_numberLexeme_le (cs : List Char) : (numberLexeme cs).length ≤ cs.length := by
  have hsplit := congrArg List.length (List.takeWhile_append_dropWhile (p := isDigit) (l := cs))
  rw [List.length_append] at hsplit
  unfold numberLexeme
  rw [List.length_append]
  split
  · next r hr =>
      have hle := (List.takeWhile_prefix isDigit (l := r)).length_le
      rw [hr, List.length_cons] at hsplit
      rw [List.length_cons]
      omega
  · rw [List.length_nil]
    omega

theorem length_numberLexeme_pos {cs : List Char} (h : startsNumber cs = true) :
    0 < (numberLexeme cs).length := by
  cases cs with
  | nil => cases h
  | cons c r =>
      unfold numberLexeme
      rw [List.length_append]
      by_cases hc : isDigit c = true
      · rw [List.takeWhile_cons, if_pos hc, List.length_cons]
        omega
      · have hdot : c = '.' := by
          by_contra hne
          simp [startsNumber, hne] at h
          exact hc h
        subst hdot
        rw [List.dropWhile_cons, if_neg hc]
        exact Nat.lt_of_lt_of_le (Nat.succ_pos _) (Nat.le_add_left _ _)

/-! ### Strings -/

theorem stringBody?_append (hquote : isBlank quote = false) (hmore : Parted more)
    (h : stringBody? quote r = some (s, rest)) :
    stringBody? quote (r ++ more) = some (s, rest ++ more) := by
  fun_induction stringBody? quote r generalizing s rest with
  | case1 => cases h
  | case2 =>
      -- A quote at the very end: what follows must not double it.
      obtain ⟨rfl, rfl⟩ := Prod.mk.inj (Option.some.inj h)
      cases more with
      | nil => simp [stringBody?]
      | cons d r =>
          have hd : d ≠ quote := ne_of_isBlank (hmore d rfl) hquote
          simp [stringBody?, hd]
  | case3 => cases h
  | case4 r ih =>
      obtain ⟨⟨body, _⟩, hbody, heq⟩ := Option.map_eq_some_iff.mp h
      obtain ⟨rfl, rfl⟩ := Prod.mk.inj heq
      simp [stringBody?, ih hbody]
  | case5 d r hd =>
      obtain ⟨rfl, rfl⟩ := Prod.mk.inj (Option.some.inj h)
      simp [stringBody?, hd]
  | case6 c d r hc ih =>
      obtain ⟨⟨body, _⟩, hbody, heq⟩ := Option.map_eq_some_iff.mp h
      obtain ⟨rfl, rfl⟩ := Prod.mk.inj heq
      have hinner := ih hbody
      rw [List.cons_append] at hinner
      simp [stringBody?, hc, hinner]

theorem suffix_of_stringBody? (h : stringBody? quote r = some (s, rest)) : rest <:+ r := by
  fun_induction stringBody? quote r generalizing s rest with
  | case1 => cases h
  | case2 =>
      obtain ⟨rfl, rfl⟩ := Prod.mk.inj (Option.some.inj h)
      exact List.nil_suffix
  | case3 => cases h
  | case4 r ih =>
      obtain ⟨⟨body, _⟩, hbody, heq⟩ := Option.map_eq_some_iff.mp h
      obtain ⟨rfl, rfl⟩ := Prod.mk.inj heq
      exact (ih hbody).trans (List.suffix_append [_, _] r)
  | case5 d r hd =>
      obtain ⟨rfl, rfl⟩ := Prod.mk.inj (Option.some.inj h)
      exact List.suffix_cons _ _
  | case6 c d r hc ih =>
      obtain ⟨⟨body, _⟩, hbody, heq⟩ := Option.map_eq_some_iff.mp h
      obtain ⟨rfl, rfl⟩ := Prod.mk.inj heq
      exact (ih hbody).trans (List.suffix_cons c (d :: r))

/-! ### Symbols -/

/-- A visible character does not come to stand at the front by what is put after a text. -/
theorem append_ne_cons {d : Char} (hd : isBlank d = false) (hmore : Parted more)
    (h : ∀ r', r = d :: r' → False) (r' : List Char) : r ++ more ≠ d :: r' := by
  intro heq
  cases r with
  | nil =>
      rw [List.nil_append] at heq
      subst heq
      exact ne_of_isBlank (hmore d rfl) hd rfl
  | cons c r =>
      obtain ⟨rfl, -⟩ := List.cons.inj heq
      exact h r rfl

theorem symbol?_append {s : Symbol} (hmore : Parted more) (h : symbol? r = some (s, rest)) :
    symbol? (r ++ more) = some (s, rest ++ more) := by
  have hkept (d : Char) (hd : isBlank d = false) {r : List Char} :=
    append_ne_cons (r := r) hd hmore
  unfold symbol? at h
  split at h
  case h_18 => cases h
  all_goals
    obtain ⟨rfl, rfl⟩ := Prod.mk.inj (Option.some.inj h)
    rw [List.cons_append]
  -- A symbol of one character is one only as long as none follows that makes two of it.
  case h_10 hstar =>
    have hstar := hkept '*' (by decide) hstar
    unfold symbol?
    grind
  case h_11 hslash =>
    have hslash := hkept '/' (by decide) hslash
    unfold symbol?
    grind
  case h_15 hequal =>
    have hequal := hkept '=' (by decide) hequal
    unfold symbol?
    grind
  case h_16 hgreater hequal =>
    have hgreater := hkept '>' (by decide) hgreater
    have hequal := hkept '=' (by decide) hequal
    unfold symbol?
    grind
  case h_17 hequal =>
    have hequal := hkept '=' (by decide) hequal
    unfold symbol?
    grind
  all_goals rfl

/-- A symbol is read off one of its spellings. -/
theorem exists_spelling_of_symbol? {s : Symbol} (h : symbol? (c :: r) = some (s, rest)) :
    ∃ w ∈ s.spellings, ∃ more, w.toList = c :: more ∧ r = more ++ rest := by
  unfold symbol? at h
  split at h
  case h_18 => cases h
  all_goals
    rename_i heq
    obtain ⟨rfl, rfl⟩ := List.cons.inj heq
    obtain ⟨rfl, rfl⟩ := Prod.mk.inj (Option.some.inj h)
  -- The first spelling or the second.
  all_goals first
    | exact ⟨_, List.mem_cons_self, _, rfl, rfl⟩
    | exact ⟨_, List.mem_cons_of_mem _ List.mem_cons_self, _, rfl, rfl⟩

theorem suffix_of_symbol? {s : Symbol} (h : symbol? (c :: r) = some (s, rest)) : rest <:+ r := by
  obtain ⟨w, -, more, -, rfl⟩ := exists_spelling_of_symbol? h
  exact List.suffix_append more rest

/-! ### Single tokens -/

/-- A token that stands at the front of a text that begins with `c`, and what is behind it. -/
inductive Reads (c : Char) (r : List Char) : Token → List Char → Prop where
  | word {t : Token} (hname : isNameStart c = true)
      (hword : classifyWord ((c :: r).takeWhile isNameChar) = .ok t) :
      Reads c r t ((c :: r).dropWhile isNameChar)
  | number (hname : isNameStart c = false) (hnumber : startsNumber (c :: r) = true) :
      Reads c r (.number (String.ofList (numberLexeme (c :: r))))
        ((c :: r).drop (numberLexeme (c :: r)).length)
  | string {s rest : List Char} (hname : isNameStart c = false)
      (hnumber : startsNumber (c :: r) = false) (hquote : c = '\'' ∨ c = '"')
      (hbody : stringBody? c r = some (s, rest)) : Reads c r (.string (String.ofList s)) rest
  | symbol {s : Symbol} {rest : List Char} (hname : isNameStart c = false)
      (hnumber : startsNumber (c :: r) = false) (hquote : ¬ (c = '\'' ∨ c = '"'))
      (hsymbol : symbol? (c :: r) = some (s, rest)) : Reads c r (.symbol s) rest

theorem nextToken_eq_ok_iff : nextToken c r = .ok (t, rest) ↔ Reads c r t rest := by
  constructor
  · intro h
    unfold nextToken at h
    split at h
    next hname =>
      obtain ⟨word, hword, heq⟩ := map_eq_ok h
      obtain ⟨rfl, rfl⟩ := Prod.mk.inj heq
      exact .word hname hword
    next hname =>
      rw [Bool.not_eq_true] at hname
      split at h
      next hnumber =>
        obtain ⟨rfl, rfl⟩ := Prod.mk.inj (Except.ok.inj h)
        exact .number hname hnumber
      next hnumber =>
        rw [Bool.not_eq_true] at hnumber
        split at h
        next hquote =>
          split at h
          next hbody =>
            obtain ⟨rfl, rfl⟩ := Prod.mk.inj (Except.ok.inj h)
            exact .string hname hnumber hquote hbody
          next => cases h
        next hquote =>
          split at h
          next hsymbol =>
            obtain ⟨rfl, rfl⟩ := Prod.mk.inj (Except.ok.inj h)
            exact .symbol hname hnumber hquote hsymbol
          next => cases h
  · intro h
    unfold nextToken
    cases h with
    | word hname hword => rw [if_pos hname, hword]; rfl
    | number hname hnumber => rw [if_neg (by simp [hname]), if_pos hnumber]
    | string hname hnumber hquote hbody =>
        rw [if_neg (by simp [hname]), if_neg (by simp [hnumber]), if_pos hquote, hbody]
    | symbol hname hnumber hquote hsymbol =>
        rw [if_neg (by simp [hname]), if_neg (by simp [hnumber]), if_neg hquote, hsymbol]

/-- A word that is let through is a keyword or the name that it spells. -/
theorem classifyWord_eq_ok {word : List Char} (h : classifyWord word = .ok t) :
    (∃ k, t = .keyword k) ∨ t = .identifier (String.ofList word) := by
  unfold classifyWord at h
  simp only [] at h
  split at h
  · cases h
  · split at h
    next k _ => exact .inl ⟨k, (Except.ok.inj h).symm⟩
    next => exact .inr (Except.ok.inj h).symm

/-- The token at the front of a text is the same whatever follows after a blank. -/
theorem nextToken_append (hmore : Parted more) (h : nextToken c r = .ok (t, rest)) :
    nextToken c (r ++ more) = .ok (t, rest ++ more) := by
  have htake := takeWhile_append_of_parted isNameChar_of_isBlank hmore (c :: r)
  have hdrop := dropWhile_append_of_parted isNameChar_of_isBlank hmore (c :: r)
  have hlexeme := numberLexeme_append hmore (c :: r)
  have hstarts := startsNumber_append hmore c r
  rw [List.cons_append] at htake hdrop hlexeme
  rw [nextToken_eq_ok_iff] at h ⊢
  cases h with
  | word hname hword =>
      rw [← hdrop]
      exact .word hname (htake ▸ hword)
  | number hname hnumber =>
      rw [← List.drop_append_of_le_length (length_numberLexeme_le _), List.cons_append, ← hlexeme]
      exact .number hname (hstarts.trans hnumber)
  | string hname hnumber hquote hbody =>
      have hblank : isBlank c = false := by rcases hquote with rfl | rfl <;> decide
      exact .string hname (hstarts.trans hnumber) hquote (stringBody?_append hblank hmore hbody)
  | symbol hname hnumber hquote hsymbol =>
      exact .symbol hname (hstarts.trans hnumber) hquote (symbol?_append hmore hsymbol)

/-- A token uses up the character it begins with, if not more, and leaves what is behind it. -/
theorem suffix_of_nextToken (h : nextToken c r = .ok (t, rest)) : rest <:+ r := by
  cases nextToken_eq_ok_iff.mp h with
  | word hname hword =>
      rw [List.dropWhile_cons, if_pos (isNameChar_of_isNameStart hname)]
      exact List.dropWhile_suffix _
  | number hname hnumber =>
      obtain ⟨n, hn⟩ := Nat.exists_eq_add_one.mpr (length_numberLexeme_pos hnumber)
      rw [hn, List.drop_succ_cons]
      exact List.drop_suffix n r
  | string hname hnumber hquote hbody => exact suffix_of_stringBody? hbody
  | symbol hname hnumber hquote hsymbol => exact suffix_of_symbol? hsymbol

end

/-! ### All tokens -/

section
variable {fuel : Nat} {cs : List Char} {ts : List Token}

/-- More rounds than characters give all tokens. -/
theorem tokens_fuel {more : Nat} (h : cs.length < fuel) (hmore : cs.length < more) :
    tokens fuel cs = tokens more cs := by
  induction fuel generalizing more cs with
  | zero => cases h
  | succ fuel ih =>
      obtain ⟨more, rfl⟩ : ∃ n, more = n + 1 := ⟨more - 1, by omega⟩
      have hdrop : (dropBlanks cs).length ≤ cs.length := List.length_dropWhile_le _ cs
      unfold tokens
      cases hcs : dropBlanks cs with
      | nil => rfl
      | cons c r =>
          show nextToken c r >>= _ = nextToken c r >>= _
          cases htoken : nextToken c r with
          | error e => rfl
          | ok p =>
              have hrest := (suffix_of_nextToken htoken).length_le
              rw [hcs, List.length_cons] at hdrop
              rw [ok_bind, ok_bind]
              have htokens : tokens fuel p.2 = tokens more p.2 := ih (by omega) (by omega)
              simp only [htokens]

theorem dropBlanks_append {more : List Char} (hmore : ∀ c ∈ more, isBlank c = true)
    (cs : List Char) :
    dropBlanks (cs ++ more) = if dropBlanks cs = [] then [] else dropBlanks cs ++ more := by
  unfold dropBlanks
  rw [List.dropWhile_append, List.dropWhile_eq_nil_iff.mpr hmore]
  simp only [List.isEmpty_iff]

theorem tokens_append {more : List Char} (hmore : ∀ c ∈ more, isBlank c = true)
    (h : tokens fuel cs = .ok ts) : tokens fuel (cs ++ more) = .ok ts := by
  induction fuel generalizing cs ts with
  | zero => exact h
  | succ fuel ih =>
      unfold tokens at h ⊢
      rw [dropBlanks_append hmore]
      cases hcs : dropBlanks cs with
      | nil =>
          rw [hcs] at h
          exact h
      | cons c r =>
          rw [hcs] at h
          obtain ⟨⟨t, rest⟩, htoken, h⟩ := bind_eq_ok h
          obtain ⟨later, hlater, h⟩ := bind_eq_ok h
          rw [if_neg (List.cons_ne_nil c r), List.cons_append]
          show nextToken c (r ++ more) >>= _ = _
          rw [nextToken_append (parted_of_forall hmore) htoken, ok_bind]
          show tokens fuel (rest ++ more) >>= _ = _
          rw [ih hlater, ok_bind]
          exact h

/-- The tokens of a text do not depend on the blanks around it. -/
theorem tokenize_of_trimChars (h : tokenize (trimChars cs) = .ok ts) : tokenize cs = .ok ts := by
  have hfront : tokenize cs = tokens (cs.length + 1) (dropBlanks cs) := by
    unfold tokenize tokens dropBlanks
    rw [List.dropWhile_idempotent isBlank cs]
  have hback : dropBlanks cs = trimChars cs ++ (dropBlanks cs).rtakeWhile isBlank :=
    (List.rdropWhile_append_rtakeWhile (p := isBlank)).symm
  have hlength : (trimChars cs).length ≤ cs.length :=
    (List.rdropWhile_prefix isBlank _).length_le.trans (List.length_dropWhile_le _ cs)
  rw [hfront, hback]
  apply tokens_append fun c hc => List.mem_rtakeWhile_imp hc
  rw [← h]
  exact tokens_fuel (Nat.lt_succ_of_le hlength) (Nat.lt_succ_self _)

/-- Each token of a text was read where it begins. -/
theorem exists_nextToken_of_mem (h : tokens fuel cs = .ok ts) {t : Token} (ht : t ∈ ts) :
    ∃ c r rest, c :: r <:+ cs ∧ nextToken c r = .ok (t, rest) := by
  induction fuel generalizing cs ts with
  | zero =>
      obtain rfl := Except.ok.inj h
      cases ht
  | succ fuel ih =>
      unfold tokens at h
      have hvisible : dropBlanks cs <:+ cs := List.dropWhile_suffix _
      split at h
      next =>
        obtain rfl := Except.ok.inj h
        cases ht
      next c r hcs =>
        obtain ⟨⟨first, rest⟩, hfirst, h⟩ := bind_eq_ok h
        obtain ⟨later, hlater, h⟩ := bind_eq_ok h
        obtain rfl := Except.ok.inj h
        rw [hcs] at hvisible
        rcases List.mem_cons.mp ht with rfl | ht
        · exact ⟨c, r, rest, hvisible, hfirst⟩
        · obtain ⟨c', r', rest', hsuffix, htoken⟩ := ih hlater ht
          have hbehind := (suffix_of_nextToken hfirst).trans (List.suffix_cons c r)
          exact ⟨c', r', rest', hsuffix.trans (hbehind.trans hvisible), htoken⟩

end

end RowContract.Expr
