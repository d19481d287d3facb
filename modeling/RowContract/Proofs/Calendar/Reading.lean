import RowContract.Calendar.Layout
import RowContract.Proofs.Outcome
import RowContract.Proofs.Text.Digits
import RowContract.Proofs.Text.Trim
import RowContract.Value

/-!
The text of a moment read again.  A moment is written in the first of the layouts, and that layout
reads what is written: all parts down to the second, whatever year it is.  A fraction of a second
is read in two of the layouts and never written, so it is lost on the way; a text without a point
has none.
-/

namespace RowContract

open RowContract.Text
open RowContract.Calendar

namespace DateTime

theorem date_bounds (t : DateTime) :
    (-262143 ≤ t.year ∧ t.year ≤ 262142) ∧ (1 ≤ t.month ∧ t.month ≤ 12) ∧
      (1 ≤ t.day ∧ t.day ≤ 31) := by
  have hdate := t.date_exists
  simp only [isDate, Bool.and_eq_true, decide_eq_true_eq] at hdate
  obtain ⟨⟨⟨hfirst, hlast⟩, hday⟩, hlength⟩ := hdate
  refine ⟨⟨hfirst, hlast⟩, ?_⟩
  unfold daysInMonth at hlength
  split at hlength <;> first | omega | (split at hlength <;> omega)

theorem time_bounds (t : DateTime) : t.hour ≤ 23 ∧ t.minute ≤ 59 ∧ t.second ≤ 60 := by
  have htime := t.time_exists
  simp only [isTime, Bool.and_eq_true, decide_eq_true_eq] at htime
  omega

def wholeSeconds (t : DateTime) : DateTime where
  year := t.year
  month := t.month
  day := t.day
  hour := t.hour
  minute := t.minute
  second := t.second
  nanosecond := 0
  date_exists := t.date_exists
  time_exists := by
    have htime := t.time_exists
    simp only [isTime, Bool.and_eq_true, decide_eq_true_eq] at htime ⊢
    exact ⟨htime.1, Nat.pow_pos (by decide)⟩

theorem wholeSeconds_eq_self_iff {t : DateTime} : t.wholeSeconds = t ↔ t.nanosecond = 0 := by
  obtain ⟨year, month, day, hour, minute, second, nanosecond, hdate, htime⟩ := t
  simp only [wholeSeconds, mk.injEq, true_and]
  exact eq_comm

theorem make?_wholeSeconds (t : DateTime) :
    make? t.year t.month t.day t.hour t.minute t.second 0 = some t.wholeSeconds := by
  have htime : isTime t.hour t.minute t.second 0 = true := t.wholeSeconds.time_exists
  rw [make?, dif_pos t.date_exists, dif_pos htime]
  rfl

end DateTime

namespace Calendar

variable {d d' : Draft} {i : Item} {cs cs' ds rest : List Char} {n : Nat}

/-! ### Reading what is written -/

def taken (width : Option Nat) (cs : List Char) : List Char :=
  match width with
  | some w => (cs.takeWhile isDigit).take w
  | none => cs.takeWhile isDigit

theorem number_cons (width : Option Nat) (c : Char) (cs : List Char) :
    number width (c :: cs) =
      if (taken width (c :: cs)).isEmpty then .error .unexpected
      else .ok (digitsValue (taken width (c :: cs)),
        (c :: cs).drop (taken width (c :: cs)).length) := by
  cases width <;> rfl

theorem number_of_taken {width : Option Nat} (hsome : ds ≠ [])
    (h : taken width (ds ++ rest) = ds) :
    number width (ds ++ rest) = .ok (digitsValue ds, rest) := by
  obtain ⟨c, more, rfl⟩ := List.exists_cons_of_ne_nil hsome
  have hdrop : (c :: (more ++ rest)).drop (c :: more).length = rest := List.drop_left' rfl
  rw [List.cons_append] at h ⊢
  rw [number_cons, h, hdrop]
  rfl

theorem number_padded {width : Nat} (hwidth : 0 < width) (h : n < Nat.pow 10 width)
    (rest : List Char) : number (some width) (padded width n ++ rest) = .ok (n, rest) := by
  have hdigits : ∀ c ∈ padded width n, isDigit c = true := fun _ => isDigit_of_mem_padded
  have htaken : taken (some width) (padded width n ++ rest) = padded width n := by
    rw [taken, List.takeWhile_append_of_pos hdigits, List.take_left' (length_padded hwidth h)]
  rw [number_of_taken (padded_ne_nil width n) htaken, digitsValue_padded]

theorem number_padded_of_stop (width n : Nat) {stop : Char} (hstop : isDigit stop = false)
    (rest : List Char) :
    number none (padded width n ++ stop :: rest) = .ok (n, stop :: rest) := by
  have hdigits : ∀ c ∈ padded width n, isDigit c = true := fun _ => isDigit_of_mem_padded
  have htaken : taken none (padded width n ++ stop :: rest) = padded width n := by
    rw [taken, (run_of_stop hdigits rest hstop).1]
  rw [number_of_taken (padded_ne_nil width n) htaken, digitsValue_padded]

theorem dropBlanks_space (cs : List Char) : dropBlanks (' ' :: cs) = dropBlanks cs := rfl

theorem dropBlanks_padded (width n : Nat) (rest : List Char) :
    dropBlanks (padded width n ++ rest) = padded width n ++ rest := by
  refine dropBlanks_of_head fun c hc => isBlank_of_isDigit ?_
  rw [List.head?_append_of_ne_nil _ (padded_ne_nil width n)] at hc
  exact isDigit_of_mem_padded (List.mem_of_head? hc)

theorem read_literal (c : Char) (d : Draft) (rest : List Char) :
    (Item.literal c).read d (c :: rest) = .ok (d, rest) := if_pos rfl

theorem read_part {p : Part} (hp : p ≠ .year) (h : p.bounds.1 ≤ n ∧ n ≤ p.bounds.2)
    (d : Draft) (rest : List Char) :
    (Item.part p).read d (padded 2 n ++ rest) = .ok (p.put n d, rest) := by
  have hread : (Item.part p).read d (padded 2 n ++ rest) =
      readPart p d (dropBlanks (padded 2 n ++ rest)) := by
    cases p with
    | year => exact absurd rfl hp
    | _ => rfl
  have hwidth : n < Nat.pow 10 2 := by
    have hhigh := h.2
    change n < 100
    cases p <;> simp only [Part.bounds] at hhigh <;> omega
  rw [hread, dropBlanks_padded, readPart, number_padded (by decide) hwidth, ok_bind]
  exact if_pos h

theorem dropBlanks_yearText (year : Int) (rest : List Char) :
    dropBlanks (DateTime.yearText year ++ rest) = DateTime.yearText year ++ rest := by
  unfold DateTime.yearText
  split
  · exact dropBlanks_padded 4 year.natAbs rest
  · refine dropBlanks_of_head fun c hc => ?_
    obtain rfl := Option.some.inj hc
    split <;> rfl

/-- The end of reading a year: it has to be a number of 32 bits. -/
def keepYear (d : Draft) (year : Int) (rest : List Char) : Except Fault (Draft × List Char) :=
  if -(Nat.pow 2 31 : Int) ≤ year ∧ year < Nat.pow 2 31 then .ok ({ d with year := year }, rest)
  else .error .outOfRange

theorem readYear_minus (d : Draft) (cs : List Char) :
    readYear d ('-' :: cs) = number none cs >>= fun p => keepYear d (-(p.1 : Int)) p.2 := by
  rw [readYear]
  cases number none cs <;> rfl

theorem readYear_plus (d : Draft) (cs : List Char) :
    readYear d ('+' :: cs) = number none cs >>= fun p => keepYear d p.1 p.2 := by
  rw [readYear]
  cases number none cs <;> rfl

theorem readYear_unsigned {c : Char} (hminus : c ≠ '-') (hplus : c ≠ '+') (d : Draft)
    (cs : List Char) :
    readYear d (c :: cs) = number (some 4) (c :: cs) >>= fun p => keepYear d p.1 p.2 := by
  unfold readYear
  split
  next heq => exact absurd (List.cons.inj heq).1 hminus
  next heq => exact absurd (List.cons.inj heq).1 hplus
  next => cases number (some 4) (c :: cs) <;> rfl

theorem keepYear_of_bounds {year : Int} (h : -262143 ≤ year ∧ year ≤ 262142) (d : Draft)
    (rest : List Char) : keepYear d year rest = .ok ({ d with year := year }, rest) := by
  have hpow : (Nat.pow 2 31 : Int) = 2147483648 := rfl
  exact if_pos (by omega)

theorem readYear_yearText {year : Int} (h : -262143 ≤ year ∧ year ≤ 262142) (d : Draft)
    {stop : Char} (hstop : isDigit stop = false) (rest : List Char) :
    readYear d (DateTime.yearText year ++ stop :: rest) =
      .ok ({ d with year := year }, stop :: rest) := by
  have hkeep := keepYear_of_bounds h d (stop :: rest)
  -- Behind a sign all digits belong to the year, so it needs the character that stops them.
  have hlong := number_padded_of_stop 4 year.natAbs hstop rest
  unfold DateTime.yearText
  split
  next hshort =>
    have hwidth : year.natAbs < Nat.pow 10 4 := by
      change year.natAbs < 10000
      omega
    have hamount : (year.natAbs : Int) = year := by omega
    have hnumber := number_padded (by decide) hwidth (stop :: rest)
    obtain ⟨c, more, heq⟩ := List.exists_cons_of_ne_nil (padded_ne_nil 4 year.natAbs)
    have hc : isDigit c = true := isDigit_of_mem_padded (heq ▸ List.mem_cons_self)
    have hminus : c ≠ '-' := by rintro rfl; cases hc
    have hplus : c ≠ '+' := by rintro rfl; cases hc
    rw [heq, List.cons_append] at hnumber ⊢
    rw [readYear_unsigned hminus hplus, hnumber, ok_bind, hamount, hkeep]
  next =>
    split
    next hnegative =>
      have hamount : -(year.natAbs : Int) = year := by omega
      rw [List.cons_append, readYear_minus, hlong, ok_bind, hamount, hkeep]
    next hpositive =>
      have hamount : (year.natAbs : Int) = year := by omega
      rw [List.cons_append, readYear_plus, hlong, ok_bind, hamount, hkeep]

theorem read_year (t : DateTime) (d : Draft) {stop : Char} (hstop : isDigit stop = false)
    (rest : List Char) :
    (Item.part .year).read d (DateTime.yearText t.year ++ stop :: rest) =
      .ok ({ d with year := t.year }, stop :: rest) := by
  rw [Item.read, dropBlanks_yearText]
  exact readYear_yearText t.date_bounds.1 d hstop rest

theorem readItems_cons_of (h : i.read d cs = .ok (d', cs')) (items : List Item) :
    readItems (i :: items) d cs = readItems items d' cs' := by
  rw [readItems, h, ok_bind]

/-- A date that is written is read as it is, whatever comes after it. -/
theorem readItems_isoDate (t : DateTime) (d : Draft) (items : List Item) (rest : List Char) :
    readItems (isoDate ++ items) d
        (DateTime.yearText t.year ++ '-' :: (padded 2 t.month ++ '-' :: (padded 2 t.day ++ rest))) =
      readItems items { d with year := t.year, month := t.month, day := t.day } rest := by
  obtain ⟨-, hmonth, hday⟩ := t.date_bounds
  have hitems : isoDate ++ items =
    .part .year :: .literal '-' :: .part .month :: .literal '-' :: .part .day :: items := rfl
  rw [hitems, readItems_cons_of (read_year t d rfl _), readItems_cons_of (read_literal '-' _ _),
    readItems_cons_of (read_part (by decide) hmonth _ _), readItems_cons_of (read_literal '-' _ _),
    readItems_cons_of (read_part (by decide) hday _ _), Part.put, Part.put]

/-- The same of a time of day. -/
theorem readItems_clock (t : DateTime) (d : Draft) (items : List Item) (rest : List Char) :
    readItems (clock ++ items) d
        (padded 2 t.hour ++ ':' :: (padded 2 t.minute ++ ':' :: (padded 2 t.second ++ rest))) =
      readItems items { d with hour := t.hour, minute := t.minute, second := t.second } rest := by
  obtain ⟨hhour, hminute, hsecond⟩ := t.time_bounds
  have hitems : clock ++ items =
    .part .hour :: .literal ':' :: .part .minute :: .literal ':' :: .part .second :: items := rfl
  rw [hitems, readItems_cons_of (read_part (by decide) ⟨Nat.zero_le _, hhour⟩ _ _),
    readItems_cons_of (read_literal ':' _ _),
    readItems_cons_of (read_part (by decide) ⟨Nat.zero_le _, hminute⟩ _ _),
    readItems_cons_of (read_literal ':' _ _),
    readItems_cons_of (read_part (by decide) ⟨Nat.zero_le _, hsecond⟩ _ _),
    Part.put, Part.put, Part.put]

theorem Draft.finish_of_make? {t : DateTime}
    (h : DateTime.make? d.year d.month d.day (if d.afternoon then d.hour + 12 else d.hour) d.minute
      d.second d.nanosecond = some t) : d.finish = .ok t := by
  rw [finish, h]

/-- The first layout reads the text of a moment, up to the fraction. -/
theorem readWhole_textWith (t : DateTime) :
    readWhole (isoDate ++ .blanks :: clock) (t.textWith ' ') = some t.wholeSeconds := by
  let time := padded 2 t.hour ++ ':' :: (padded 2 t.minute ++ ':' :: (padded 2 t.second ++ []))
  have htext : t.textWith ' ' =
      DateTime.yearText t.year ++ '-' ::
        (padded 2 t.month ++ '-' :: (padded 2 t.day ++ ' ' :: time)) := by
    simp only [time, DateTime.textWith, List.append_assoc, List.cons_append, List.append_nil]
  have hblanks (d : Draft) : Item.blanks.read d (' ' :: time) = .ok (d, time) := by
    rw [Item.read, dropBlanks_space, dropBlanks_padded]
  have hitems : readItems (isoDate ++ .blanks :: clock) {} (t.textWith ' ') =
      .ok ({ year := t.year, month := t.month, day := t.day,
             hour := t.hour, minute := t.minute, second := t.second }, []) := by
    rw [htext, readItems_isoDate, readItems_cons_of (hblanks _), ← List.append_nil clock]
    exact readItems_clock t _ [] []
  rw [readWhole, hitems]
  exact congrArg Except.toOption (Draft.finish_of_make? t.make?_wholeSeconds)

theorem trimmed_textWith (t : DateTime) (between : Char) : Trimmed (t.textWith between) where
  head c hc := by
    have hdrop := dropBlanks_yearText t.year ('-' :: padded 2 t.month ++ '-' :: padded 2 t.day ++
      between :: padded 2 t.hour ++ ':' :: padded 2 t.minute ++ ':' :: padded 2 t.second)
    have hhead : (dropBlanks (t.textWith between)).head? = some c := by
      simp only [DateTime.textWith, List.append_assoc] at hc hdrop ⊢
      rw [hdrop, hc]
    exact isBlank_of_head?_dropBlanks hhead
  last c hc := by
    have hne := padded_ne_nil 2 t.second
    have hlast : (t.textWith between).getLast? = (padded 2 t.second).getLast? := by
      rw [DateTime.textWith, List.getLast?_append_of_ne_nil _ (List.cons_ne_nil _ _),
        List.getLast?_cons_of_ne_nil hne]
    rw [hlast] at hc
    exact isBlank_of_isDigit (isDigit_of_mem_padded (List.mem_of_getLast? hc))

theorem parse?_eq_some_iff {s : String} {t : DateTime} :
    parse? s = some t ↔
      layouts.findSome? (fun layout => readWhole layout (trimChars s.toList)) = some t ∧
        firstYear ≤ t.year := by
  rw [parse?, Option.bind_eq_bind, Option.bind_eq_some_iff]
  constructor
  · rintro ⟨u, hread, hu⟩
    split at hu
    · cases hu
      exact ⟨hread, ‹_›⟩
    · cases hu
  · rintro ⟨hread, hyear⟩
    exact ⟨t, hread, if_pos hyear⟩

/-- The text of a moment that a column can hold names it, up to the fraction. -/
theorem parse?_text {t : DateTime} (h : firstYear ≤ t.year) :
    parse? t.text = some t.wholeSeconds := by
  have htrim : trimChars t.text.toList = t.textWith ' ' := by
    rw [DateTime.text, String.toList_ofList]
    exact (trimmed_textWith t ' ').trimChars_eq
  refine parse?_eq_some_iff.mpr ⟨?_, h⟩
  rw [htrim, layouts, List.findSome?_cons, readWhole_textWith]

/-! ### Fractions of a second -/

theorem number_suffix {width : Option Nat} {p : Nat × List Char} (h : number width cs = .ok p) :
    p.2 <:+ cs := by
  cases cs with
  | nil => cases h
  | cons c more =>
      rw [number_cons] at h
      split at h
      · cases h
      · cases h
        exact List.drop_suffix _ _

/-- What a step leaves: an end of the text it was given, and the fraction read so far. -/
structure Keeps (d : Draft) (cs : List Char) (d' : Draft) (cs' : List Char) : Prop where
  suffix : cs' <:+ cs
  nanosecond : d'.nanosecond = d.nanosecond

theorem keepYear_keeps {year : Int} (h : keepYear d year rest = .ok (d', cs')) :
    Keeps d rest d' cs' := by
  unfold keepYear at h
  split at h
  · cases h
    exact ⟨List.suffix_rfl, rfl⟩
  · cases h

theorem readYear_keeps (h : readYear d cs = .ok (d', cs')) : Keeps d cs d' cs' := by
  have hread (sign : Nat → Int) {width : Option Nat} {r : List Char} (hr : r <:+ cs)
      (h : (number width r >>= fun p => keepYear d (sign p.1) p.2) = .ok (d', cs')) :
      Keeps d cs d' cs' := by
    obtain ⟨⟨n, left⟩, hn, hkeep⟩ := bind_eq_ok h
    have hkeeps := keepYear_keeps hkeep
    exact ⟨(hkeeps.suffix.trans (number_suffix hn)).trans hr, hkeeps.nanosecond⟩
  cases cs with
  | nil => cases h
  | cons c r =>
      have hr : r <:+ c :: r := List.suffix_cons c r
      by_cases hminus : c = '-'
      · subst hminus
        exact hread (fun n => -n) hr (readYear_minus d r ▸ h)
      · by_cases hplus : c = '+'
        · subst hplus
          exact hread (fun n => n) hr (readYear_plus d r ▸ h)
        · exact hread (fun n => n) List.suffix_rfl (readYear_unsigned hminus hplus d r ▸ h)

theorem readPart_keeps {p : Part} (h : readPart p d cs = .ok (d', cs')) : Keeps d cs d' cs' := by
  obtain ⟨⟨n, r⟩, hn, h⟩ := bind_eq_ok h
  dsimp only at h
  split at h
  · cases h
    refine ⟨number_suffix hn, ?_⟩
    cases p <;> rfl
  · cases h

theorem readFraction_keeps (h : readFraction d cs = .ok (d', cs')) (hpoint : cs.head? ≠ some '.') :
    Keeps d cs d' cs' := by
  unfold readFraction at h
  split at h
  · exact absurd rfl hpoint
  · cases h
    exact ⟨List.suffix_rfl, rfl⟩

theorem readHalf_keeps (h : readHalf d cs = .ok (d', cs')) : Keeps d cs d' cs' := by
  unfold readHalf at h
  split at h
  · next a m r =>
      have hr : r <:+ a :: m :: r := ⟨[a, m], rfl⟩
      split at h
      · split at h
        · cases h
          exact ⟨hr, rfl⟩
        · split at h
          · cases h
            exact ⟨hr, rfl⟩
          · cases h
      · cases h
  · cases h

/-- A step keeps the fraction unless it begins at a point. -/
theorem Item.read_keeps (h : i.read d cs = .ok (d', cs')) (hpoint : cs.head? ≠ some '.') :
    Keeps d cs d' cs' := by
  have hblanks : dropBlanks cs <:+ cs := List.dropWhile_suffix _
  cases i with
  | literal c =>
      cases cs with
      | nil => cases h
      | cons x r =>
          dsimp only [Item.read] at h
          split at h
          · cases h
            exact ⟨List.suffix_cons x _, rfl⟩
          · cases h
  | blanks =>
      cases h
      exact ⟨hblanks, rfl⟩
  | part p =>
      have hkeeps : Keeps d (dropBlanks cs) d' cs' := by
        cases p with
        | year => exact readYear_keeps h
        | _ => exact readPart_keeps h
      exact ⟨hkeeps.suffix.trans hblanks, hkeeps.nanosecond⟩
  | fraction => exact readFraction_keeps h hpoint
  | half => exact readHalf_keeps h

/-- A text without a point is read without a fraction. -/
theorem readItems_nanosecond {items : List Item} (h : readItems items d cs = .ok (d', cs'))
    (hpoint : '.' ∉ cs) : d'.nanosecond = d.nanosecond := by
  induction items generalizing d cs with
  | nil =>
      cases h
      rfl
  | cons i items ih =>
      -- Only at a point does a step read a fraction, and an end of the text has no point either.
      obtain ⟨⟨mid, left⟩, hstep, hrest⟩ := bind_eq_ok h
      have hkeeps := Item.read_keeps hstep fun hhead => hpoint (List.mem_of_head? hhead)
      rw [← hkeeps.nanosecond]
      exact ih hrest fun hleft => hpoint (hkeeps.suffix.subset hleft)

theorem nanosecond_of_make? {year : Int} {month day hour minute second nanosecond : Nat}
    {t : DateTime} (h : DateTime.make? year month day hour minute second nanosecond = some t) :
    t.nanosecond = nanosecond := by
  unfold DateTime.make? at h
  split at h
  · split at h
    · obtain rfl := Option.some.inj h
      rfl
    · cases h
  · cases h

theorem Draft.finish_nanosecond {t : DateTime} (h : d.finish = .ok t) :
    t.nanosecond = d.nanosecond := by
  unfold Draft.finish at h
  dsimp only at h
  split at h
  next hmake =>
    cases h
    exact nanosecond_of_make? hmake
  next => cases h

theorem readWhole_nanosecond {layout : List Item} {t : DateTime} (h : readWhole layout cs = some t)
    (hpoint : '.' ∉ cs) : t.nanosecond = 0 := by
  unfold readWhole at h
  split at h
  next d hread =>
    rw [Draft.finish_nanosecond (toOption_eq_some h)]
    exact readItems_nanosecond hread hpoint
  next => cases h

theorem nanosecond_of_parse? {s : String} {t : DateTime} (h : parse? s = some t)
    (hpoint : '.' ∉ s.toList) : t.nanosecond = 0 := by
  obtain ⟨layout, -, hread⟩ := List.exists_of_findSome?_eq_some (parse?_eq_some_iff.mp h).1
  exact readWhole_nanosecond hread fun hmem => hpoint (mem_of_mem_trimChars hmem)

/-! ### Reading the text again -/

/-- The text of a moment that was read is read as that moment without the fraction of its second,
so as the same moment exactly if it has none; and it has none if it was read from a text without a
point.  The literal of the moment, without its quotes, and its JSON form have this text. -/
theorem parse?_display_iff {s : String} {t : DateTime} (h : parse? s = some t) :
    parse? (Value.dateTime t).display = some t.wholeSeconds ∧
      (parse? (Value.dateTime t).display = some t ↔ t.nanosecond = 0) ∧
      ('.' ∉ s.toList → t.nanosecond = 0) ∧
      (Value.dateTime t).sqlLiteral.toList =
        '\'' :: (Value.dateTime t).display.toList ++ ['\''] ∧
      (Value.dateTime t).toJson = .string (Value.dateTime t).display := by
  have hread : parse? (Value.dateTime t).display = some t.wholeSeconds :=
    parse?_text (parse?_eq_some_iff.mp h).2
  refine ⟨hread, ?_, nanosecond_of_parse? h, String.toList_ofList, rfl⟩
  rw [hread, Option.some_inj]
  exact DateTime.wholeSeconds_eq_self_iff

/-- The last second of a year with five digits, which is a leap second. -/
def leapSecond : DateTime := ⟨12023, 12, 31, 23, 59, 60, 0, by decide, by decide⟩

def quarterPast : DateTime := ⟨2023, 4, 5, 12, 0, 0, 250000000, by decide, by decide⟩

/-- Twelve-hour clock, leap second and signed year. -/
theorem parse?_display_iff_leapSecond :
    parse? " 12/31/+12023 11:59:60 pm" = some leapSecond ∧
      (Value.dateTime leapSecond).display = "+12023-12-31 23:59:60" ∧
      parse? "+12023-12-31 23:59:60" = some leapSecond := by
  have hread : parse? " 12/31/+12023 11:59:60 pm" = some leapSecond := by decide +kernel
  have hdisplay : (Value.dateTime leapSecond).display = "+12023-12-31 23:59:60" := by
    decide +kernel
  exact ⟨hread, hdisplay, hdisplay ▸ (parse?_display_iff hread).2.1.mpr rfl⟩

/-- The fraction is part of the moment and not of its text. -/
theorem parse?_display_quarterPast :
    parse? "2023-04-05T12:00:00.25" = some quarterPast ∧
      (Value.dateTime quarterPast).display = "2023-04-05 12:00:00" ∧
      parse? (Value.dateTime quarterPast).display ≠ some quarterPast := by
  have hdisplay : (Value.dateTime quarterPast).display = "2023-04-05 12:00:00" := by
    decide +kernel
  exact ⟨by decide +kernel, hdisplay, by rw [hdisplay]; decide +kernel⟩

end Calendar
end RowContract
