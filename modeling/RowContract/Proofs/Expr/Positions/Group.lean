import RowContract.Proofs.Expr.Lookahead
import RowContract.Proofs.Expr.Positions.Step

/-!
The look ahead after a parenthesis by places.  The search for the partner counts open parentheses
with an unsigned number; begun at an opening one it never takes one from zero, and the partner
stands behind it.  So there is a place before the partner, and what stands between the two is a part
of the tokens.
-/

namespace RowContract.Expr.Positions

/-- The place of the parenthesis that closes the first of `depth` open ones; place `i` is next. -/
def partnerFrom (depth i : Nat) : List Token → Except Stop (Option Nat)
  | [] => .ok none
  | t :: r =>
    if t = .symbol .leftParen then partnerFrom (depth + 1) (i + 1) r
    else if t = .symbol .rightParen then do
      let depth ← before depth
      if depth = 0 then .ok (some i) else partnerFrom depth (i + 1) r
    else partnerFrom depth (i + 1) r

def partner (ts : List Token) (start : Nat) : Except Stop (Option Nat) :=
  partnerFrom 0 start (ts.drop start)

/-- Whether the parenthesis at a place groups a condition, not an operand; a parenthesis that
encloses nothing but another one is left for that. -/
def groupsCondition (ts : List Token) (start : Nat) : Except Stop Bool := do
  match ← partner ts start with
  | none => return false
  | some close =>
    if h : ts[start + 1]? = some (.symbol .leftParen) then
      let inner ← partner ts (start + 1)
      let last ← before close
      if inner = some last then groupsCondition ts (start + 1)
      else (part ts (start + 1) close).map (hasMark 0 0)
    else (part ts (start + 1) close).map (hasMark 0 0)
termination_by ts.length - start
decreasing_by
  have hlt := (List.getElem?_eq_some_iff.mp h).1
  omega

/-! ### The partner -/

theorem map_add_length_cons (i : Nat) (t : Token) (found : Option (List Token)) :
    (found.map (t :: ·)).map (i + ·.length) = found.map (i + 1 + ·.length) := by
  rw [Option.map_map]
  congr 1
  funext inner
  simp only [Function.comp_apply, List.length_cons]
  omega

/-- With a parenthesis open, the search goes as far as the group of the tokens behind it. -/
theorem partnerFrom_succ (depth i : Nat) (ts : List Token) :
    partnerFrom (depth + 1) i ts = .ok ((group? depth ts).map (i + ·.length)) := by
  induction ts generalizing depth i with
  | nil => rfl
  | cons t r ih =>
      rw [partnerFrom]
      by_cases hleft : t = .symbol .leftParen
      · subst hleft
        rw [if_pos rfl, ih, group?_leftParen, map_add_length_cons]
      by_cases hright : t = .symbol .rightParen
      · subst hright
        rw [if_neg hleft, if_pos rfl, before, ok_bind]
        cases depth with
        | zero => rfl
        | succ depth =>
            rw [if_neg (Nat.succ_ne_zero depth), ih, group?_rightParen, map_add_length_cons]
      · rw [if_neg hleft, if_neg hright, ih, group?_other hleft hright, map_add_length_cons]

variable {ts rest inner : List Token} {start : Nat}

/-- The partner of an opening parenthesis stands behind the group that follows it. -/
theorem partner_eq (h : ts.drop start = .symbol .leftParen :: rest) :
    partner ts start = .ok ((group? 0 rest).map fun inner => start + 1 + inner.length) := by
  rw [partner, h, partnerFrom, if_pos rfl, partnerFrom_succ]

-- Begun at a closing parenthesis, the search would go below zero.
example : partner [.symbol .rightParen] 0 = .error .belowZero := rfl

/-- What the group has is what stands between the parentheses. -/
theorem part_of_group? (h : ts.drop start = .symbol .leftParen :: rest)
    (hinner : group? 0 rest = some inner) :
    part ts (start + 1) (start + 1 + inner.length) = .ok inner := by
  obtain ⟨after, rfl⟩ := eq_of_group? hinner
  refine part_of_prefix (lt_length_of_drop_eq_cons h) ?_
  rw [drop_succ_of_drop_eq_cons h]
  exact List.prefix_append _ _

/-! ### What is in the parentheses -/

/-- What follows the partner of a parenthesis has no influence on its group. -/
theorem group?_congr {depth : Nat} {after : List Token}
    (h : group? depth (inner ++ .symbol .rightParen :: after) = some inner) (after' : List Token) :
    group? depth (inner ++ .symbol .rightParen :: after') = some inner := by
  induction inner generalizing depth with
  | nil =>
      cases depth with
      | zero => exact group?_close after'
      | succ depth => simp [group?_rightParen] at h
  | cons t inner ih =>
      rw [List.cons_append] at h ⊢
      rcases group?_cons_eq_some h with ⟨-, -, hnil⟩ | ⟨tail, htail, hgroup⟩
      · cases hnil
      obtain ⟨-, rfl⟩ := List.cons.inj htail
      rcases hgroup with ⟨rfl, hgroup⟩ | ⟨rfl, outer, rfl, hgroup⟩ | ⟨hleft, hright, hgroup⟩
      · rw [group?_leftParen, ih hgroup]
        rfl
      · rw [group?_rightParen, ih hgroup]
        rfl
      · rw [group?_other hleft hright, ih hgroup]
        rfl

/-- A group is nothing but another one if the partner of the inner parenthesis stands right before
that of the outer. -/
theorem unwrap?_eq_some_iff (after : List Token) :
    unwrap? (.symbol .leftParen :: rest) = some inner ↔
      group? 0 (rest ++ .symbol .rightParen :: after) = some inner ∧
        inner.length + 1 = rest.length := by
  constructor
  · intro h
    obtain ⟨htokens, hgroup⟩ := eq_parenthesised_of_unwrap? h
    obtain rfl : rest = inner ++ [.symbol .rightParen] := (List.cons.inj htokens).2
    refine ⟨?_, by simp⟩
    rw [List.append_assoc]
    exact group?_congr hgroup _
  · rintro ⟨hgroup, hlength⟩
    obtain ⟨more, hmore⟩ := eq_of_group? hgroup
    have hsame :
        rest ++ .symbol .rightParen :: after = (inner ++ [.symbol .rightParen]) ++ more := by
      rw [hmore, List.append_assoc]
      rfl
    obtain ⟨rfl, -⟩ := List.append_inj hsame (by simp [← hlength])
    rw [List.append_assoc] at hgroup
    have hfound := group?_congr hgroup []
    rw [unwrap?, hfound]
    exact if_pos hlength

theorem length_of_unwrap? {ts : List Token} (h : unwrap? ts = some inner) :
    inner.length + 2 = ts.length := by
  obtain ⟨rfl, -⟩ := eq_parenthesised_of_unwrap? h
  simp [parenthesised]

/-- Where a group is nothing but another one, the inner parenthesis stands next. -/
theorem drop_succ_of_unwrap? {inside : List Token}
    (h : ts.drop start = .symbol .leftParen :: rest) (hinner : group? 0 rest = some inner)
    (hunwrap : unwrap? inner = some inside) :
    ∃ more, ts.drop (start + 1) = .symbol .leftParen :: more ∧ group? 0 more = some inside := by
  obtain ⟨rfl, -⟩ := eq_parenthesised_of_unwrap? hunwrap
  obtain ⟨after, rfl⟩ := eq_of_group? hinner
  refine ⟨_, drop_succ_of_drop_eq_cons h, ?_⟩
  exact ((unwrap?_eq_some_iff _).mp hunwrap).1

theorem unwrap?_eq_none (h : ∀ r, inner ≠ .symbol .leftParen :: r) : unwrap? inner = none := by
  unfold unwrap?
  split
  next r => exact absurd rfl (h r)
  next => rfl

/-- The partner of a parenthesis stands right before another closing one exactly where the tokens
before that one are a group and nothing else. -/
theorem partner_before_iff (start : Nat) (rest after : List Token) :
    (group? 0 (rest ++ .symbol .rightParen :: after)).map (start + 1 + ·.length) =
        some (start + rest.length) ↔
      (unwrap? (.symbol .leftParen :: rest)).isSome = true := by
  rw [Option.map_eq_some_iff, Option.isSome_iff_exists]
  refine exists_congr fun inside => ?_
  rw [unwrap?_eq_some_iff after]
  refine and_congr_right fun _ => ?_
  omega

/-- One round of the look ahead: another parenthesis around all is passed over, and else the tokens
are looked through for a mark.  No step of it is impossible. -/
theorem groupsCondition_step (h : ts.drop start = .symbol .leftParen :: rest)
    (hinner : group? 0 rest = some inner) :
    groupsCondition ts start =
      match unwrap? inner with
      | some _ => groupsCondition ts (start + 1)
      | none => .ok (hasMark 0 0 inner) := by
  obtain ⟨after, rfl⟩ := eq_of_group? hinner
  have hnext := drop_succ_of_drop_eq_cons h
  have hmarks : (part ts (start + 1) (start + 1 + inner.length)).map (hasMark 0 0) =
      .ok (hasMark 0 0 inner) := by
    rw [part_of_group? h hinner]
    rfl
  have hhead : ts[start + 1]? = (inner ++ .symbol .rightParen :: after).head? := by
    rw [← hnext, List.head?_drop]
  rw [groupsCondition, partner_eq h, hinner, Option.map_some, ok_bind]
  dsimp only
  rw [hmarks]
  by_cases hparen : ∃ r, inner = .symbol .leftParen :: r
  · obtain ⟨r, rfl⟩ := hparen
    rw [List.cons_append] at hnext hhead
    rw [List.head?_cons] at hhead
    rw [dif_pos hhead, partner_eq hnext, ok_bind, List.length_cons, Nat.add_succ, before, ok_bind]
    have hbefore := partner_before_iff (start + 1) r after
    cases hunwrap : unwrap? (.symbol .leftParen :: r) with
    | some inside => exact if_pos (hbefore.mpr (by rw [hunwrap]; rfl))
    | none =>
        refine if_neg fun hpartner => ?_
        have hsome := hbefore.mp hpartner
        rw [hunwrap] at hsome
        cases hsome
  · have hother : ¬ ts[start + 1]? = some (.symbol .leftParen) := by
      rw [hhead]
      cases inner with
      | nil => simp
      | cons t r => simpa using hparen
    rw [dif_neg hother, unwrap?_eq_none fun r hr => hparen ⟨r, hr⟩]

/-- The look ahead by places gives what the look ahead over the tokens in the parentheses gives. -/
theorem groupsCondition_of_group? {fuel : Nat} (h : ts.drop start = .symbol .leftParen :: rest)
    (hinner : group? 0 rest = some inner) (hfuel : inner.length ≤ fuel) :
    groupsCondition ts start = .ok (isConditionGroup fuel inner) := by
  induction fuel generalizing start rest inner with
  | zero =>
      obtain rfl := List.eq_nil_of_length_eq_zero (Nat.le_zero.mp hfuel)
      exact groupsCondition_step h hinner
  | succ fuel ih =>
      rw [groupsCondition_step h hinner, isConditionGroup]
      cases hunwrap : unwrap? inner with
      | none => rfl
      | some inside =>
          obtain ⟨more, hmore, hinside⟩ := drop_succ_of_unwrap? h hinner hunwrap
          have hlength := length_of_unwrap? hunwrap
          exact ih hmore hinside (by omega)

theorem groupsCondition_eq (h : ts.drop start = .symbol .leftParen :: rest) :
    groupsCondition ts start = .ok (Expr.groupsCondition rest) := by
  rw [Expr.groupsCondition]
  cases hinner : group? 0 rest with
  | some inner => exact groupsCondition_of_group? h hinner (Nat.le_refl _)
  | none =>
      rw [groupsCondition, partner_eq h, hinner]
      rfl

end RowContract.Expr.Positions
