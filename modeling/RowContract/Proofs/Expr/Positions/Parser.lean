import RowContract.Proofs.Expr.Parser
import RowContract.Proofs.Expr.Positions.Group

/-!
The parser by places.  Each function is given the place of the next token and finds a tree with the
place behind its last one.  No bound on the depth of calls is needed: from one call to the next the
place moves on, or the rule is one that makes fewer calls before it does.
-/

namespace RowContract.Expr.Positions

/-! ### Single tokens -/

def refuse {α : Type} (fault : SyntaxFault) : Except Stop α := .error (.refused (.malformed fault))

def eat? (ts : List Token) (wanted : Token) (pos : Nat) :
    Option (Found Token (pos + 1) ts.length) :=
  (take? ts pos).filter fun found => found.value = wanted

def expect (ts : List Token) (wanted : Token) (pos : Nat) :
    Except Stop (Found Token (pos + 1) ts.length) :=
  match take? ts pos with
  | some found =>
    if found.value = wanted then .ok found else refuse (.expected wanted (some found.value))
  | none => refuse (.expected wanted none)

def operator? (read? : List Token → Option (BinaryOp × List Token)) (ts : List Token) (pos : Nat) :
    Option (Found BinaryOp (pos + 1) ts.length) :=
  match take? ts pos with
  | some ⟨t, next, hnext, hle⟩ => (read? [t]).map fun (op, _) => ⟨op, next, hnext, hle⟩
  | none => none

/-! ### The parser -/

mutual

def arith (ts : List Token) (pos : Nat) : Except Stop (Found Tree (pos + 1) ts.length) := do
  let ⟨lhs, next, h, hle⟩ ← term ts pos
  let ⟨tree, last, h', hle'⟩ ← arithTail ts lhs next hle
  return ⟨tree, last, by omega, hle'⟩
termination_by 16 * (ts.length - pos) + Rule.arith.calls
decreasing_by all_goals simp only [Rule.calls]; omega

def arithTail (ts : List Token) (lhs : Tree) (pos : Nat) (hpos : pos ≤ ts.length) :
    Except Stop (Found Tree pos ts.length) :=
  match operator? sumOp? ts pos with
  | some ⟨op, next, h, hle⟩ => do
    let ⟨rhs, next', h', hle'⟩ ← term ts next
    let ⟨tree, last, h'', hle''⟩ ← arithTail ts (.binary op lhs rhs) next' hle'
    return ⟨tree, last, by omega, hle''⟩
  | none => return ⟨lhs, pos, Nat.le_refl _, hpos⟩
termination_by 16 * (ts.length - pos) + Rule.sums.calls
decreasing_by all_goals simp only [Rule.calls]; omega

def term (ts : List Token) (pos : Nat) : Except Stop (Found Tree (pos + 1) ts.length) := do
  let ⟨lhs, next, h, hle⟩ ← unary ts pos
  let ⟨tree, last, h', hle'⟩ ← termTail ts lhs next hle
  return ⟨tree, last, by omega, hle'⟩
termination_by 16 * (ts.length - pos) + Rule.term.calls
decreasing_by all_goals simp only [Rule.calls]; omega

def termTail (ts : List Token) (lhs : Tree) (pos : Nat) (hpos : pos ≤ ts.length) :
    Except Stop (Found Tree pos ts.length) :=
  match operator? productOp? ts pos with
  | some ⟨op, next, h, hle⟩ => do
    let ⟨rhs, next', h', hle'⟩ ← unary ts next
    let ⟨tree, last, h'', hle''⟩ ← termTail ts (.binary op lhs rhs) next' hle'
    return ⟨tree, last, by omega, hle''⟩
  | none => return ⟨lhs, pos, Nat.le_refl _, hpos⟩
termination_by 16 * (ts.length - pos) + Rule.products.calls
decreasing_by all_goals simp only [Rule.calls]; omega

def unary (ts : List Token) (pos : Nat) : Except Stop (Found Tree (pos + 1) ts.length) :=
  match eat? ts (.symbol .minus) pos with
  | some ⟨_, next, h, hle⟩ => do
    let ⟨inner, last, h', hle'⟩ ← unary ts next
    return ⟨.neg inner, last, by omega, hle'⟩
  | none =>
    match eat? ts (.symbol .plus) pos with
    | some ⟨_, next, h, hle⟩ => do
      let ⟨inner, last, h', hle'⟩ ← unary ts next
      return ⟨inner, last, by omega, hle'⟩
    | none => power ts pos
termination_by 16 * (ts.length - pos) + Rule.unary.calls
decreasing_by all_goals simp only [Rule.calls]; omega

/-- An operand, perhaps raised to a power that may have a sign of its own. -/
def power (ts : List Token) (pos : Nat) : Except Stop (Found Tree (pos + 1) ts.length) := do
  let ⟨base, next, h, hle⟩ ← primary ts pos
  match eat? ts (.symbol .doubleStar) next with
  | some ⟨_, next', h', hle'⟩ => do
    let ⟨exponent, last, h'', hle''⟩ ← unary ts next'
    return ⟨.binary .pow base exponent, last, by omega, hle''⟩
  | none => return ⟨base, next, h, hle⟩
termination_by 16 * (ts.length - pos) + Rule.power.calls
decreasing_by all_goals simp only [Rule.calls]; omega

def primary (ts : List Token) (pos : Nat) : Except Stop (Found Tree (pos + 1) ts.length) :=
  match take? ts pos with
  | none => refuse .unexpectedEnd
  | some ⟨t, next, h, hle⟩ =>
    match t with
    | .number lexeme => return ⟨.number lexeme, next, h, hle⟩
    | .string s => return ⟨.text s, next, h, hle⟩
    | .identifier name => return ⟨.field name, next, h, hle⟩
    | .keyword .null => return ⟨.null, next, h, hle⟩
    | .keyword .case => do
      let ⟨branches, last, h', hle'⟩ ← firstArm ts next
      return ⟨.case branches, last, by omega, hle'⟩
    | .symbol .leftParen => do
      let ⟨inner, next', h', hle'⟩ ← arith ts next
      let ⟨_, last, h'', hle''⟩ ← expect ts (.symbol .rightParen) next'
      return ⟨inner, last, by omega, hle''⟩
    | t => refuse (.unexpected t)
termination_by 16 * (ts.length - pos) + Rule.primary.calls
decreasing_by all_goals simp only [Rule.calls]; omega

/-- The arms of a case distinction, of which there has to be one. -/
def firstArm (ts : List Token) (pos : Nat) : Except Stop (Found Branches (pos + 1) ts.length) :=
  match eat? ts (.keyword .when) pos with
  | some ⟨_, next, h, hle⟩ => do
    let ⟨all, last, h', hle'⟩ ← arm ts next
    return ⟨all, last, by omega, hle'⟩
  | none => refuse .missingWhen
termination_by 16 * (ts.length - pos) + Rule.arms.calls
decreasing_by all_goals simp only [Rule.calls]; omega

def arm (ts : List Token) (pos : Nat) : Except Stop (Found Branches (pos + 1) ts.length) := do
  let ⟨c, next₁, h₁, hle₁⟩ ← condition ts pos
  let ⟨_, next₂, h₂, hle₂⟩ ← expect ts (.keyword .then) next₁
  let ⟨value, next₃, h₃, hle₃⟩ ← arith ts next₂
  let ⟨rest, last, h₄, hle₄⟩ ← branches ts next₃
  return ⟨.arm c value rest, last, by omega, hle₄⟩
termination_by 16 * (ts.length - pos) + Rule.arm.calls
decreasing_by all_goals simp only [Rule.calls]; omega

def branches (ts : List Token) (pos : Nat) : Except Stop (Found Branches (pos + 1) ts.length) :=
  match eat? ts (.keyword .when) pos with
  | some ⟨_, next, h, hle⟩ => do
    let ⟨rest, last, h', hle'⟩ ← arm ts next
    return ⟨rest, last, by omega, hle'⟩
  | none =>
    match eat? ts (.keyword .else) pos with
    | some ⟨_, next, h, hle⟩ => do
      let ⟨value, next', h', hle'⟩ ← arith ts next
      let ⟨_, last, h'', hle''⟩ ← expect ts (.keyword .end) next'
      return ⟨.otherwise value, last, by omega, hle''⟩
    | none => do
      let ⟨_, last, h, hle⟩ ← expect ts (.keyword .end) pos
      return ⟨.done, last, h, hle⟩
termination_by 16 * (ts.length - pos) + Rule.branches.calls
decreasing_by all_goals simp only [Rule.calls]; omega

def condition (ts : List Token) (pos : Nat) :
    Except Stop (Found Condition (pos + 1) ts.length) := do
  let ⟨lhs, next, h, hle⟩ ← conjunction ts pos
  let ⟨c, last, h', hle'⟩ ← conditionTail ts lhs next hle
  return ⟨c, last, by omega, hle'⟩
termination_by 16 * (ts.length - pos) + Rule.condition.calls
decreasing_by all_goals simp only [Rule.calls]; omega

def conditionTail (ts : List Token) (lhs : Condition) (pos : Nat) (hpos : pos ≤ ts.length) :
    Except Stop (Found Condition pos ts.length) :=
  match eat? ts (.keyword .or) pos with
  | some ⟨_, next, h, hle⟩ => do
    let ⟨rhs, next', h', hle'⟩ ← conjunction ts next
    let ⟨c, last, h'', hle''⟩ ← conditionTail ts (.or lhs rhs) next' hle'
    return ⟨c, last, by omega, hle''⟩
  | none => return ⟨lhs, pos, Nat.le_refl _, hpos⟩
termination_by 16 * (ts.length - pos) + Rule.disjuncts.calls
decreasing_by all_goals simp only [Rule.calls]; omega

def conjunction (ts : List Token) (pos : Nat) :
    Except Stop (Found Condition (pos + 1) ts.length) := do
  let ⟨lhs, next, h, hle⟩ ← atom ts pos
  let ⟨c, last, h', hle'⟩ ← conjunctionTail ts lhs next hle
  return ⟨c, last, by omega, hle'⟩
termination_by 16 * (ts.length - pos) + Rule.conjunction.calls
decreasing_by all_goals simp only [Rule.calls]; omega

def conjunctionTail (ts : List Token) (lhs : Condition) (pos : Nat) (hpos : pos ≤ ts.length) :
    Except Stop (Found Condition pos ts.length) :=
  match eat? ts (.keyword .and) pos with
  | some ⟨_, next, h, hle⟩ => do
    let ⟨rhs, next', h', hle'⟩ ← atom ts next
    let ⟨c, last, h'', hle''⟩ ← conjunctionTail ts (.and lhs rhs) next' hle'
    return ⟨c, last, by omega, hle''⟩
  | none => return ⟨lhs, pos, Nat.le_refl _, hpos⟩
termination_by 16 * (ts.length - pos) + Rule.conjuncts.calls
decreasing_by all_goals simp only [Rule.calls]; omega

def atom (ts : List Token) (pos : Nat) : Except Stop (Found Condition (pos + 1) ts.length) :=
  match eat? ts (.keyword .not) pos with
  | some ⟨_, next, h, hle⟩ => do
    let ⟨inner, last, h', hle'⟩ ← atom ts next
    return ⟨.not inner, last, by omega, hle'⟩
  | none =>
    match eat? ts (.symbol .leftParen) pos with
    | some ⟨_, next, h, hle⟩ => do
      if ← groupsCondition ts pos then
        let ⟨inner, next', h', hle'⟩ ← condition ts next
        let ⟨_, last, h'', hle''⟩ ← expect ts (.symbol .rightParen) next'
        return ⟨inner, last, by omega, hle''⟩
      else comparison ts pos
    | none => comparison ts pos
termination_by 16 * (ts.length - pos) + Rule.atom.calls
decreasing_by all_goals simp only [Rule.calls]; omega

/-- Two operands and a comparison between them, or a test for a missing value. -/
def comparison (ts : List Token) (pos : Nat) :
    Except Stop (Found Condition (pos + 1) ts.length) := do
  let ⟨lhs, next, h, hle⟩ ← arith ts pos
  let ⟨c, last, h', hle'⟩ ← comparisonTail ts lhs next
  return ⟨c, last, by omega, hle'⟩
termination_by 16 * (ts.length - pos) + Rule.comparison.calls
decreasing_by all_goals simp only [Rule.calls]; omega

def comparisonTail (ts : List Token) (lhs : Tree) (pos : Nat) :
    Except Stop (Found Condition (pos + 1) ts.length) :=
  match eat? ts (.keyword .is) pos with
  | some ⟨_, next, h, _⟩ =>
    match eat? ts (.keyword .not) next with
    | some ⟨_, next', h', _⟩ => do
      let ⟨_, last, h'', hle⟩ ← expect ts (.keyword .null) next'
      return ⟨.isNull lhs true, last, by omega, hle⟩
    | none => do
      let ⟨_, last, h', hle⟩ ← expect ts (.keyword .null) next
      return ⟨.isNull lhs false, last, by omega, hle⟩
  | none =>
    match take? ts pos with
    | none => refuse (.missingComparison none)
    | some ⟨t, next, h, hle⟩ =>
      match compareOp? t with
      | some op => do
        let ⟨rhs, last, h', hle'⟩ ← arith ts next
        return ⟨.compare op lhs rhs, last, by omega, hle'⟩
      | none => refuse (.missingComparison (some t))
termination_by 16 * (ts.length - pos)
decreasing_by all_goals simp only [Rule.calls]; omega

end

/-- The tree of a list of tokens, all of which it has to use. -/
def parse (ts : List Token) : Except Stop Tree :=
  if ts.isEmpty then refuse .emptyExpression
  else do
    let ⟨tree, next, _, _⟩ ← arith ts 0
    match take? ts next with
    | none => return tree
    | some found => refuse (.unexpected found.value)

/-! ### Single tokens of the rest -/

section
variable {ts r : List Token} {wanted : Token} {pos : Nat}

theorem eat?_of_drop (h : ts.drop pos = wanted :: r) :
    eat? ts wanted pos = some ⟨wanted, pos + 1, Nat.le_refl _, lt_length_of_drop_eq_cons h⟩ := by
  rw [eat?, take?_of_drop_eq_cons h, Option.filter_some, if_pos (decide_eq_true rfl)]

theorem eat?_eq_none (h : ∀ r, ts.drop pos = wanted :: r → False) : eat? ts wanted pos = none := by
  cases hts : ts.drop pos with
  | nil => rw [eat?, take?_of_drop_eq_nil hts, Option.filter_none]
  | cons t r =>
      have ht : t ≠ wanted := by
        rintro rfl
        exact h r hts
      rw [eat?, take?_of_drop_eq_cons hts, Option.filter_some, if_neg (by simpa using ht)]

theorem operator?_eq {read? : List Token → Option (BinaryOp × List Token)} (hnil : read? [] = none)
    (hcons : ∀ t r, read? (t :: r) = (read? [t]).map fun (op, _) => (op, r)) :
    read? (ts.drop pos) =
      (operator? read? ts pos).map fun found => (found.value, ts.drop found.next) := by
  cases hts : ts.drop pos with
  | nil =>
      rw [operator?, take?_of_drop_eq_nil hts, hnil]
      rfl
  | cons t r =>
      obtain rfl := drop_succ_of_drop_eq_cons hts
      rw [operator?, take?_of_drop_eq_cons hts, hcons]
      dsimp only
      rw [Option.map_map]
      rfl

theorem sumOp?_cons (t : Token) (r : List Token) :
    sumOp? (t :: r) = (sumOp? [t]).map fun (op, _) => (op, r) := by
  cases t with
  | symbol s => cases s <;> rfl
  | _ => rfl

theorem productOp?_cons (t : Token) (r : List Token) :
    productOp? (t :: r) = (productOp? [t]).map fun (op, _) => (op, r) := by
  cases t with
  | symbol s => cases s <;> rfl
  | _ => rfl

/-- A token that has to be there is found or missed in both ways. -/
theorem agrees_expect_bind {α : Type} {least : Nat}
    {f : Found Token (pos + 1) ts.length → Except Stop (Found α least ts.length)}
    {g : List Token → Except SyntaxFault (α × List Token)}
    (h : ∀ found : Found Token (pos + 1) ts.length,
      Agrees .malformed (f found) (g (ts.drop found.next))) :
    Agrees .malformed (expect ts wanted pos >>= f) (Expr.expect wanted (ts.drop pos) >>= g) := by
  cases hts : ts.drop pos with
  | nil =>
      rw [expect, take?_of_drop_eq_nil hts]
      exact .refused _
  | cons t r =>
      obtain rfl := drop_succ_of_drop_eq_cons hts
      rw [expect, take?_of_drop_eq_cons hts, Expr.expect]
      dsimp only
      by_cases ht : t = wanted
      · rw [if_pos ht, if_pos ht]
        exact h _
      · rw [if_neg ht, if_neg ht]
        exact .refused _

end

/-- A smaller bound for the place behind is a bound, too. -/
theorem Agrees.widen {ι α ε : Type} {refuse : ε → Fault} {items : List ι} {least least' : Nat}
    {x : Except Stop (Found α least items.length)} {y : Except ε (α × List ι)}
    (h : Agrees refuse x y) (hleast : least' ≤ least) :
    Agrees refuse (x >>= fun ⟨a, next, hnext, hle⟩ =>
      return (⟨a, next, Nat.le_trans hleast hnext, hle⟩ : Found α least' items.length)) y := by
  cases h with
  | found x => exact .found _
  | refused fault => exact .refused fault

/-! ### One lemma for each function

`SameWithin ts fuel` is the induction hypothesis of all of them: with one call less the functions
agree. -/

def leastStep : Rule → Nat
  | .sums | .products | .disjuncts | .conjuncts => 0
  | _ => 1

def read (ts : List Token) : (n : Rule) → n.Seed → (pos : Nat) → pos ≤ ts.length →
    Except Stop (Found n.Result (pos + leastStep n) ts.length)
  | .arith, _, pos, _ => arith ts pos
  | .sums, lhs, pos, hpos => arithTail ts lhs pos hpos
  | .term, _, pos, _ => term ts pos
  | .products, lhs, pos, hpos => termTail ts lhs pos hpos
  | .unary, _, pos, _ => unary ts pos
  | .power, _, pos, _ => power ts pos
  | .primary, _, pos, _ => primary ts pos
  | .arms, _, pos, _ => firstArm ts pos
  | .arm, _, pos, _ => arm ts pos
  | .branches, _, pos, _ => branches ts pos
  | .condition, _, pos, _ => condition ts pos
  | .disjuncts, lhs, pos, hpos => conditionTail ts lhs pos hpos
  | .conjunction, _, pos, _ => conjunction ts pos
  | .conjuncts, lhs, pos, hpos => conjunctionTail ts lhs pos hpos
  | .atom, _, pos, _ => atom ts pos
  | .comparison, _, pos, _ => comparison ts pos

/-- A bound that is high enough for the tokens behind a place makes no difference. -/
def SameWithin (ts : List Token) (fuel : Nat) : Prop :=
  ∀ (n : Rule) (s : n.Seed) (pos : Nat) (hpos : pos ≤ ts.length),
    16 * (ts.length - pos) + n.calls ≤ fuel →
      Agrees .malformed (read ts n s pos hpos) (n.parser fuel s (ts.drop pos))

namespace SameWithin

variable {ts r : List Token} {t : Token} {fuel pos next : Nat}

/-- At a later place every function can be called. -/
theorem later (ih : SameWithin ts fuel) (h : 16 * (ts.length - pos) ≤ fuel) (hnext : pos < next)
    (hle : next ≤ ts.length) (n : Rule) (s : n.Seed) :
    Agrees .malformed (read ts n s next hle) (n.parser fuel s (ts.drop next)) := by
  have hcalls := n.calls_le
  exact ih n s next hle (by omega)

/-- Behind a token every function can be called. -/
theorem behind (ih : SameWithin ts fuel) (h : 16 * (ts.length - pos) ≤ fuel)
    (hts : ts.drop pos = t :: r) (n : Rule) (s : n.Seed) :
    Agrees .malformed (read ts n s (pos + 1) (lt_length_of_drop_eq_cons hts))
      (n.parser fuel s r) := by
  obtain rfl := drop_succ_of_drop_eq_cons hts
  exact ih.later h (Nat.lt_succ_self pos) _ n s

theorem arith (ih : SameWithin ts fuel) (hpos : pos ≤ ts.length)
    (h : 16 * (ts.length - pos) + 5 ≤ fuel + 1) :
    Agrees .malformed (Positions.arith ts pos) (Expr.arith (fuel + 1) (ts.drop pos)) := by
  rw [Positions.arith, Expr.arith]
  refine (ih .term () pos hpos (by simp only [Rule.calls]; omega)).bind ?_
  rintro ⟨lhs, next, hnext, hle⟩
  exact (ih.later (by omega) hnext hle .sums lhs).widen hnext

theorem sums (ih : SameWithin ts fuel) (lhs : Tree) (hpos : pos ≤ ts.length)
    (h : 16 * (ts.length - pos) + 1 ≤ fuel + 1) :
    Agrees .malformed (Positions.arithTail ts lhs pos hpos)
      (Expr.arithTail (fuel + 1) lhs (ts.drop pos)) := by
  rw [Positions.arithTail, Expr.arithTail, operator?_eq rfl sumOp?_cons]
  cases operator? sumOp? ts pos with
  | none => exact .found _
  | some found =>
      obtain ⟨op, next, hnext, hle⟩ := found
      refine (ih.later (by omega) hnext hle .term ()).bind ?_
      rintro ⟨rhs, next', hnext', hle'⟩
      exact (ih.later (by omega) (Nat.lt_trans hnext hnext') hle' .sums _).widen (by omega)

theorem term (ih : SameWithin ts fuel) (hpos : pos ≤ ts.length)
    (h : 16 * (ts.length - pos) + 4 ≤ fuel + 1) :
    Agrees .malformed (Positions.term ts pos) (Expr.term (fuel + 1) (ts.drop pos)) := by
  rw [Positions.term, Expr.term]
  refine (ih .unary () pos hpos (by simp only [Rule.calls]; omega)).bind ?_
  rintro ⟨lhs, next, hnext, hle⟩
  exact (ih.later (by omega) hnext hle .products lhs).widen hnext

theorem products (ih : SameWithin ts fuel) (lhs : Tree) (hpos : pos ≤ ts.length)
    (h : 16 * (ts.length - pos) + 1 ≤ fuel + 1) :
    Agrees .malformed (termTail ts lhs pos hpos) (Expr.termTail (fuel + 1) lhs (ts.drop pos)) := by
  rw [termTail, Expr.termTail, operator?_eq rfl productOp?_cons]
  cases operator? productOp? ts pos with
  | none => exact .found _
  | some found =>
      obtain ⟨op, next, hnext, hle⟩ := found
      refine (ih.later (by omega) hnext hle .unary ()).bind ?_
      rintro ⟨rhs, next', hnext', hle'⟩
      exact (ih.later (by omega) (Nat.lt_trans hnext hnext') hle' .products _).widen (by omega)

theorem unary (ih : SameWithin ts fuel) (hpos : pos ≤ ts.length)
    (h : 16 * (ts.length - pos) + 3 ≤ fuel + 1) :
    Agrees .malformed (Positions.unary ts pos) (Expr.unary (fuel + 1) (ts.drop pos)) := by
  rw [Expr.unary.eq_def]
  dsimp only
  split
  next r hts =>
    rw [Positions.unary, eat?_of_drop hts]
    refine (ih.behind (by omega) hts .unary ()).bind ?_
    exact fun inner => .found _
  next r hts =>
    rw [Positions.unary, eat?_eq_none (by simp [hts]), eat?_of_drop hts]
    exact (ih.behind (by omega) hts .unary ()).widen (by omega)
  next hminus hplus =>
    rw [Positions.unary, eat?_eq_none hminus, eat?_eq_none hplus]
    exact ih .power () pos hpos (by simp only [Rule.calls]; omega)

theorem power (ih : SameWithin ts fuel) (hpos : pos ≤ ts.length)
    (h : 16 * (ts.length - pos) + 2 ≤ fuel + 1) :
    Agrees .malformed (Positions.power ts pos) (Expr.power (fuel + 1) (ts.drop pos)) := by
  rw [Positions.power, Expr.power]
  refine (ih .primary () pos hpos (by simp only [Rule.calls]; omega)).bind ?_
  rintro ⟨base, next, hnext, hle⟩
  dsimp only
  by_cases hstar : ∃ r, ts.drop next = .symbol .doubleStar :: r
  · obtain ⟨r, hr⟩ := hstar
    rw [hr, eat?_of_drop hr]
    refine (ih.behind (by omega) hr .unary ()).bind ?_
    exact fun exponent => .found _
  · rw [eat?_eq_none fun r hr => hstar ⟨r, hr⟩]
    dsimp only
    split
    next r hr => exact absurd ⟨r, hr⟩ hstar
    next => exact .found _

theorem primary (ih : SameWithin ts fuel) (h : 16 * (ts.length - pos) + 1 ≤ fuel + 1) :
    Agrees .malformed (Positions.primary ts pos) (Expr.primary (fuel + 1) (ts.drop pos)) := by
  rw [Positions.primary, Expr.primary.eq_def]
  cases hts : ts.drop pos with
  | nil =>
      rw [take?_of_drop_eq_nil hts]
      exact .refused _
  | cons t r =>
      obtain rfl := drop_succ_of_drop_eq_cons hts
      rw [take?_of_drop_eq_cons hts]
      cases t with
      | number lexeme => exact .found _
      | string s => exact .found _
      | identifier name => exact .found _
      | keyword k =>
          cases k with
          | null => exact .found _
          | case =>
              refine (ih.behind (by omega) hts .arms ()).bind ?_
              exact fun all => .found _
          | _ => exact .refused _
      | symbol s =>
          cases s with
          | leftParen =>
              refine (ih.behind (by omega) hts .arith ()).bind ?_
              exact fun inner => agrees_expect_bind fun close => .found _
          | _ => exact .refused _

theorem arms (ih : SameWithin ts fuel) (h : 16 * (ts.length - pos) + 1 ≤ fuel + 1) :
    Agrees .malformed (firstArm ts pos) (Expr.firstArm (fuel + 1) (ts.drop pos)) := by
  rw [Expr.firstArm.eq_def]
  dsimp only
  split
  next r hts =>
    rw [firstArm, eat?_of_drop hts]
    exact (ih.behind (by omega) hts .arm ()).widen (by omega)
  next hwhen =>
    rw [firstArm, eat?_eq_none hwhen]
    exact .refused _

theorem arm (ih : SameWithin ts fuel) (hpos : pos ≤ ts.length)
    (h : 16 * (ts.length - pos) + 10 ≤ fuel + 1) :
    Agrees .malformed (Positions.arm ts pos) (Expr.arm (fuel + 1) (ts.drop pos)) := by
  rw [Positions.arm, Expr.arm]
  refine (ih .condition () pos hpos (by simp only [Rule.calls]; omega)).bind ?_
  rintro ⟨c, next₁, h₁, hle₁⟩
  refine agrees_expect_bind ?_
  rintro ⟨-, next₂, h₂, hle₂⟩
  refine (ih .arith () next₂ hle₂ (by simp only [Rule.calls]; omega)).bind ?_
  rintro ⟨value, next₃, h₃, hle₃⟩
  refine (ih .branches () next₃ hle₃ (by simp only [Rule.calls]; omega)).bind ?_
  exact fun rest => .found _

theorem branches (ih : SameWithin ts fuel) (h : 16 * (ts.length - pos) + 1 ≤ fuel + 1) :
    Agrees .malformed (Positions.branches ts pos) (Expr.branches (fuel + 1) (ts.drop pos)) := by
  rw [Expr.branches.eq_def]
  dsimp only
  split
  next r hts =>
    rw [Positions.branches, eat?_of_drop hts]
    exact (ih.behind (by omega) hts .arm ()).widen (by omega)
  next r hts =>
    rw [Positions.branches, eat?_eq_none (by simp [hts]), eat?_of_drop hts]
    refine (ih.behind (by omega) hts .arith ()).bind ?_
    exact fun value => agrees_expect_bind fun close => .found _
  next hwhen helse =>
    rw [Positions.branches, eat?_eq_none hwhen, eat?_eq_none helse]
    exact agrees_expect_bind fun close => .found _

theorem condition (ih : SameWithin ts fuel) (hpos : pos ≤ ts.length)
    (h : 16 * (ts.length - pos) + 9 ≤ fuel + 1) :
    Agrees .malformed (Positions.condition ts pos) (Expr.condition (fuel + 1) (ts.drop pos)) := by
  rw [Positions.condition, Expr.condition]
  refine (ih .conjunction () pos hpos (by simp only [Rule.calls]; omega)).bind ?_
  rintro ⟨lhs, next, hnext, hle⟩
  exact (ih.later (by omega) hnext hle .disjuncts lhs).widen hnext

theorem disjuncts (ih : SameWithin ts fuel) (lhs : Condition) (hpos : pos ≤ ts.length)
    (h : 16 * (ts.length - pos) + 1 ≤ fuel + 1) :
    Agrees .malformed (conditionTail ts lhs pos hpos)
      (Expr.conditionTail (fuel + 1) lhs (ts.drop pos)) := by
  rw [Expr.conditionTail.eq_def]
  dsimp only
  split
  next r hts =>
    rw [conditionTail, eat?_of_drop hts]
    refine (ih.behind (by omega) hts .conjunction ()).bind ?_
    rintro ⟨rhs, next, hnext, hle⟩
    exact (ih.later (by omega) (Nat.lt_of_succ_lt hnext) hle .disjuncts _).widen (by omega)
  next hor =>
    rw [conditionTail, eat?_eq_none hor]
    exact .found _

theorem conjunction (ih : SameWithin ts fuel) (hpos : pos ≤ ts.length)
    (h : 16 * (ts.length - pos) + 8 ≤ fuel + 1) :
    Agrees .malformed (Positions.conjunction ts pos)
      (Expr.conjunction (fuel + 1) (ts.drop pos)) := by
  rw [Positions.conjunction, Expr.conjunction]
  refine (ih .atom () pos hpos (by simp only [Rule.calls]; omega)).bind ?_
  rintro ⟨lhs, next, hnext, hle⟩
  exact (ih.later (by omega) hnext hle .conjuncts lhs).widen hnext

theorem conjuncts (ih : SameWithin ts fuel) (lhs : Condition) (hpos : pos ≤ ts.length)
    (h : 16 * (ts.length - pos) + 1 ≤ fuel + 1) :
    Agrees .malformed (conjunctionTail ts lhs pos hpos)
      (Expr.conjunctionTail (fuel + 1) lhs (ts.drop pos)) := by
  rw [Expr.conjunctionTail.eq_def]
  dsimp only
  split
  next r hts =>
    rw [conjunctionTail, eat?_of_drop hts]
    refine (ih.behind (by omega) hts .atom ()).bind ?_
    rintro ⟨rhs, next, hnext, hle⟩
    exact (ih.later (by omega) (Nat.lt_of_succ_lt hnext) hle .conjuncts _).widen (by omega)
  next hand =>
    rw [conjunctionTail, eat?_eq_none hand]
    exact .found _

theorem atom (ih : SameWithin ts fuel) (hpos : pos ≤ ts.length)
    (h : 16 * (ts.length - pos) + 7 ≤ fuel + 1) :
    Agrees .malformed (Positions.atom ts pos) (Expr.atom (fuel + 1) (ts.drop pos)) := by
  have hcomparison := ih .comparison () pos hpos (by simp only [Rule.calls]; omega)
  rw [Expr.atom.eq_def]
  dsimp only
  split
  next r hts =>
    rw [Positions.atom, eat?_of_drop hts]
    refine (ih.behind (by omega) hts .atom ()).bind ?_
    exact fun inner => .found _
  next r hts =>
    rw [Positions.atom, eat?_eq_none (by simp [hts]), eat?_of_drop hts, groupsCondition_eq hts]
    dsimp only
    rw [ok_bind]
    split
    next =>
      refine (ih.behind (by omega) hts .condition ()).bind ?_
      exact fun inner => agrees_expect_bind fun close => .found _
    next => exact hts ▸ hcomparison
  next hnot hparen =>
    rw [Positions.atom, eat?_eq_none hnot, eat?_eq_none hparen]
    exact hcomparison

theorem comparison (ih : SameWithin ts fuel) (hpos : pos ≤ ts.length)
    (h : 16 * (ts.length - pos) + 6 ≤ fuel + 1) :
    Agrees .malformed (Positions.comparison ts pos) (Expr.comparison (fuel + 1) (ts.drop pos)) := by
  rw [Positions.comparison, Expr.comparison]
  refine (ih .arith () pos hpos (by simp only [Rule.calls]; omega)).bind ?_
  rintro ⟨(lhs : Tree), next, hnext, hle⟩
  refine Agrees.widen ?_ (show pos + 1 ≤ next + 1 by omega)
  dsimp only
  split
  next r hr =>
    have hnot := drop_succ_of_drop_eq_cons hr
    obtain rfl := drop_succ_of_drop_eq_cons hnot
    rw [comparisonTail, eat?_of_drop hr]
    dsimp only
    rw [eat?_of_drop hnot]
    exact agrees_expect_bind fun null => .found _
  next r hnot hr =>
    obtain rfl := drop_succ_of_drop_eq_cons hr
    rw [comparisonTail, eat?_of_drop hr]
    dsimp only
    rw [eat?_eq_none hnot]
    exact agrees_expect_bind fun null => .found _
  next hr =>
    rw [comparisonTail, eat?_eq_none (by simp [hr]), take?_of_drop_eq_nil hr]
    exact .refused _
  next t r _ his hr =>
    rw [comparisonTail, eat?_eq_none (by simpa [hr] using his), take?_of_drop_eq_cons hr]
    dsimp only
    cases compareOp? t with
    | none => exact .refused _
    | some op =>
        refine (ih.behind (by omega) hr .arith ()).bind ?_
        exact fun rhs => .found _

end SameWithin

theorem sameWithin (ts : List Token) (fuel : Nat) : SameWithin ts fuel := by
  induction fuel with
  | zero =>
      intro n s pos hpos h
      have hcalls := n.calls_pos
      omega
  | succ fuel ih =>
      intro n s pos hpos h
      cases n with
      | arith => exact ih.arith hpos h
      | sums => exact ih.sums s hpos h
      | term => exact ih.term hpos h
      | products => exact ih.products s hpos h
      | unary => exact ih.unary hpos h
      | power => exact ih.power hpos h
      | primary => exact ih.primary h
      | arms => exact ih.arms h
      | arm => exact ih.arm hpos h
      | branches => exact ih.branches h
      | condition => exact ih.condition hpos h
      | disjuncts => exact ih.disjuncts s hpos h
      | conjunction => exact ih.conjunction hpos h
      | conjuncts => exact ih.conjuncts s hpos h
      | atom => exact ih.atom hpos h
      | comparison => exact ih.comparison hpos h

/-- The parser by places gives what the parser gives, of every list of tokens. -/
theorem parse_eq (ts : List Token) :
    parse ts = (Expr.parse ts).mapError fun fault => .refused (.malformed fault) := by
  rw [parse, Expr.parse]
  by_cases hempty : ts.isEmpty = true
  · rw [if_pos hempty, if_pos hempty]
    rfl
  rw [if_neg hempty, if_neg hempty]
  have hbound : 16 * (ts.length - 0) + Rule.arith.calls ≤ depthBound ts := by
    simp only [depthBound, Rule.calls]
    omega
  have harith : Agrees .malformed (arith ts 0) (Expr.arith (depthBound ts) ts) :=
    sameWithin ts (depthBound ts) .arith () 0 (Nat.zero_le _) hbound
  generalize arith ts 0 = byPlaces at harith ⊢
  generalize Expr.arith (depthBound ts) ts = byFront at harith ⊢
  cases harith with
  | refused fault => rfl
  | found x =>
      rw [ok_bind, ok_bind]
      dsimp only
      cases hr : ts.drop x.next with
      | nil =>
          rw [take?_of_drop_eq_nil hr]
          rfl
      | cons t r =>
          rw [take?_of_drop_eq_cons hr]
          rfl

end RowContract.Expr.Positions
