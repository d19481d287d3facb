import RowContract.Expr.Fault
import RowContract.Expr.Tree

/-!
From tokens to a tree.  Sums and products group to the left, a power to the right
and tighter than a sign before it; `OR` binds weaker than `AND`, and `AND` weaker
than `NOT`.  A parenthesis at the start of a condition may open a condition or an
operand; `groupsCondition` decides by looking at the tokens up to its partner.

The functions consume tokens from the front and return the rest.  Their first
argument bounds the depth of calls, and `parse` starts with more than its tokens
can use up.
-/

namespace RowContract.Expr

def expect (wanted : Token) (ts : List Token) : Except SyntaxFault (List Token) :=
  match ts with
  | t :: r => if t = wanted then .ok r else .error (.expected wanted (some t))
  | [] => .error (.expected wanted none)

def expectKeyword (k : Keyword) (ts : List Token) : Except SyntaxFault (List Token) :=
  expect (.keyword k) ts

def sumOp? : List Token → Option (BinaryOp × List Token)
  | .symbol .plus :: r => some (.add, r)
  | .symbol .minus :: r => some (.sub, r)
  | _ => none

def productOp? : List Token → Option (BinaryOp × List Token)
  | .symbol .star :: r => some (.mul, r)
  | .symbol .slash :: r => some (.div, r)
  | .symbol .doubleSlash :: r => some (.floorDiv, r)
  | .symbol .percent :: r => some (.mod, r)
  | _ => none

def compareOp? : Token → Option CompareOp
  | .symbol .eq => some .eq
  | .symbol .notEq => some .notEq
  | .symbol .lt => some .lt
  | .symbol .le => some .le
  | .symbol .gt => some .gt
  | .symbol .ge => some .ge
  | _ => none

/-! ### Looking ahead after a parenthesis -/

/-- The tokens up to the parenthesis that closes the current group; `depth` counts the groups
opened since. -/
def group? (depth : Nat) : List Token → Option (List Token)
  | [] => none
  | t :: r =>
    if t = .symbol .leftParen then (group? (depth + 1) r).map (t :: ·)
    else if t = .symbol .rightParen then
      match depth with
      | 0 => some []
      | depth + 1 => (group? depth r).map (t :: ·)
    else (group? depth r).map (t :: ·)

/-- A token that makes a condition of the group whose level it stands at. -/
def marksCondition : Token → Bool
  | .symbol .eq => true
  | .symbol .notEq => true
  | .symbol .lt => true
  | .symbol .le => true
  | .symbol .gt => true
  | .symbol .ge => true
  | .keyword .is => true
  | .keyword .and => true
  | .keyword .or => true
  | .keyword .not => true
  | _ => false

/-- Whether such a token stands outside all inner groups and case distinctions. -/
def hasMark (parens cases : Nat) : List Token → Bool
  | [] => false
  | t :: r =>
    if t = .symbol .leftParen then hasMark (parens + 1) cases r
    else if t = .symbol .rightParen then hasMark (parens - 1) cases r
    else if t = .keyword .case then hasMark parens (cases + 1) r
    else if t = .keyword .end then hasMark parens (cases - 1) r
    else if parens = 0 ∧ cases = 0 ∧ marksCondition t then true
    else hasMark parens cases r

/-- The inside of a group that is nothing but a group in parentheses. -/
def unwrap? : List Token → Option (List Token)
  | .symbol .leftParen :: r =>
    match group? 0 r with
    | some inner => if inner.length + 1 = r.length then some inner else none
    | none => none
  | _ => none

/-- Whether the tokens within a group are a condition; parentheses around all of them do not
matter. -/
def isConditionGroup (fuel : Nat) (inner : List Token) : Bool :=
  match fuel with
  | 0 => hasMark 0 0 inner
  | fuel + 1 =>
    match unwrap? inner with
    | some inside => isConditionGroup fuel inside
    | none => hasMark 0 0 inner

/-- Whether the tokens after an opening parenthesis group a condition, not an operand. -/
def groupsCondition (ts : List Token) : Bool :=
  match group? 0 ts with
  | some inner => isConditionGroup inner.length inner
  | none => false

/-! ### The parser -/

mutual

/-- Products, with sums and differences of them. -/
def arith (fuel : Nat) (ts : List Token) : Except SyntaxFault (Tree × List Token) :=
  match fuel with
  | 0 => .error .nestingLimit
  | fuel + 1 => do
    let (lhs, r) ← term fuel ts
    arithTail fuel lhs r

def arithTail (fuel : Nat) (lhs : Tree) (ts : List Token) :
    Except SyntaxFault (Tree × List Token) :=
  match fuel with
  | 0 => .error .nestingLimit
  | fuel + 1 =>
    match sumOp? ts with
    | some (op, r) => do
      let (rhs, r) ← term fuel r
      arithTail fuel (.binary op lhs rhs) r
    | none => .ok (lhs, ts)

/-- Signed powers, with products and quotients of them. -/
def term (fuel : Nat) (ts : List Token) : Except SyntaxFault (Tree × List Token) :=
  match fuel with
  | 0 => .error .nestingLimit
  | fuel + 1 => do
    let (lhs, r) ← unary fuel ts
    termTail fuel lhs r

def termTail (fuel : Nat) (lhs : Tree) (ts : List Token) :
    Except SyntaxFault (Tree × List Token) :=
  match fuel with
  | 0 => .error .nestingLimit
  | fuel + 1 =>
    match productOp? ts with
    | some (op, r) => do
      let (rhs, r) ← unary fuel r
      termTail fuel (.binary op lhs rhs) r
    | none => .ok (lhs, ts)

/-- A power with signs before it; a plus sign leaves no trace. -/
def unary (fuel : Nat) (ts : List Token) : Except SyntaxFault (Tree × List Token) :=
  match fuel with
  | 0 => .error .nestingLimit
  | fuel + 1 =>
    match ts with
    | .symbol .minus :: r => do
      let (inner, r) ← unary fuel r
      .ok (.neg inner, r)
    | .symbol .plus :: r => unary fuel r
    | ts => power fuel ts

/-- An operand, perhaps raised to a power that may have a sign of its own. -/
def power (fuel : Nat) (ts : List Token) : Except SyntaxFault (Tree × List Token) :=
  match fuel with
  | 0 => .error .nestingLimit
  | fuel + 1 => do
    let (base, r) ← primary fuel ts
    match r with
    | .symbol .doubleStar :: r => do
      let (exponent, r) ← unary fuel r
      .ok (.binary .pow base exponent, r)
    | r => .ok (base, r)

def primary (fuel : Nat) (ts : List Token) : Except SyntaxFault (Tree × List Token) :=
  match fuel with
  | 0 => .error .nestingLimit
  | fuel + 1 =>
    match ts with
    | [] => .error .unexpectedEnd
    | .number lexeme :: r => .ok (.number lexeme, r)
    | .string s :: r => .ok (.text s, r)
    | .identifier name :: r => .ok (.field name, r)
    | .keyword .null :: r => .ok (.null, r)
    | .keyword .case :: r => do
      let (branches, r) ← firstArm fuel r
      .ok (.case branches, r)
    | .symbol .leftParen :: r => do
      let (inner, r) ← arith fuel r
      let r ← expect (.symbol .rightParen) r
      .ok (inner, r)
    | t :: _ => .error (.unexpected t)

/-- The arms of a case distinction, of which there has to be one. -/
def firstArm (fuel : Nat) (ts : List Token) : Except SyntaxFault (Branches × List Token) :=
  match fuel with
  | 0 => .error .nestingLimit
  | fuel + 1 =>
    match ts with
    | .keyword .when :: r => arm fuel r
    | _ => .error .missingWhen

/-- An arm after its first word, and what follows it. -/
def arm (fuel : Nat) (ts : List Token) : Except SyntaxFault (Branches × List Token) :=
  match fuel with
  | 0 => .error .nestingLimit
  | fuel + 1 => do
    let (c, r) ← condition fuel ts
    let r ← expectKeyword .then r
    let (value, r) ← arith fuel r
    let (rest, r) ← branches fuel r
    .ok (.arm c value rest, r)

/-- A further arm, or the end of the case distinction. -/
def branches (fuel : Nat) (ts : List Token) : Except SyntaxFault (Branches × List Token) :=
  match fuel with
  | 0 => .error .nestingLimit
  | fuel + 1 =>
    match ts with
    | .keyword .when :: r => arm fuel r
    | .keyword .else :: r => do
      let (value, r) ← arith fuel r
      let r ← expectKeyword .end r
      .ok (.otherwise value, r)
    | ts => do
      let r ← expectKeyword .end ts
      .ok (.done, r)

/-- Conjunctions joined by `OR`. -/
def condition (fuel : Nat) (ts : List Token) : Except SyntaxFault (Condition × List Token) :=
  match fuel with
  | 0 => .error .nestingLimit
  | fuel + 1 => do
    let (lhs, r) ← conjunction fuel ts
    conditionTail fuel lhs r

def conditionTail (fuel : Nat) (lhs : Condition) (ts : List Token) :
    Except SyntaxFault (Condition × List Token) :=
  match fuel with
  | 0 => .error .nestingLimit
  | fuel + 1 =>
    match ts with
    | .keyword .or :: r => do
      let (rhs, r) ← conjunction fuel r
      conditionTail fuel (.or lhs rhs) r
    | ts => .ok (lhs, ts)

/-- Atoms joined by `AND`. -/
def conjunction (fuel : Nat) (ts : List Token) : Except SyntaxFault (Condition × List Token) :=
  match fuel with
  | 0 => .error .nestingLimit
  | fuel + 1 => do
    let (lhs, r) ← atom fuel ts
    conjunctionTail fuel lhs r

def conjunctionTail (fuel : Nat) (lhs : Condition) (ts : List Token) :
    Except SyntaxFault (Condition × List Token) :=
  match fuel with
  | 0 => .error .nestingLimit
  | fuel + 1 =>
    match ts with
    | .keyword .and :: r => do
      let (rhs, r) ← atom fuel r
      conjunctionTail fuel (.and lhs rhs) r
    | ts => .ok (lhs, ts)

/-- A negated atom, a condition in parentheses, or a comparison. -/
def atom (fuel : Nat) (ts : List Token) : Except SyntaxFault (Condition × List Token) :=
  match fuel with
  | 0 => .error .nestingLimit
  | fuel + 1 =>
    match ts with
    | .keyword .not :: r => do
      let (inner, r) ← atom fuel r
      .ok (.not inner, r)
    | .symbol .leftParen :: r =>
      if groupsCondition r then do
        let (inner, r) ← condition fuel r
        let r ← expect (.symbol .rightParen) r
        .ok (inner, r)
      else comparison fuel (.symbol .leftParen :: r)
    | ts => comparison fuel ts

/-- Two operands and a comparison between them, or a test for a missing value. -/
def comparison (fuel : Nat) (ts : List Token) : Except SyntaxFault (Condition × List Token) :=
  match fuel with
  | 0 => .error .nestingLimit
  | fuel + 1 => do
    let (lhs, r) ← arith fuel ts
    match r with
    | .keyword .is :: .keyword .not :: r => do
      let r ← expectKeyword .null r
      .ok (.isNull lhs true, r)
    | .keyword .is :: r => do
      let r ← expectKeyword .null r
      .ok (.isNull lhs false, r)
    | [] => .error (.missingComparison none)
    | t :: r =>
      match compareOp? t with
      | some op => do
        let (rhs, r) ← arith fuel r
        .ok (.compare op lhs rhs, r)
      | none => .error (.missingComparison (some t))

end

/-- A bound on the depth of calls: between two tokens consumed lie fewer than sixteen calls. -/
def depthBound (ts : List Token) : Nat := 16 * (ts.length + 1)

/-- The tree of a list of tokens, all of which it has to use. -/
def parse (ts : List Token) : Except SyntaxFault Tree :=
  if ts.isEmpty then .error .emptyExpression
  else do
    let (tree, r) ← arith (depthBound ts) ts
    match r with
    | [] => .ok tree
    | t :: _ => .error (.unexpected t)

end RowContract.Expr
