import RowContract.Expr.Tree.Parser

/-!
The grammar of expressions as data.  A `Phrase n` is a derivation from the rule
`n`: what is written between `CASE` and `END`, what stands to the left and to the
right of each sign, which parentheses are there.  It spells a list of tokens, and
it stands for a tree; many phrases stand for one tree, because parentheses and plus
signs leave no trace in it.

    arith     := term (('+' | '-') term)*
    term      := unary (('*' | '/' | '//' | '%') unary)*
    unary     := ('-' | '+') unary | power
    power     := primary ('**' unary)?
    primary   := NUMBER | STRING | NULL | IDENT | '(' arith ')' | case
    case      := CASE (WHEN condition THEN arith)+ (ELSE arith)? END
    condition := and (OR and)*
    and       := atom (AND atom)*
    atom      := NOT atom | '(' condition ')' | arith IS NOT? NULL | arith cmp arith

A repetition is a rule of its own, read from the left; `arms` is what follows a
`CASE` and `arm` what follows a `WHEN`.
-/

namespace RowContract.Expr

/-- The signs of sums; in front of a factor they are its signs. -/
inductive SumSign where
  | plus
  | minus
  deriving DecidableEq, Repr

inductive ProductSign where
  | star
  | slash
  | doubleSlash
  | percent
  deriving DecidableEq, Repr

def SumSign.token : SumSign → Token
  | .plus => .symbol .plus
  | .minus => .symbol .minus

def SumSign.op : SumSign → BinaryOp
  | .plus => .add
  | .minus => .sub

def SumSign.apply : SumSign → Tree → Tree
  | .plus, t => t
  | .minus, t => .neg t

def ProductSign.token : ProductSign → Token
  | .star => .symbol .star
  | .slash => .symbol .slash
  | .doubleSlash => .symbol .doubleSlash
  | .percent => .symbol .percent

def ProductSign.op : ProductSign → BinaryOp
  | .star => .mul
  | .slash => .div
  | .doubleSlash => .floorDiv
  | .percent => .mod

def CompareOp.token : CompareOp → Token
  | .eq => .symbol .eq
  | .notEq => .symbol .notEq
  | .lt => .symbol .lt
  | .le => .symbol .le
  | .gt => .symbol .gt
  | .ge => .symbol .ge

inductive Rule where
  | arith
  /-- What follows the first product of a sum. -/
  | sums
  | term
  /-- What follows the first factor of a product. -/
  | products
  | unary
  | power
  | primary
  /-- What follows a `CASE`. -/
  | arms
  /-- What follows a `WHEN`. -/
  | arm
  /-- What follows an arm. -/
  | branches
  | condition
  /-- What follows the first conjunction of a condition. -/
  | disjuncts
  | conjunction
  /-- What follows the first atom of a conjunction. -/
  | conjuncts
  | atom
  | comparison
  deriving DecidableEq, Repr

inductive Phrase : Rule → Type where
  | arith (first : Phrase .term) (rest : Phrase .sums) : Phrase .arith
  | sumsEnd : Phrase .sums
  | sumsMore (sign : SumSign) (next : Phrase .term) (rest : Phrase .sums) : Phrase .sums
  | term (first : Phrase .unary) (rest : Phrase .products) : Phrase .term
  | productsEnd : Phrase .products
  | productsMore (sign : ProductSign) (next : Phrase .unary) (rest : Phrase .products) :
      Phrase .products
  | signed (sign : SumSign) (inner : Phrase .unary) : Phrase .unary
  | unsigned (inner : Phrase .power) : Phrase .unary
  | plain (base : Phrase .primary) : Phrase .power
  | raised (base : Phrase .primary) (exponent : Phrase .unary) : Phrase .power
  | number (lexeme : String) : Phrase .primary
  | string (s : String) : Phrase .primary
  | field (name : String) : Phrase .primary
  | null : Phrase .primary
  | group (inner : Phrase .arith) : Phrase .primary
  | case (all : Phrase .arms) : Phrase .primary
  | arms (first : Phrase .arm) : Phrase .arms
  | arm (test : Phrase .condition) (value : Phrase .arith) (rest : Phrase .branches) :
      Phrase .arm
  | further (next : Phrase .arm) : Phrase .branches
  | otherwise (value : Phrase .arith) : Phrase .branches
  | done : Phrase .branches
  | condition (first : Phrase .conjunction) (rest : Phrase .disjuncts) : Phrase .condition
  | disjunctsEnd : Phrase .disjuncts
  | disjunctsMore (next : Phrase .conjunction) (rest : Phrase .disjuncts) : Phrase .disjuncts
  | conjunction (first : Phrase .atom) (rest : Phrase .conjuncts) : Phrase .conjunction
  | conjunctsEnd : Phrase .conjuncts
  | conjunctsMore (next : Phrase .atom) (rest : Phrase .conjuncts) : Phrase .conjuncts
  | not (inner : Phrase .atom) : Phrase .atom
  | grouped (inner : Phrase .condition) : Phrase .atom
  | compared (inner : Phrase .comparison) : Phrase .atom
  | compare (lhs : Phrase .arith) (op : CompareOp) (rhs : Phrase .arith) : Phrase .comparison
  | isNull (operand : Phrase .arith) (negated : Bool) : Phrase .comparison

def parenthesised (ts : List Token) : List Token :=
  .symbol .leftParen :: (ts ++ [.symbol .rightParen])

def nullTest : Bool → List Token
  | true => [.keyword .is, .keyword .not, .keyword .null]
  | false => [.keyword .is, .keyword .null]

def Phrase.tokens : {n : Rule} → Phrase n → List Token
  | _, .arith first rest => first.tokens ++ rest.tokens
  | _, .sumsEnd => []
  | _, .sumsMore sign next rest => sign.token :: (next.tokens ++ rest.tokens)
  | _, .term first rest => first.tokens ++ rest.tokens
  | _, .productsEnd => []
  | _, .productsMore sign next rest => sign.token :: (next.tokens ++ rest.tokens)
  | _, .signed sign inner => sign.token :: inner.tokens
  | _, .unsigned inner => inner.tokens
  | _, .plain base => base.tokens
  | _, .raised base exponent => base.tokens ++ .symbol .doubleStar :: exponent.tokens
  | _, .number lexeme => [.number lexeme]
  | _, .string s => [.string s]
  | _, .field name => [.identifier name]
  | _, .null => [.keyword .null]
  | _, .group inner => parenthesised inner.tokens
  | _, .case all => .keyword .case :: all.tokens
  | _, .arms first => .keyword .when :: first.tokens
  | _, .arm test value rest =>
    test.tokens ++ .keyword .then :: (value.tokens ++ rest.tokens)
  | _, .further next => .keyword .when :: next.tokens
  | _, .otherwise value => .keyword .else :: (value.tokens ++ [.keyword .end])
  | _, .done => [.keyword .end]
  | _, .condition first rest => first.tokens ++ rest.tokens
  | _, .disjunctsEnd => []
  | _, .disjunctsMore next rest => .keyword .or :: (next.tokens ++ rest.tokens)
  | _, .conjunction first rest => first.tokens ++ rest.tokens
  | _, .conjunctsEnd => []
  | _, .conjunctsMore next rest => .keyword .and :: (next.tokens ++ rest.tokens)
  | _, .not inner => .keyword .not :: inner.tokens
  | _, .grouped inner => parenthesised inner.tokens
  | _, .compared inner => inner.tokens
  | _, .compare lhs op rhs => lhs.tokens ++ op.token :: rhs.tokens
  | _, .isNull operand negated => operand.tokens ++ nullTest negated

/-! ### What a phrase stands for

A repetition stands for what it makes of the operand before it: that is what makes
sums, products, `AND` and `OR` group to the left. -/

def Rule.Seed : Rule → Type
  | .sums => Tree
  | .products => Tree
  | .disjuncts => Condition
  | .conjuncts => Condition
  | _ => Unit

def Rule.Result : Rule → Type
  | .arms => Branches
  | .arm => Branches
  | .branches => Branches
  | .condition => Condition
  | .disjuncts => Condition
  | .conjunction => Condition
  | .conjuncts => Condition
  | .atom => Condition
  | .comparison => Condition
  | _ => Tree

/-- What a phrase stands for, given the operand to its left if the rule needs one. -/
def Phrase.result : {n : Rule} → Phrase n → n.Seed → n.Result
  | _, .arith first rest, _ => rest.result (first.result ())
  | _, .sumsEnd, lhs => lhs
  | _, .sumsMore sign next rest, lhs => rest.result (.binary sign.op lhs (next.result ()))
  | _, .term first rest, _ => rest.result (first.result ())
  | _, .productsEnd, lhs => lhs
  | _, .productsMore sign next rest, lhs => rest.result (.binary sign.op lhs (next.result ()))
  | _, .signed sign inner, _ => sign.apply (inner.result ())
  | _, .unsigned inner, _ => inner.result ()
  | _, .plain base, _ => base.result ()
  | _, .raised base exponent, _ => Tree.binary .pow (base.result ()) (exponent.result ())
  | _, .number lexeme, _ => Tree.number lexeme
  | _, .string s, _ => Tree.text s
  | _, .field name, _ => Tree.field name
  | _, .null, _ => Tree.null
  | _, .group inner, _ => inner.result ()
  | _, .case all, _ => Tree.case (all.result ())
  | _, .arms first, _ => first.result ()
  | _, .arm test value rest, _ =>
    Branches.arm (test.result ()) (value.result ()) (rest.result ())
  | _, .further next, _ => next.result ()
  | _, .otherwise value, _ => Branches.otherwise (value.result ())
  | _, .done, _ => Branches.done
  | _, .condition first rest, _ => rest.result (first.result ())
  | _, .disjunctsEnd, lhs => lhs
  | _, .disjunctsMore next rest, lhs => rest.result (.or lhs (next.result ()))
  | _, .conjunction first rest, _ => rest.result (first.result ())
  | _, .conjunctsEnd, lhs => lhs
  | _, .conjunctsMore next rest, lhs => rest.result (.and lhs (next.result ()))
  | _, .not inner, _ => Condition.not (inner.result ())
  | _, .grouped inner, _ => inner.result ()
  | _, .compared inner, _ => inner.result ()
  | _, .compare lhs op rhs, _ => Condition.compare op (lhs.result ()) (rhs.result ())
  | _, .isNull operand negated, _ => Condition.isNull (operand.result ()) negated

def Phrase.tree (d : Phrase .arith) : Tree := d.result ()

end RowContract.Expr
