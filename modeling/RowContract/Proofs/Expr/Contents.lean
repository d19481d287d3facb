import RowContract.Proofs.Expr.Parser

/-!
What a tree keeps of its tokens.  Signs, parentheses and words give an expression its form, and the
form is all that the parser makes of them.  The names, numbers and texts among the tokens, and the
comparisons, are in the tree again: each of them once, in the order of writing, and no other.
-/

namespace RowContract.Expr

/-- A token that stands for itself in a tree: an operand that is spelled out, or a comparison. -/
def Token.isContent : Token → Bool
  | .identifier _ => true
  | .number _ => true
  | .string _ => true
  | .keyword _ => false
  | .symbol s => (compareOp? (.symbol s)).isSome

/-- The tokens that stand for themselves, in the order of writing. -/
def contents (ts : List Token) : List Token := ts.filter Token.isContent

mutual

/-- The operands and comparisons of an expression as tokens, in the order of writing. -/
def Tree.contents : Tree → List Token
  | .number lexeme => [.number lexeme]
  | .text s => [.string s]
  | .null => []
  | .field name => [.identifier name]
  | .neg inner => inner.contents
  | .binary _ lhs rhs => lhs.contents ++ rhs.contents
  | .case branches => branches.contents

def Branches.contents : Branches → List Token
  | .arm condition value rest => condition.contents ++ value.contents ++ rest.contents
  | .otherwise value => value.contents
  | .done => []

def Condition.contents : Condition → List Token
  | .compare op lhs rhs => lhs.contents ++ op.token :: rhs.contents
  | .isNull operand _ => operand.contents
  | .not inner => inner.contents
  | .and a b => a.contents ++ b.contents
  | .or a b => a.contents ++ b.contents

end

/-! ### Lists of tokens -/

@[simp] theorem contents_append (ts more : List Token) :
    contents (ts ++ more) = contents ts ++ contents more :=
  List.filter_append ..

@[simp] theorem contents_sumSign (sign : SumSign) (ts : List Token) :
    contents (sign.token :: ts) = contents ts := by cases sign <;> rfl

@[simp] theorem contents_productSign (sign : ProductSign) (ts : List Token) :
    contents (sign.token :: ts) = contents ts := by cases sign <;> rfl

@[simp] theorem contents_compareOp (op : CompareOp) (ts : List Token) :
    contents (op.token :: ts) = op.token :: contents ts := by cases op <;> rfl

@[simp] theorem contents_nullTest (negated : Bool) : contents (nullTest negated) = [] := by
  cases negated <;> rfl

@[simp] theorem contents_parenthesised (ts : List Token) :
    contents (parenthesised ts) = contents ts := by
  have hopen (ts : List Token) : contents (.symbol .leftParen :: ts) = contents ts := rfl
  rw [parenthesised, hopen, contents_append]
  exact List.append_nil _

/-! ### Phrases -/

@[simp] theorem SumSign.contents_apply (sign : SumSign) (t : Tree) :
    (sign.apply t).contents = t.contents := by
  cases sign <;> rfl

def Rule.seedContents : (n : Rule) → n.Seed → List Token
  | .sums, lhs => Tree.contents lhs
  | .products, lhs => Tree.contents lhs
  | .disjuncts, lhs => Condition.contents lhs
  | .conjuncts, lhs => Condition.contents lhs
  | _, _ => []

def Rule.resultContents : (n : Rule) → n.Result → List Token
  | .arith, t => Tree.contents t
  | .sums, t => Tree.contents t
  | .term, t => Tree.contents t
  | .products, t => Tree.contents t
  | .unary, t => Tree.contents t
  | .power, t => Tree.contents t
  | .primary, t => Tree.contents t
  | .arms, b => Branches.contents b
  | .arm, b => Branches.contents b
  | .branches, b => Branches.contents b
  | .condition, c => Condition.contents c
  | .disjuncts, c => Condition.contents c
  | .conjunction, c => Condition.contents c
  | .conjuncts, c => Condition.contents c
  | .atom, c => Condition.contents c
  | .comparison, c => Condition.contents c

theorem eq_contents_append {all left a b : List Token} (hall : all = left ++ contents b)
    (hleft : left = contents a) : all = contents (a ++ b) := by
  rw [hall, hleft, contents_append]

theorem eq_append_contents_append {all left next a b : List Token}
    (hall : all = left ++ next ++ contents b) (hnext : next = contents a) :
    all = left ++ contents (a ++ b) := by
  rw [hall, hnext, contents_append, List.append_assoc]

/-- A phrase adds the contents of its tokens to those on its left; none is lost and none comes
in. -/
theorem Phrase.resultContents_result {n : Rule} (d : Phrase n) :
    ∀ s : n.Seed, n.resultContents (d.result s) = n.seedContents s ++ contents d.tokens := by
  induction d with
  | arith _ _ hfirst hrest => exact fun _ => eq_contents_append (hrest _) (hfirst ())
  | sumsEnd => exact fun _ => (List.append_nil _).symm
  | sumsMore sign _ _ hnext hrest =>
      intro lhs
      rw [Phrase.tokens, contents_sumSign]
      exact eq_append_contents_append (hrest _) (hnext ())
  | term _ _ hfirst hrest => exact fun _ => eq_contents_append (hrest _) (hfirst ())
  | productsEnd => exact fun _ => (List.append_nil _).symm
  | productsMore sign _ _ hnext hrest =>
      intro lhs
      rw [Phrase.tokens, contents_productSign]
      exact eq_append_contents_append (hrest _) (hnext ())
  | signed sign _ hinner =>
      intro _
      rw [Phrase.tokens, contents_sumSign]
      exact (sign.contents_apply _).trans (hinner ())
  | unsigned _ hinner => exact hinner
  | plain _ hbase => exact hbase
  | raised _ _ hbase hexponent =>
      exact fun _ => eq_contents_append (congrArg (_ ++ ·) (hexponent ())) (hbase ())
  | number => exact fun _ => rfl
  | string => exact fun _ => rfl
  | field => exact fun _ => rfl
  | null => exact fun _ => rfl
  | group _ hinner => exact fun _ => (hinner ()).trans (contents_parenthesised _).symm
  | case _ hall => exact hall
  | arms _ hfirst => exact hfirst
  | arm _ _ _ htest hvalue hrest =>
      intro _
      refine eq_contents_append ?_ (htest ())
      exact (List.append_assoc ..).trans
        (congrArg (_ ++ ·) (eq_contents_append (congrArg (_ ++ ·) (hrest ())) (hvalue ())))
  | further _ hnext => exact hnext
  | otherwise _ hvalue =>
      exact fun _ => eq_contents_append (List.append_nil _).symm (hvalue ())
  | done => exact fun _ => rfl
  | condition _ _ hfirst hrest => exact fun _ => eq_contents_append (hrest _) (hfirst ())
  | disjunctsEnd => exact fun _ => (List.append_nil _).symm
  | disjunctsMore _ _ hnext hrest =>
      exact fun _ => eq_append_contents_append (hrest _) (hnext ())
  | conjunction _ _ hfirst hrest => exact fun _ => eq_contents_append (hrest _) (hfirst ())
  | conjunctsEnd => exact fun _ => (List.append_nil _).symm
  | conjunctsMore _ _ hnext hrest =>
      exact fun _ => eq_append_contents_append (hrest _) (hnext ())
  | not _ hinner => exact hinner
  | grouped _ hinner => exact fun _ => (hinner ()).trans (contents_parenthesised _).symm
  | compared _ hinner => exact hinner
  | compare _ op _ hlhs hrhs =>
      intro _
      refine eq_contents_append ?_ (hlhs ())
      rw [contents_compareOp]
      exact congrArg (_ ++ op.token :: ·) (hrhs ())
  | isNull _ negated hoperand =>
      intro _
      refine eq_contents_append ?_ (hoperand ())
      rw [contents_nullTest]
      exact (List.append_nil _).symm

/-- The contents of a tree are those of the tokens that it is made of. -/
theorem contents_of_parse {ts : List Token} {root : Tree} (h : parse ts = .ok root) :
    root.contents = contents ts := by
  obtain ⟨d, rfl, rfl⟩ := tokens_of_parse h
  exact d.resultContents_result ()

end RowContract.Expr
