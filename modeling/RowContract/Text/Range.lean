/-!
Classes of characters given as ranges of code points, in ascending order.
-/

namespace RowContract.Text

def inRanges (ranges : List (Nat × Nat)) (c : Char) : Bool :=
  ranges.any fun r => r.1 ≤ c.toNat && c.toNat ≤ r.2

def ascending : List (Nat × Nat) → Bool
  | r :: s :: rest => r.1 ≤ r.2 && r.2 < s.1 && ascending (s :: rest)
  | [r] => r.1 ≤ r.2
  | [] => true

end RowContract.Text
