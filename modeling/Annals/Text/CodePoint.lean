/-!
# Sets of code points

Classes of characters as lists of closed ranges of code points.
-/

namespace Annals

def liesIn (ranges : List (Nat × Nat)) (c : Char) : Bool :=
  ranges.any fun range => range.1 ≤ c.toNat && c.toNat ≤ range.2

end Annals
