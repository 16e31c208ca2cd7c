/-!
# Ranges of code points

A property of characters is given by the ranges of code points that have it, in
increasing order.
-/

namespace EagerLambda

/-- First and last code point of each range. -/
abbrev Ranges := List (Nat × Nat)

/-- Whether a code point lies in one of the ranges. Nothing is looked at beyond
the first range that starts after it. -/
def Ranges.contain (ranges : Ranges) (n : Nat) : Bool :=
  match ranges with
  | [] => false
  | (first, last) :: ranges => first ≤ n && (n ≤ last || Ranges.contain ranges n)

end EagerLambda
