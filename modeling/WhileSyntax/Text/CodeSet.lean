namespace WhileSyntax.Text

/-! # Sets of characters

A set of code points is kept as an inversion list: the ascending list of the points at which
membership changes, starting from "outside". `[0x30, 0x3A]` is the set of the ASCII digits.
-/

/-- A set of code points, written as the points at which membership changes. -/
structure CodeSet where
  /-- The points in ascending order, the first one being the least member. -/
  boundaries : List Nat

namespace CodeSet

/-- Reads off membership of `n` from the boundaries that are left, when `inside` holds just
before the first of them. -/
def walk (n : Nat) : Bool → List Nat → Bool
  | inside, [] => inside
  | inside, b :: bs => if n < b then inside else walk n (!inside) bs

def contains (s : CodeSet) (c : Char) : Bool :=
  walk c.toNat false s.boundaries

end CodeSet

end WhileSyntax.Text
