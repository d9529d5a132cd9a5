/-
# Sets of characters as ranges of code points

A character class is written down as the list of its maximal ranges of code points, in
increasing order.  Membership reads the list from the front and stops at the first range that
begins behind the code point it looks for.
-/

namespace FlatScript

/-- A set of code points: its ranges, both ends included. -/
abbrev CodeRanges := List (Nat × Nat)

namespace CodeRanges

/-- Whether a code point lies in one of the ranges. -/
def holds : CodeRanges → Nat → Bool
  | [], _ => false
  | (first, last) :: ranges, n =>
    if n < first then false else if n ≤ last then true else holds ranges n

/-- Whether a character lies in one of the ranges. -/
def contains (ranges : CodeRanges) (c : Char) : Bool :=
  ranges.holds c.toNat

end CodeRanges

end FlatScript
