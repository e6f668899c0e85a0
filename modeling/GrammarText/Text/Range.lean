/-!
# Ranges of code points

A character class of a standard is a table of inclusive ranges of code points.  `Range.holds` is membership in
one range and `inRanges` membership in a table.
-/

namespace GrammarText.Text

/-- The code points from `first` to `last`, both included. -/
structure Range where
  first : Nat
  last : Nat

/-- Tells whether a character's code point lies in a range. -/
def Range.holds (r : Range) (c : Char) : Bool :=
  decide (r.first ≤ c.toNat) && decide (c.toNat ≤ r.last)

/-- Tells whether a character's code point lies in one of the ranges. -/
def inRanges (rs : List Range) (c : Char) : Bool :=
  rs.any fun r => r.holds c

end GrammarText.Text
