/-
Sets of characters.

A set is a list of closed ranges of code points.  A table of a character property is written
this way, in ascending order.
-/

namespace ClassGraft.Text

/-- Code points in closed ranges: the first and the last of each. -/
abbrev Ranges := List (Nat × Nat)

namespace Ranges

/-- Whether a code point lies in one of the ranges. -/
def has (ranges : Ranges) (code : Nat) : Bool :=
  ranges.any fun (first, last) => first ≤ code && code ≤ last

end Ranges

end ClassGraft.Text
