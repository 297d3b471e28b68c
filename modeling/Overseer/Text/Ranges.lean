set_option autoImplicit false

/-! # Sets of code points written as ranges

A character class of the Unicode standard is a sorted list of closed ranges of code points.
The tables beside this module follow version 14 of the standard. -/

namespace Overseer.Text

/-- Membership of a character in a class given by closed ranges of code points. -/
def inRanges (ranges : List (Nat × Nat)) (c : Char) : Bool :=
  ranges.any fun r => r.1 ≤ c.toNat && c.toNat ≤ r.2

end Overseer.Text
