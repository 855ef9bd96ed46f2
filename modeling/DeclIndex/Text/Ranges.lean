/-!
# Sets of characters given by ranges of code points

A character class of a standard is a list of closed ranges in increasing order. The order lets a
search stop at the first range that begins above the character, which for the common characters
is one of the first few.
-/

namespace DeclIndex.Text

/-- Closed ranges of code points, in increasing order and apart from each other. -/
abbrev Ranges := List (Nat × Nat)

namespace Ranges

/-- The character lies in one of the ranges. -/
def contains : Ranges → Char → Bool
  | [], _ => false
  | (first, last) :: rest, c =>
    if c.toNat < first then false
    else if c.toNat ≤ last then true
    else contains rest c

end Ranges

end DeclIndex.Text
