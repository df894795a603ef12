/-!
# Classes of characters as ranges

A class of characters that follows no rule is a table: the ranges of the code points of its members,
in ascending order, each given by its first and its last code point.
-/

namespace PocketShell.Text

/-- **Membership.** Does the code point of a character lie in one of the ranges? -/
def inRanges (ranges : List (Nat × Nat)) (c : Char) : Bool :=
  ranges.any fun range => range.1 ≤ c.toNat && c.toNat ≤ range.2

end PocketShell.Text
