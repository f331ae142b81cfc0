/-!
# Character classes as ranges

A character class of the Unicode standard is a list of closed ranges of scalar values. The modules
beside this one hold the lists; this one says what it means for a character to belong to one.
-/

set_option autoImplicit false

namespace StoryRegistry.Text

/-- The character's scalar value lies in one of the closed ranges. -/
def inRanges (ranges : List (Nat × Nat)) (c : Char) : Bool :=
  ranges.any fun r => r.1 ≤ c.toNat && c.toNat ≤ r.2

end StoryRegistry.Text
