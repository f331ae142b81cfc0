/-!
# Lone surrogates

An escape in a story can name a surrogate, a code point that no Unicode text may hold. Such a code
point is carried as the private-use character of plane 16 with the same low sixteen bits. A text
that holds one can be compared, cut and shown, but it has no UTF-8 form and cannot be written to a
file.
-/

set_option autoImplicit false

namespace StoryRegistry.Text

/-- The character that carries a surrogate code point. -/
def carrySurrogate (code : Nat) : Char := Char.ofNat (0x100000 + code)

/-- The surrogate code point that a character carries. -/
def surrogate? (c : Char) : Option Nat :=
  if 0x10D800 ≤ c.toNat && c.toNat ≤ 0x10DFFF then some (c.toNat - 0x100000) else none

/-- The text has a UTF-8 form. -/
def isWritable (s : String) : Bool := s.toList.all fun c => (surrogate? c).isNone

/-- The character with a code point; a surrogate is carried, and beyond Unicode there is none. -/
def charOfCode? (code : Nat) : Option Char :=
  if 0x10FFFF < code then none
  else if 0xD800 ≤ code && code ≤ 0xDFFF then some (carrySurrogate code)
  else some (Char.ofNat code)

end StoryRegistry.Text
