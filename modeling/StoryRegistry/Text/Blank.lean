import StoryRegistry.Text.Ranges

/-!
# Blank characters

The characters that separate words: the white space of Unicode together with the four information
separators U+001C to U+001F. Trimming and the collapsing of separators both use this class.
-/

set_option autoImplicit false

namespace StoryRegistry.Text

/-- Ranges of the blank characters. -/
def blankRanges : List (Nat × Nat) := [
  (0x9, 0xD), (0x1C, 0x20), (0x85, 0x85), (0xA0, 0xA0), (0x1680, 0x1680), (0x2000, 0x200A),
  (0x2028, 0x2029), (0x202F, 0x202F), (0x205F, 0x205F), (0x3000, 0x3000)]

/-- White space in the Unicode sense, or an information separator. -/
def isBlank (c : Char) : Bool := inRanges blankRanges c

/-- The text without the blank characters at both ends. -/
def trim (s : List Char) : List Char :=
  ((s.dropWhile isBlank).reverse.dropWhile isBlank).reverse

/-- Every white-space character of the ASCII range is blank. -/
theorem isBlank_of_isWhitespace {c : Char} (h : c.isWhitespace = true) : isBlank c = true := by
  simp only [Char.isWhitespace, Bool.or_eq_true, decide_eq_true_eq] at h
  rcases h with ((h | h) | h) | h <;> subst h <;> decide

end StoryRegistry.Text
