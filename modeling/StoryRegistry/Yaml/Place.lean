/-!
# Places in a YAML text

A place is what follows, with the line and column where it begins. Which characters end a line, a
word or a token is decided here; the end of the text ends them all.
-/

set_option autoImplicit false

namespace StoryRegistry.Yaml

/-- The character ends a line. -/
def isBreak (c : Char) : Bool :=
  c == '\n' || c == '\r' || c == '\x85' || c == '\u2028' || c == '\u2029'

/-- The line is over. -/
def endsLine (c : Option Char) : Bool :=
  match c with
  | none => true
  | some c => isBreak c

/-- A space or the end of the line. -/
def endsEntry (c : Option Char) : Bool := c == some ' ' || endsLine c

/-- A space, a tab or the end of the line. -/
def endsWord (c : Option Char) : Bool := c == some '\t' || endsEntry c

/-- The character may stand in a YAML text. -/
def isAllowed (c : Char) : Bool :=
  c == '\t' || c == '\n' || c == '\r' || (0x20 ≤ c.toNat && c.toNat ≤ 0x7E) || c == '\x85' ||
    (0xA0 ≤ c.toNat && c.toNat ≤ 0xFFFD) || 0x10000 ≤ c.toNat

/-- The character may stand in the name of an anchor, a handle or a directive. -/
def isNameChar (c : Char) : Bool := c.isAlphanum || c == '-' || c == '_'

/-- What follows at a place, and where the place is. -/
structure Place where
  rest : List Char
  index : Nat := 0
  line : Nat := 0
  column : Nat := 0
deriving Inhabited

namespace Place

/-- The character at the place. -/
def head? (p : Place) : Option Char := p.rest.head?

/-- The character `n` places on. -/
def peek? (p : Place) (n : Nat) : Option Char := p.rest[n]?

/-- The place after one character. -/
def step (p : Place) : Place :=
  match p.rest with
  | [] => p
  | c :: rest =>
    if c == '\r' && rest.head? == some '\n' then
      { p with rest := rest, index := p.index + 1, column := p.column + 1 }
    else if isBreak c then { rest := rest, index := p.index + 1, line := p.line + 1, column := 0 }
    else
      let column := if c == '\uFEFF' then p.column else p.column + 1
      { p with rest := rest, index := p.index + 1, column := column }

/-- The place after `n` characters. -/
def advance (p : Place) (n : Nat) : Place := Nat.repeat step n p

/-- The characters up to the first one that fails the test, and the place after them. -/
def span (p : Place) (test : Char → Bool) : List Char × Place :=
  let taken := p.rest.takeWhile test
  (taken, p.advance taken.length)

/-- The place after all characters that pass the test. -/
def skip (p : Place) (test : Char → Bool) : Place := (p.span test).2

/-- The place after any spaces. -/
def skipSpaces (p : Place) : Place := p.skip (· == ' ')

/-- The place at the end of the line. -/
def skipLine (p : Place) : Place := p.skip fun c => !isBreak c

/-- A line break, if there is one here: the character it is read as, and the place after it. -/
def lineBreak? (p : Place) : Option (Char × Place) :=
  match p.rest with
  | '\r' :: '\n' :: _ => some ('\n', p.advance 2)
  | c :: _ =>
    if c == '\r' || c == '\n' || c == '\x85' then some ('\n', p.step)
    else if c == '\u2028' || c == '\u2029' then some (c, p.step)
    else none
  | [] => none

/-- The place after a line break, if there is one here. -/
def skipBreak (p : Place) : Place :=
  match p.lineBreak? with
  | some (_, after) => after
  | none => p

/-- The three characters of a document marker are here, and nothing else on their word. -/
def isMarker (p : Place) (mark : Char) : Bool :=
  p.rest.take 3 == [mark, mark, mark] && endsWord (p.peek? 3)

/-- The beginning or the end of a document is marked here. -/
def isAnyMarker (p : Place) : Bool := p.isMarker '-' || p.isMarker '.'

end Place

end StoryRegistry.Yaml
