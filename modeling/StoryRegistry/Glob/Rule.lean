import StoryRegistry.Glob.Alternation

/-!
# Patterns of type rules

A rule pattern is read left to right into pieces, the longest first: `**/`, `**`, `*`, `?`, and
every other character as itself. A path matches if it splits into consecutive parts, one for each
piece.
-/

set_option autoImplicit false

namespace StoryRegistry.Glob

/-- A piece of a rule pattern. -/
inductive Piece where
  /-- `**/`: nothing, or a part without line feeds that ends in a slash. -/
  | folders
  /-- `**`: a part without line feeds. -/
  | anything
  /-- `*`: a part without slashes. -/
  | star
  /-- `?`: one character that is no slash. -/
  | single
  /-- The character itself. -/
  | char (c : Char)
deriving DecidableEq

/-- The pieces of a pattern. -/
def pieces : List Char → List Piece
  | '*' :: '*' :: '/' :: rest => .folders :: pieces rest
  | '*' :: '*' :: rest => .anything :: pieces rest
  | '*' :: rest => .star :: pieces rest
  | '?' :: rest => .single :: pieces rest
  | c :: rest => .char c :: pieces rest
  | [] => []

/-- What can be left of a text after a first part made of `allowed` characters. -/
def restsWhile (allowed : Char → Bool) : List Char → List (List Char)
  | [] => [[]]
  | c :: rest => (c :: rest) :: if allowed c then restsWhile allowed rest else []

/-- What can be left of a text after a first part without line feeds that ends in a slash. -/
def restsAfterSlash : List Char → List (List Char)
  | [] => []
  | c :: rest =>
    let further := if c == '\n' then [] else restsAfterSlash rest
    if c == '/' then rest :: further else further

/-- What can be left of a text after a part for the piece. -/
def Piece.rests : Piece → List Char → List (List Char)
  | folders, s => s :: restsAfterSlash s
  | anything, s => restsWhile (· != '\n') s
  | star, s => restsWhile (· != '/') s
  | single, c :: rest => if c == '/' then [] else [rest]
  | char a, c :: rest => if c == a then [rest] else []
  | _, [] => []

/-- What can be left of the given texts after parts for all the pieces. -/
def restsAfter (ps : List Piece) (texts : List (List Char)) : List (List Char) :=
  ps.foldl (fun rests p => distinct (rests.flatMap p.rests)) texts

/-- The path splits into parts for the pieces of the pattern. -/
def ruleMatches (pattern path : String) : Bool :=
  (restsAfter (pieces pattern.toList) [path.toList]).contains []

end StoryRegistry.Glob
