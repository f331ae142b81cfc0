import StoryRegistry.Glob.Rule
import StoryRegistry.Text.Order

/-!
# Wildcards in names

A wildcard pattern is read into pieces: `*` stands for any part of a name, `?` for any one
character, and a class `[a-z_]` for one of its characters, or with `!` in front for one that is
none of them. A bracket without an end stands for itself. Slashes play no part.
-/

set_option autoImplicit false

namespace StoryRegistry.Glob

/-- A piece of a wildcard pattern. -/
inductive Wildcard where
  /-- `*`: any part. -/
  | part
  /-- `?`: any character. -/
  | single
  /-- A class of characters, given by ranges; `negated` asks for one outside of them. -/
  | oneOf (negated : Bool) (ranges : List (Char × Char))
  /-- The character itself. -/
  | char (c : Char)
deriving DecidableEq

/-- The character lies between the ends of a range. -/
def inRange (c : Char) (range : Char × Char) : Bool :=
  Text.codeOf range.1 ≤ Text.codeOf c && Text.codeOf c ≤ Text.codeOf range.2

/-- Cuts the inside of a class at the hyphens that make ranges: a hyphen counts only if at least
`skip` characters come before it. -/
def cutRanges : Nat → List Char → List (List Char)
  | _, [] => [[]]
  | skip, c :: rest =>
    if skip == 0 && c == '-' then [] :: cutRanges 2 rest
    else
      match cutRanges (skip - 1) rest with
      | [] => [[c]]
      | chunk :: more => (c :: chunk) :: more

/-- A hyphen that ends a class belongs to the chunk before it. -/
def keepLastHyphen : List (List Char) → List (List Char)
  | [chunk, []] => [chunk ++ ['-']]
  | chunk :: rest => chunk :: keepLastHyphen rest
  | [] => []

/-- Takes out every range whose ends are in the wrong order, the last one first. -/
def dropEmptyRanges : List (List Char) → List (List Char)
  | [] => []
  | chunk :: rest =>
    match dropEmptyRanges rest with
    | [] => [chunk]
    | next :: more =>
      match chunk.getLast?, next with
      | some a, b :: after =>
        if Text.codeOf b < Text.codeOf a then (chunk.dropLast ++ after) :: more
        else chunk :: next :: more
      | _, _ => chunk :: next :: more

/-- The ranges of the chunks: one from the end of each chunk to the beginning of the next, and one
for every other character alone. `joined` tells that the first character ended a range. -/
def rangesOf (joined : Bool) : List (List Char) → List (Char × Char)
  | [] => []
  | [chunk] => (if joined then chunk.drop 1 else chunk).map fun c => (c, c)
  | chunk :: next :: rest =>
    let alone := (if joined then chunk.drop 1 else chunk).dropLast.map fun c => (c, c)
    let between :=
      match chunk.getLast?, next.head? with
      | some a, some b => [(a, b)]
      | _, _ => []
    alone ++ between ++ rangesOf true (next :: rest)

/-- The class with the given inside. -/
def classOf (inside : List Char) : Wildcard :=
  let skip := if inside.head? == some '!' then 2 else 1
  match dropEmptyRanges (keepLastHyphen (cutRanges skip inside)) with
  | ('!' :: chunk) :: rest => .oneOf true (rangesOf false (chunk :: rest))
  | chunks => .oneOf false (rangesOf false chunks)

/-- The inside of a class that has just been opened, and what follows it; none if it has no end. -/
def insideClass? (s : List Char) : Option (List Char × List Char) :=
  let mark := if s.head? == some '!' then ['!'] else []
  let s := s.drop mark.length
  let first := if s.head? == some ']' then [']'] else []
  let s := s.drop first.length
  match s.dropWhile (· != ']') with
  | _ :: rest => some (mark ++ first ++ s.takeWhile (· != ']'), rest)
  | [] => none

/-- The pieces of a wildcard pattern, given a bound on its length. -/
def wildcardsWithin : Nat → List Char → List Wildcard
  | 0, _ => []
  | _ + 1, [] => []
  | fuel + 1, c :: rest =>
    if c == '*' then .part :: wildcardsWithin fuel rest
    else if c == '?' then .single :: wildcardsWithin fuel rest
    else if c == '[' then
      match insideClass? rest with
      | some (inside, after) => classOf inside :: wildcardsWithin fuel after
      | none => .char '[' :: wildcardsWithin fuel rest
    else .char c :: wildcardsWithin fuel rest

/-- The pieces of a wildcard pattern. -/
def wildcards (pattern : String) : List Wildcard :=
  wildcardsWithin pattern.toList.length pattern.toList

/-- What can be left of a text after a part for the piece. -/
def Wildcard.rests : Wildcard → List Char → List (List Char)
  | part, s => restsWhile (fun _ => true) s
  | single, _ :: rest => [rest]
  | oneOf negated ranges, c :: rest => if ranges.any (inRange c) != negated then [rest] else []
  | char a, c :: rest => if c == a then [rest] else []
  | _, [] => []

/-- The name splits into parts for the pieces. -/
def fits (pieces : List Wildcard) (name : String) : Bool :=
  (pieces.foldl (fun rests piece => distinct (rests.flatMap piece.rests)) [name.toList]).contains []

/-- The pattern holds a character with a meaning of its own. -/
def hasWildcard (pattern : String) : Bool :=
  pattern.toList.any fun c => c == '*' || c == '?' || c == '['

end StoryRegistry.Glob
