import StoryRegistry.Text.Split

/-!
# Alternations in patterns

A pattern may hold groups `@(a|b)` and `{a,b}`. Expanding it picks one choice of each group in every way;
groups of the first kind go first, and inside nested groups the innermost goes first.
-/

set_option autoImplicit false

namespace StoryRegistry.Glob

open StoryRegistry.Text

/-- The first occurrence of each element. -/
def distinct {α : Type} [BEq α] : List α → List α
  | [] => []
  | x :: rest => x :: (distinct rest).filter (fun y => !(y == x))

/-- A kind of group: how it opens and closes, and what stands between its choices. -/
structure Group where
  start : List Char
  bracket : Char
  finish : Char
  separator : Char

/-- Choices between `@(` and `)`. -/
def Group.parens : Group := ⟨['@'], '(', ')', '|'⟩

/-- Choices between braces. -/
def Group.braces : Group := ⟨[], '\x7b', '\x7d', ','⟩

/-- A group at the very front that holds no bracket of its kind: its inside, and what follows. -/
def Group.front? (g : Group) (s : List Char) : Option (List Char × List Char) :=
  match dropStart? (g.start ++ [g.bracket]) s with
  | none => none
  | some rest =>
    let isInner (c : Char) : Bool := c != g.bracket && c != g.finish
    match rest.dropWhile isInner with
    | c :: after => if c = g.finish then some (rest.takeWhile isInner, after) else none
    | [] => none

/-- The first group that holds no bracket of its kind: what is before, inside and after it. -/
def Group.first? (g : Group) : List Char → Option (List Char × List Char × List Char)
  | [] => none
  | c :: rest =>
    match g.front? (c :: rest) with
    | some (inside, after) => some ([], inside, after)
    | none => (g.first? rest).map fun (before, inside, after) => (c :: before, inside, after)

/-- The patterns in which the next group is replaced by each of its choices; none if there is no
group left. -/
def choices? (s : List Char) : Option (List (List Char)) :=
  let pick (g : Group) : Option (List (List Char)) :=
    (g.first? s).map fun (before, inside, after) =>
      (splitOn g.separator inside).map fun choice => before ++ choice ++ after
  match pick Group.parens with
  | some found => some found
  | none => pick Group.braces

/-- The number of opening brackets, which each replacement lowers by one. -/
def openings (s : List Char) : Nat := s.countP fun c => c == '(' || c == '\x7b'

/-- The plain patterns of a pattern, given a bound on its opening brackets. -/
def expandWithin : Nat → List Char → List (List Char)
  | 0, s => [s]
  | fuel + 1, s =>
    match choices? s with
    | none => [s]
    | some found => distinct (found.flatMap (expandWithin fuel))

/-- The plain patterns that a pattern stands for, each once. -/
def expand (pattern : String) : List String :=
  (expandWithin (openings pattern.toList) pattern.toList).map String.ofList

end StoryRegistry.Glob
