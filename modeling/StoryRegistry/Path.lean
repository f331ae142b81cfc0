import StoryRegistry.Text.Split

/-!
# Paths

A path is a list of segments under a number of leading slashes. Two slashes at the start are kept
apart from one; three or more count as one. Empty segments and `.` never matter. The segment `..`
is kept by joining, and is resolved only by `Path.normal`, which takes it lexically: it cancels the
segment before it.
-/

set_option autoImplicit false

namespace StoryRegistry

/-- A path: how many slashes it begins with (none, one or two), and its segments. -/
structure Path where
  slashes : Nat
  segments : List String
deriving DecidableEq, Inhabited

namespace Path

open StoryRegistry.Text

/-- The number of leading slashes that count. -/
def leadingSlashes : List Char → Nat
  | '/' :: '/' :: '/' :: _ => 1
  | '/' :: '/' :: _ => 2
  | '/' :: _ => 1
  | _ => 0

/-- The path a text denotes, with the idle segments left out. -/
def ofString (s : String) : Path where
  slashes := leadingSlashes s.toList
  segments := (parts '/' s).filter fun segment => segment != "" && segment != "."

/-- The text of a path; the empty relative path is written `.`. -/
def toText (p : Path) : String :=
  if p.slashes == 0 && p.segments.isEmpty then "."
  else String.ofList (List.replicate p.slashes '/') ++ "/".intercalate p.segments

/-- The path begins at the root. -/
def isAbsolute (p : Path) : Bool := p.slashes != 0

/-- `q` taken from the directory `p`; an absolute `q` stands for itself. -/
def join (p q : Path) : Path :=
  if q.isAbsolute then q else { p with segments := p.segments ++ q.segments }

/-- The entry with the given text below the directory. -/
def child (p : Path) (text : String) : Path := p.join (ofString text)

/-- The directory that holds the entry. -/
def parent (p : Path) : Path := { p with segments := p.segments.dropLast }

/-- Every directory above the path, the nearest first. -/
def ancestors (p : Path) : List Path :=
  (List.range p.segments.length).reverse.map fun n => { p with segments := p.segments.take n }

/-- The last segment. -/
def name (p : Path) : String := p.segments.getLastD ""

/-- A file name cut before its last dot, and the ending with its dot; a dot at either end of the
name cuts nothing. -/
def cutSuffix (name : String) : String × String :=
  let reversed := name.toList.reverse
  let ending := reversed.takeWhile (· != '.')
  match reversed.dropWhile (· != '.') with
  | _ :: stem =>
    if ending.isEmpty || stem.isEmpty then (name, "")
    else (String.ofList stem.reverse, String.ofList ('.' :: ending.reverse))
  | [] => (name, "")

/-- The last segment without its ending. -/
def stem (p : Path) : String := (cutSuffix p.name).1

/-- The ending of the last segment, with its dot. -/
def suffix (p : Path) : String := (cutSuffix p.name).2

/-- Takes one segment into account, the stack holding the last one first: `..` cancels the segment before
it, stays where there is none, and vanishes at the root. -/
def pushSegment (absolute : Bool) (stack : List String) (segment : String) : List String :=
  if segment != ".." then segment :: stack
  else
    match stack with
    | [] => if absolute then [] else [segment]
    | top :: rest => if top == ".." then segment :: stack else rest

/-- The path with every `..` resolved lexically. -/
def normal (p : Path) : Path :=
  { p with segments := (p.segments.foldl (pushSegment p.isAbsolute) []).reverse }

/-- The normal form of a path text, with backslashes read as slashes; the empty text stays empty. -/
def normalize (s : String) : String :=
  if s.isEmpty then s
  else (ofString (s.map fun c => if c == '\\' then '/' else c)).normal.toText

/-- The place a path denotes when `here` is the current directory. -/
def resolve (here p : Path) : Path :=
  let placed := (here.join p).normal
  { placed with slashes := 1 }

/-- What two lists have in front, and what is left of each. -/
def dropCommon : List String → List String → List String × List String
  | a :: as, b :: bs => if a == b then dropCommon as bs else (a :: as, b :: bs)
  | as, bs => (as, bs)

/-- The way from the absolute directory `start` to the absolute path `p`. -/
def relativeTo (p start : Path) : String :=
  let (down, up) := dropCommon p.normal.segments start.normal.segments
  toText { slashes := 0, segments := up.map (fun _ => "..") ++ down }

/-- What follows the directory `root` in the path text, or the whole text if it lies elsewhere. -/
def below (root path : String) : String :=
  match dropStart? (root ++ "/").toList path.toList with
  | some rest => String.ofList rest
  | none => path

end Path

end StoryRegistry
