import StoryRegistry.Double
import StoryRegistry.Failure
import StoryRegistry.Registry.ItemType

/-!
# Complexity and the type it suggests

A component's size score weighs its files, lines, dependencies, props and stories, and lies between
0 and 100. It is computed in binary64 numbers, so that there is none if a count lies beyond that format.
Together with the paths of the files it suggests a registry type.
-/

set_option autoImplicit false

namespace StoryRegistry

/-- How much a component consists of. -/
structure Counts where
  files : Int
  lines : Int
  dependencies : Int
  props : Int
  stories : Int
deriving DecidableEq, Inhabited

namespace Counts

/-- Lines beyond this number do not count. -/
def mostLines : Int := 1000

/-- The number of the binary64 format nearest to a quotient, unless that lies beyond the format. -/
def quotient (n : Int) (den : Nat) : Except Failure Double :=
  match Double.ofRatio (n < 0) n.natAbs den with
  | .infinite _ => .error .tooLarge
  | x => .ok x

/-- The weighted size as a number of the binary64 format, summed up from left to right: a file counts
ten, a line a tenth, a dependency five, a prop two, a story three. -/
def weight (c : Counts) : Except Failure Double := do
  let files ← quotient (10 * c.files) 1
  let lines ← quotient (min c.lines mostLines) 10
  let dependencies ← quotient (5 * c.dependencies) 1
  let props ← quotient (2 * c.props) 1
  let stories ← quotient (3 * c.stories) 1
  return (((files.add lines).add dependencies).add props).add stories

/-- One half. -/
def half : Double := .ofRatio false 1 2

/-- The weighted size clamped to the range from 0 to 100, a half rounded up. -/
def score (c : Counts) : Except Failure Int := do
  let weight ← c.weight
  match (((weight.atLeast 0).atMost 100).add half).floor? with
  | some n => return n
  | none => throw .tooLarge

end Counts

namespace ItemType

/-- The rests of a path from the beginning of each segment on. -/
def segmentStarts (path : List Char) : List (List Char) :=
  path :: inner path
where
  /-- The rests after each slash. -/
  inner : List Char → List (List Char)
    | [] => []
    | c :: rest => if c == '/' then rest :: inner rest else inner rest

/-- Nothing follows but an optional line feed. -/
def isOver (s : List Char) : Bool := s == [] || s == ['\n']

/-- A segment of the path is one of the names, up to a slash, the end, or one of `ends`. -/
def hasSegment (names : List String) (ends : List Char) (path : String) : Bool :=
  (segmentStarts path.toList).any fun start =>
    names.any fun name =>
      match Text.dropStart? name.toList start with
      | some rest => isOver rest || rest.head?.any fun c => c == '/' || ends.contains c
      | none => false

/-- A segment begins like the name of a hook: `use` and a capital, digit, underscore or hyphen. -/
def hasHookName (path : String) : Bool :=
  (segmentStarts path.toList).any fun start =>
    match Text.dropStart? "use".toList start with
    | some rest => rest.head?.any fun c => c.isUpper || c.isDigit || c == '_' || c == '-'
    | none => false

/-- The path lies in a folder of hooks, or is named like a hook. -/
def marksHook (path : String) : Bool := hasSegment ["hook", "hooks"] [] path || hasHookName path

/-- The path lies in a library folder, or is a library file. -/
def marksLib (path : String) : Bool := hasSegment ["lib", "libs", "util", "utils"] ['.'] path

/-- The path lies in a folder of interface primitives. -/
def marksUi (path : String) : Bool := hasSegment ["ui"] [] path

/-- The first suggestion that holds: a big component is a block, then the paths decide. -/
def suggested (score : Int) (paths : List String) : ItemType :=
  if 70 < score || 3 < paths.length then block
  else if paths.any marksHook then hook
  else if paths.any marksLib then lib
  else if paths.any marksUi then ui
  else component

end ItemType

end StoryRegistry
