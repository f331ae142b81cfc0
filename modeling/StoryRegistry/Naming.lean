import StoryRegistry.Text.Blank
import StoryRegistry.Text.Word
import StoryRegistry.Text.Case
import StoryRegistry.Text.Split

/-!
# The written forms of a name

A component is called `IconButton` in code, `icon-button` in the registry and `Icon Button` on a
page. A hump is a small ASCII letter followed by a capital one; it is where a word begins inside a
name.
-/

set_option autoImplicit false

namespace StoryRegistry.Naming

open StoryRegistry.Text

/-- Puts `mark` into every hump. -/
def splitHumps (mark : Char) : List Char → List Char
  | a :: b :: rest =>
    if a.isLower && b.isUpper then a :: mark :: splitHumps mark (b :: rest)
    else a :: splitHumps mark (b :: rest)
  | short => short

/-- Replaces each run of separators by one `mark`; `inRun` says that a run is under way. -/
def collapseRuns (isSeparator : Char → Bool) (mark : Char) : Bool → List Char → List Char
  | _, [] => []
  | inRun, c :: rest =>
    if isSeparator c then
      if inRun then collapseRuns isSeparator mark true rest
      else mark :: collapseRuns isSeparator mark true rest
    else c :: collapseRuns isSeparator mark false rest

/-- The registry form: hyphens in the humps and in place of blanks and underscores, small letters. -/
def kebab (name : String) : String :=
  let hyphenated := splitHumps '-' name.toList
  lower (String.ofList (collapseRuns (fun c => isBlank c || c == '_') '-' false hyphenated))

/-- Gives every word a capital first letter; `inWord` says that the character before was of a word. -/
def capitalizeWords : Bool → List Char → List Char
  | _, [] => []
  | inWord, c :: rest =>
    if isWord c && !inWord then upperChar c ++ capitalizeWords true rest
    else c :: capitalizeWords (isWord c) rest

/-- The page form: words apart, each with a capital first letter. -/
def spaced (name : String) : String :=
  let apart := splitHumps ' ' name.toList
  let collapsed := collapseRuns (fun c => c == '-' || c == '_' || isBlank c) ' ' false apart
  String.ofList (trim (capitalizeWords false collapsed))

/-- A word with a capital first letter, the rest untouched. -/
def capitalize : List Char → List Char
  | [] => []
  | c :: rest => upperChar c ++ rest

/-- The code form of a hyphenated name: the words joined, each with a capital first letter. -/
def pascal (name : String) : String :=
  String.ofList ((splitOn '-' name.toList).flatMap capitalize)

end StoryRegistry.Naming
