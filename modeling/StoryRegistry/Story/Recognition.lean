import StoryRegistry.Text.Blank
import StoryRegistry.Text.Word
import StoryRegistry.Text.Split

/-!
# Does a text look like a story file?

A cheap look at the text, without reading it: there is a default export, and a named export or a
mention of the framework.
-/

set_option autoImplicit false

namespace StoryRegistry.Story

open StoryRegistry.Text

/-- What is left after at least one blank. -/
def afterBlanks? : List Char → Option (List Char)
  | [] => none
  | c :: rest => if isBlank c then some (rest.dropWhile isBlank) else none

/-- What is left after the word and at least one blank. -/
def afterWord? (word : String) (s : List Char) : Option (List Char) :=
  (dropStart? word.toList s).bind afterBlanks?

/-- The text from some character on satisfies the test. -/
def anywhere (test : List Char → Bool) : List Char → Bool
  | [] => test []
  | c :: rest => test (c :: rest) || anywhere test rest

/-- `export default` and a blank stand at the front. -/
def startsDefaultExport (s : List Char) : Bool :=
  ((afterWord? "export" s).bind (afterWord? "default")).isSome

/-- `export`, a declaring word and the beginning of a name stand at the front. -/
def startsNamedExport (s : List Char) : Bool :=
  match afterWord? "export" s with
  | none => false
  | some rest =>
    ["const", "let", "var"].any fun word =>
      match afterWord? word rest with
      | some (c :: _) => isWord c
      | _ => false

/-- A default export, and a named export or the framework's name space, occur in the text. -/
def looksLikeStory (source : String) : Bool :=
  anywhere startsDefaultExport source.toList &&
    (anywhere startsNamedExport source.toList || occursIn "@storybook/" source)

end StoryRegistry.Story
