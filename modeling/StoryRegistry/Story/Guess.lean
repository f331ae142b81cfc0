import StoryRegistry.Text.Case
import StoryRegistry.Import.Specifier
import StoryRegistry.Value.Json

/-!
# Guessing the component of a story file

A story file names its component in its meta, and imports it from somewhere. Both guesses look at
texts only; either may find nothing.
-/

set_option autoImplicit false

namespace StoryRegistry.Story

open StoryRegistry.Text

/-- The name of a component that the reference does not name. -/
def unknownComponent : String := "UnknownComponent"

/-- The first run of ASCII letters and digits that begins with a capital letter. -/
def firstCapitalWord? : List Char → Option (List Char)
  | [] => none
  | c :: rest => if c.isUpper then some (c :: rest.takeWhile Char.isAlphanum) else firstCapitalWord? rest

/-- The name of the component that a reference names. -/
def componentName? (reference : Value) : Option String :=
  (firstCapitalWord? reference.textForm.toList).map String.ofList

/-- The relative import most likely to hold the component: the first that mentions its name or the
word `component` in any case, else the first one. -/
def componentPath? (imports : List String) (name : String) : Option String :=
  let relative := imports.filter Specifier.isRelative
  let wanted := lower name
  let mentions (specifier : String) : Bool :=
    (!wanted.isEmpty && occursIn wanted (lower specifier)) || occursIn "component" (lower specifier)
  relative.find? mentions <|> relative.head?

end StoryRegistry.Story
