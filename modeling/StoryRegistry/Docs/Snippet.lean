import StoryRegistry.Naming
import StoryRegistry.Story.Basic
import StoryRegistry.Value.Json

/-!
# Usage snippets

A snippet is one element with the props that a story sets. Texts are written in double quotes as
they are, a true prop by its name alone, and everything else in braces.
-/

set_option autoImplicit false

namespace StoryRegistry.Docs

/-- A name, an equals sign and a text in braces. -/
def braced (name text : String) : String := name ++ "=\x7b" ++ text ++ "\x7d"

/-- A prop of an element. -/
def prop (name : String) (value : Value) : String :=
  match value with
  | .string s => name ++ "=\"" ++ s ++ "\""
  | .bool true => name
  | .bool false => braced name "false"
  | .code text => braced name text
  | v => braced name (v.spelled.json .tight)

/-- The element of a component with the given props. -/
def element (component : String) (args : Table Value) : String :=
  let props := " ".intercalate (args.map fun (name, value) => prop name value)
  "<" ++ component ++ (if props.isEmpty then "" else " " ++ props) ++ " />"

/-- The example of a story: its args go over those of the meta. -/
def storyExample (f : StoryFile) (exported : String) (story : Story) : String :=
  "// " ++ Naming.spaced exported ++ " example\n" ++
    element f.componentName (Table.merge (f.metadata.args.getD []) (story.args.getD []))

/-- Every integer among the args of the meta and of the stories can be written. -/
def argsFit (f : StoryFile) : Bool :=
  Value.entriesFit (f.metadata.args.getD []) &&
    f.stories.all fun (_, story) => Value.entriesFit (story.args.getD [])

/-- The examples of a component: its basic use, then one for each story. -/
def examples (f : StoryFile) : List String :=
  if f.componentName.isEmpty then []
  else
    element f.componentName (f.metadata.args.getD []) ::
      f.stories.map fun (exported, story) => storyExample f exported story

end StoryRegistry.Docs
