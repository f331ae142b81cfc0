import StoryRegistry.Value

/-!
# Story files

A story file describes one component: its default export, the meta, holds what all stories share,
and each named export is a story. What is absent is null or missing.
-/

set_option autoImplicit false

namespace StoryRegistry

/-- What the default export of a story file says. -/
structure Meta where
  title : Option String := none
  component : Value := .null
  decorators : Value := .null
  parameters : Option (Table Value) := none
  args : Option (Table Value) := none
  argTypes : Option (Table Value) := none
  tags : Option (List String) := none
deriving Inhabited

/-- One named story. -/
structure Story where
  name : Option String := none
  args : Option (Table Value) := none
  parameters : Option (Table Value) := none
  decorators : Value := .null
  render : Value := .null
  play : Value := .null
  tags : Option (List String) := none
deriving Inhabited

/-- A story file as it was read. -/
structure StoryFile where
  path : String
  metadata : Meta
  /-- The stories by export name, in their order. -/
  stories : Table Story
  imports : List String
  /-- The component's name; empty if the meta refers to none. -/
  componentName : String
  /-- The specifier under which the component is imported, if it could be guessed. -/
  componentPath : String
  /-- The imports that count as dependencies of the component. -/
  dependencies : List String
deriving Inhabited

namespace Meta

/-- The meta that an object with the given entries describes. -/
def ofEntries (entries : Table Value) : Meta where
  title := (Value.entry "title" entries).asString?
  component := Value.entry "component" entries
  decorators := Value.entry "decorators" entries
  parameters := (Value.entry "parameters" entries).asMap?
  args := (Value.entry "args" entries).asMap?
  argTypes := (Value.entry "argTypes" entries).asMap?
  tags := (Value.entry "tags" entries).asTexts?

/-- The parameters, none standing for no entries. -/
def parameterTable (m : Meta) : Table Value := m.parameters.getD []

end Meta

namespace Story

/-- Sets a field of the story; a field that stories do not have changes nothing. A name that is no
text is not taken, while args, parameters and tags of the wrong shape are removed. -/
def setField (story : Story) (field : String) (value : Value) : Story :=
  match field with
  | "name" | "storyName" =>
    match value with
    | .string s => { story with name := some s }
    | _ => story
  | "args" => { story with args := value.asMap? }
  | "parameters" => { story with parameters := value.asMap? }
  | "decorators" => { story with decorators := value }
  | "render" => { story with render := value }
  | "play" => { story with play := value }
  | "tags" => { story with tags := value.asTexts? }
  | _ => story

/-- Sets fields one after another. -/
def setFields (story : Story) (fields : List (String × Value)) : Story :=
  fields.foldl (fun story (field, value) => story.setField field value) story

end Story

end StoryRegistry
