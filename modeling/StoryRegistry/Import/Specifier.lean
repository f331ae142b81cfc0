import StoryRegistry.Text.Split

/-!
# Import specifiers

A specifier is the text that an import names. It is sorted by its form alone: a leading dot means a
file of the project, a scope or a single segment a package, anything else an entry of another
registry. The story framework and the host runtime are no dependencies of a component.
-/

set_option autoImplicit false

namespace StoryRegistry.Specifier

open StoryRegistry.Text

/-- What an imported specifier refers to. -/
inductive Kind where
  | internal
  | npm
  | registryExternal
deriving DecidableEq, Inhabited

/-- The name of a kind. -/
def Kind.text : Kind → String
  | internal => "internal"
  | npm => "npm"
  | registryExternal => "registryExternal"

/-- The specifier belongs to the story framework. -/
def isFramework (specifier : String) : Bool :=
  specifier == "storybook" || beginsWith specifier "@storybook/"

/-- The specifier names the library that renders components. -/
def isHostRuntime (specifier : String) : Bool :=
  specifier == "react" || specifier == "react-dom"

/-- The specifier names a file relative to the importing one. -/
def isRelative (specifier : String) : Bool := beginsWith specifier "."

/-- The kind of a specifier outside the framework. -/
def kind (specifier : String) : Kind :=
  if isRelative specifier then .internal
  else if beginsWith specifier "@" || !specifier.toList.contains '/' then .npm
  else .registryExternal

/-- The package a specifier lies in: its first segment, or the first two under a scope. -/
def package (specifier : String) : String :=
  match parts '/' specifier with
  | scope :: name :: _ => if beginsWith specifier "@" then scope ++ "/" ++ name else scope
  | [single] => single
  | [] => ""

/-- The specifiers that count as dependencies of a component, in their order. -/
def ofComponent (specifiers : List String) : List String :=
  specifiers.filter fun s => !isFramework s && !isHostRuntime s

end StoryRegistry.Specifier
