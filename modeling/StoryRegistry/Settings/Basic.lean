import StoryRegistry.Path
import StoryRegistry.Double
import StoryRegistry.Table
import StoryRegistry.Registry.ItemType

/-!
# Settings

What a project can choose: where its story files and components lie, where the registry goes and
what it is called, which item types its paths have, which dependencies go by another name, and
which steps are done. Every choice has a default that depends on the project's root alone.
-/

set_option autoImplicit false

namespace StoryRegistry

/-- A size that a type rule can ask for. -/
inductive Measure where
  | fileCount
  | complexity
  | dependencies
deriving DecidableEq, Inhabited

namespace Measure

/-- Every measure, in the order in which messages list them. -/
def all : List Measure := [fileCount, complexity, dependencies]

/-- The name of a measure. -/
def text : Measure → String
  | fileCount => "fileCount"
  | complexity => "complexity"
  | dependencies => "dependencies"

/-- The measure of that name. -/
def ofText? (s : String) : Option Measure := all.find? fun m => m.text == s

end Measure

/-- Gives a type to the components whose path matches a pattern, if they are big enough. -/
structure TypeRule where
  pattern : String
  type : ItemType
  /-- The name of the measure that has to reach the threshold. -/
  condition : Option String := none
  threshold : Option Double := none
deriving DecidableEq, Inhabited

/-- All choices of a project. -/
structure Settings where
  root : Path
  storybookPath : Path
  componentsPath : Path
  storiesPatterns : List String
  tsconfigPath : Path
  registryPath : Path
  registryName : String
  homepage : Option String
  typeRules : List TypeRule
  /-- Other names for dependencies. -/
  renames : Table String
  excludePatterns : List String
  /-- Pages with examples are written. -/
  withExamples : Bool
  /-- Each item is also written to a file of its own. -/
  withItems : Bool
  /-- What was written is read again and checked. -/
  validated : Bool
deriving DecidableEq, Inhabited

namespace Settings

/-- Story files in every folder, in four languages. -/
def defaultStoriesPattern : String := "**/*.stories.@(js|jsx|ts|tsx)"

/-- The rules that hold unless a project gives its own. -/
def defaultTypeRules : List TypeRule :=
  [{ pattern := "**/ui/**", type := .ui },
   { pattern := "**/blocks/**", type := .block },
   { pattern := "**/hooks/**", type := .hook }]

/-- The settings of a project that chooses nothing. -/
def ofRoot (root : Path) : Settings where
  root := root
  storybookPath := root.child "src/stories"
  componentsPath := root.child "src/components"
  storiesPatterns := [defaultStoriesPattern]
  tsconfigPath := root.child "tsconfig.json"
  registryPath := root.child "registry"
  registryName := "my-components"
  homepage := none
  typeRules := defaultTypeRules
  renames := []
  excludePatterns := ["**/node_modules/**", "**/dist/**"]
  withExamples := true
  withItems := true
  validated := true

end Settings

end StoryRegistry
