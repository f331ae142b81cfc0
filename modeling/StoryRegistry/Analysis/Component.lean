import StoryRegistry.Analysis.Props
import StoryRegistry.Analysis.Quality
import StoryRegistry.Import.Specifier

/-!
# The analysis of a component

All that is derived from a story file and the files around it: counts and score, dependencies,
files, props, stories and quality, with the registry type that they suggest.
-/

set_option autoImplicit false

namespace StoryRegistry

/-- An imported specifier, with the file it resolves to or the installed version of its package. -/
structure Dependency where
  specifier : String
  kind : Specifier.Kind
  path : Option String := none
  version : Option String := none
deriving DecidableEq, Inhabited

/-- A file that belongs to a component. -/
structure ComponentFile where
  path : String
  /-- What the file is to the component: its story or its source. -/
  role : String
  size : Nat
  exports : List String
deriving DecidableEq, Inhabited

/-- All that is derived for one component. -/
structure Analysis where
  name : String
  type : ItemType
  counts : Counts
  score : Int
  dependencies : List Dependency
  files : List ComponentFile
  props : List PropInfo
  stories : List StoryInfo
  quality : Quality
deriving Inhabited

/-- The analysis that stands in where analysing failed: nothing but one issue. -/
def Analysis.failed (f : StoryFile) : Analysis where
  name := f.componentName
  type := .component
  counts := ⟨0, 0, 0, 0, 0⟩
  score := 0
  dependencies := []
  files := []
  props := []
  stories := []
  quality := .failed f.path

end StoryRegistry
