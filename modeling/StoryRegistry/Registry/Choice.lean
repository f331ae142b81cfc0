import StoryRegistry.Analysis.Component
import StoryRegistry.Glob.Rule
import StoryRegistry.Settings.Basic

/-!
# Choosing an item's type

An analysis that found anything but a plain component decides. Otherwise the first type rule
decides whose pattern matches the story file's path below the project's root and whose condition,
if it has one with a threshold, is met.
-/

set_option autoImplicit false

namespace StoryRegistry

/-- The size of a component in terms of a measure. -/
def Measure.size (m : Measure) (f : StoryFile) (analysis : Option Analysis) : Int :=
  match m with
  | fileCount =>
    match analysis with
    | some a => if a.files.isEmpty then 1 else a.files.length
    | none => 1
  | complexity =>
    match analysis with
    | some a => a.score
    | none => 0
  | dependencies => f.dependencies.length

namespace TypeRule

/-- The component reaches the threshold of the rule's measure; without a threshold it is nought, and
a condition that names no measure is never met. -/
def isMet (r : TypeRule) (f : StoryFile) (analysis : Option Analysis) : Bool :=
  match r.condition.bind Measure.ofText? with
  | some m => (r.threshold.getD (.ofInt 0)).le (m.size f analysis)
  | none => false

/-- The rule has a condition that matters. -/
def isGated (r : TypeRule) : Bool := r.condition.getD "" != "" && r.threshold.isSome

/-- The rule decides about the component with the given path. -/
def applies (r : TypeRule) (path : String) (f : StoryFile) (analysis : Option Analysis) : Bool :=
  Glob.ruleMatches r.pattern path && (!r.isGated || r.isMet f analysis)

end TypeRule

namespace Settings

/-- The path of a file below the project's root. -/
def relative (settings : Settings) (path : String) : String :=
  Path.below settings.root.normal.toText (Path.normalize path)

/-- The type of the item for a story file. -/
def itemType (settings : Settings) (f : StoryFile) (analysis : Option Analysis) : ItemType :=
  let byRules :=
    ((settings.typeRules.find? fun r => r.applies (settings.relative f.path) f analysis).map
      TypeRule.type).getD .component
  match analysis with
  | some a => if a.type = .component then byRules else a.type
  | none => byRules

end Settings

end StoryRegistry
