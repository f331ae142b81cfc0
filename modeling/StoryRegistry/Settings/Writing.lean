import StoryRegistry.Settings.Basic
import StoryRegistry.Registry.Item
import StoryRegistry.Yaml.Layout

/-!
# Writing settings

Settings are written with all their sections, paths relative to the root. Homepage, conditions and
thresholds are left out where there are none.
-/

set_option autoImplicit false

namespace StoryRegistry

/-- The type rule as entries of a document. -/
def TypeRule.entries (r : TypeRule) : Table Value :=
  presentEntries
    [("pattern", some (.string r.pattern)), ("type", some (.string r.type.text)),
     ("condition", r.condition.map .string), ("threshold", r.threshold.map .double)]

namespace Settings

/-- The way from the root to a path; it begins with a dot. -/
def shownPath (settings : Settings) (p : Path) : String :=
  let way := (p.relativeTo settings.root).map fun c => if c == '\\' then '/' else c
  if Text.beginsWith way "." then way else "./" ++ way

/-- Where story files and components lie. -/
def inputEntries (settings : Settings) : Table Value :=
  [("storybookPath", .string (settings.shownPath settings.storybookPath)),
   ("componentsPath", .string (settings.shownPath settings.componentsPath)),
   ("storiesPattern", .ofTexts settings.storiesPatterns),
   ("tsconfigPath", .string (settings.shownPath settings.tsconfigPath))]

/-- Where the registry goes and what it is called. -/
def outputEntries (settings : Settings) : Table Value :=
  presentEntries
    [("registryPath", some (.string (settings.shownPath settings.registryPath))),
     ("registryName", some (.string settings.registryName)),
     ("homepage", (settings.homepage.filter (!·.isEmpty)).map .string)]

/-- The type rules, the renames and the excluded patterns. -/
def mappingEntries (settings : Settings) : Table Value :=
  [("componentTypeRules", .list (settings.typeRules.map fun r => .map r.entries)),
   ("dependencyMapping", .map (Table.mapEntries .string settings.renames)),
   ("excludePatterns", .ofTexts settings.excludePatterns)]

/-- Which steps are done. -/
def generationEntries (settings : Settings) : Table Value :=
  [("includeStoryExamples", .bool settings.withExamples),
   ("generateIndividualItems", .bool settings.withItems),
   ("validateOutput", .bool settings.validated)]

/-- The settings as entries of a document. -/
def entries (settings : Settings) : Table Value :=
  [("input", .map settings.inputEntries), ("output", .map settings.outputEntries),
   ("mapping", .map settings.mappingEntries), ("generation", .map settings.generationEntries)]

/-- The text of the settings. -/
def text (settings : Settings) : String := Yaml.documentText settings.entries

end Settings

end StoryRegistry
