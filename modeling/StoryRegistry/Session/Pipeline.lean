import StoryRegistry.Session.Stories
import StoryRegistry.Analysis.Measuring
import StoryRegistry.Graph.Building
import StoryRegistry.Graph.Cycles
import StoryRegistry.Registry.Assembly

/-!
# From story files to a registry

The story files are read, the dependencies between them and the files they lead to are searched for
cycles, each component is analysed, and the items are assembled. What is found on the way goes into
the report of the run; only what leaves nothing to go on with is a failure.
-/

set_option autoImplicit false

namespace StoryRegistry.Pipeline

/-- What the pipeline makes. -/
structure Product where
  stories : List StoryFile
  analyses : List Analysis
  registry : Registry
deriving Inhabited

/-- Reads the story files and reports those that cannot be read. -/
def readStories (paths : List String) : Run (List StoryFile) := do
  let batch ← Stories.readAll paths
  Run.note fun r => { r with
    processed := batch.stories.length
    errorCount := r.errorCount + batch.failures.length
    errors := r.errors ++ batch.failures.map Prod.snd }
  Run.tell .info ("Parsed " ++ toString batch.stories.length ++ " story files")
  return batch.stories

/-- A cycle as text, from its first node back to it. -/
def cycleText (cycle : List String) : String := " -> ".intercalate (cycle ++ cycle.take 1)

/-- Searches the files that the stories lead to for cycles and reports them. -/
def findCycles (settings : Settings) (stories : List StoryFile) : Run Unit := do
  let building ← DependencyGraph.build settings true (stories.map StoryFile.path)
  let cycles := building.graph.cycles
  Run.note fun r => { r with
    warningCount := r.warningCount + building.failures.length
    errors := r.errors ++ building.failures.map Prod.snd
    cycles := cycles }
  cycles.forM fun cycle => Run.tell .warning ("Circular dependency: " ++ cycleText cycle)
  Run.note fun r => { r with warningCount := r.warningCount + cycles.length }

/-- How many issues of that severity the analyses found. -/
def issueCount (severity : Severity) (analyses : List Analysis) : Nat :=
  (analyses.flatMap fun a => a.quality.issues).countP fun issue => issue.severity == severity

/-- Analyses the components and reports how many issues there are. -/
def analyse (settings : Settings) (stories : List StoryFile) : Run (List Analysis) := do
  let analyses ← Analysis.ofStories settings Run.text stories
  Run.note fun r => { r with
    warningCount := r.warningCount + issueCount .warning analyses
    errorCount := r.errorCount + issueCount .error analyses }
  return analyses

/-- Assembles the registry. -/
def assemble (settings : Settings) (stories : List StoryFile) (analyses : List Analysis) :
    Run Registry := do
  let (lines, outcome) := Assembly.registry settings stories (analyses.map some)
  Run.tellAll lines
  let registry ← Run.ofExcept outcome
  Run.tell .info ("Generated " ++ toString registry.items.length ++ " registry items")
  return registry

/-- Makes the registry of the story files at the paths. -/
def run (settings : Settings) (paths : List String) : Run Product := do
  let stories ← readStories paths
  findCycles settings stories
  let analyses ← analyse settings stories
  let registry ← assemble settings stories analyses
  return ⟨stories, analyses, registry⟩

end StoryRegistry.Pipeline
