import StoryRegistry.Session.Output

/-!
# Keeping a registry in step with its story files

A run looks for the story files, makes the registry and writes it. With a point in time only the
files changed after it are taken. What goes wrong is reported rather than left to fail, unless it is
none of the pipeline's own failures and no fault of a file.
-/

set_option autoImplicit false

namespace StoryRegistry.Sync

/-- What a run is asked to do, where it differs from the settings. -/
structure Options where
  /-- Takes only story files that were changed after this. -/
  since : Option Instant := none
  /-- Whether what was written is checked. -/
  validated : Option Bool := none
  /-- Whether pages are written. -/
  withPages : Option Bool := none
deriving Inhabited

/-- The story files that a run takes. -/
def storyFiles (settings : Settings) (options : Options) : Run (List String) := do
  let found ← Discovery.storyFiles settings
  match options.since with
  | none => return found
  | some since =>
    let changed ← Discovery.changedSince since found
    Run.tell .debug (toString changed.length ++ " story files changed since " ++ since.text)
    return changed

/-- Writes what the pipeline made, as far as it is asked for, and checks it. -/
def publish (settings : Settings) (options : Options) (product : Pipeline.Product) : Run Unit := do
  let folder := settings.registryPath
  let items := product.registry.items
  Output.writeRegistry folder product.registry
  Run.when settings.withItems (Output.writeItems folder items)
  Run.when (options.withPages.getD settings.withExamples)
    (Output.writePages folder product.stories items)
  Run.when (options.validated.getD settings.validated) (Output.checkWritten folder)

/-- Makes the registry of the story files and writes it. -/
def produce (settings : Settings) (options : Options) (paths : List String) : Run Registry := do
  let product ← Pipeline.run settings paths
  publish settings options product
  return product.registry

/-- The report after the registry was made. -/
def completed (r : Report) (registry : Registry) : Report :=
  { r with
    registry := some registry
    generated := registry.items.length
    success := !registry.items.isEmpty }

/-- The numbers of a report in words. -/
def summary (r : Report) : String :=
  toString r.processed ++ " files processed, " ++ toString r.generated ++ " components generated, " ++
    toString r.errorCount ++ " errors, " ++ toString r.warningCount ++ " warnings"

/-- Reports what making and writing the registry came to. -/
def conclude : Except Failure Registry → Run Unit
  | .ok registry => do
    Run.note fun r => completed r registry
    let s ← get
    Run.tell .info ("Sync completed in " ++ s.elapsed ++ "s: " ++ summary s.report)
  | .error e => do
    Run.when (!e.isReported) (throw e)
    Run.tell .error ("Sync failed: " ++ e.message)
    Run.note fun r => { r with errors := r.errors ++ [e], errorCount := r.errorCount + 1 }

/-- Brings the registry in step with the story files at the paths, if there are any. -/
def update (settings : Settings) (options : Options) (paths : List String) : Run Unit :=
  if paths.isEmpty then do
    Run.tell .info "No story files found or no changes detected"
    Run.note fun r => { r with success := true }
  else do
    Run.tell .info ("Found " ++ toString paths.length ++ " story files")
    conclude (← Run.attempt (produce settings options paths))

/-- Brings the registry in step with the story files. -/
def run (settings : Settings) (options : Options) : Run Report := do
  Run.note fun _ => {}
  update settings options (← storyFiles settings options)
  return (← get).report

end StoryRegistry.Sync
