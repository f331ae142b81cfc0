import StoryRegistry.Session.Discovery
import StoryRegistry.Issue

/-!
# Inspecting a project

The folders and files that the settings name are looked for, a few story files are looked at, and
the registry's folder is made if it is not there. A project is sound if none of the findings is an
error.
-/

set_option autoImplicit false

namespace StoryRegistry.Inspection

/-- How many story files are looked at. -/
def sampleSize : Nat := 5

/-- An issue with a path, unless something is there. -/
def absence (severity : Severity) (words : String) (p : Path) : Run (List Issue) := do
  if ← Run.look fun t => t.isThere p then return []
  else return [{ severity := severity, message := words ++ ": " ++ p.toText }]

/-- The issues with the places that the settings name. -/
def placeIssues (settings : Settings) : Run (List Issue) := do
  let storybook ← absence .error "Storybook path does not exist" settings.storybookPath
  let components ← absence .warning "Components path does not exist" settings.componentsPath
  let tsconfig ← absence .warning "TypeScript config not found" settings.tsconfigPath
  return storybook ++ components ++ tsconfig

/-- What there is to say about the number of story files. -/
def countIssue (paths : List String) : Issue :=
  if paths.isEmpty then
    { severity := .warning, message := "No story files found with current pattern" }
  else { severity := .info, message := "Found " ++ toString paths.length ++ " story files" }

/-- The issue with a story file, if it does not look like one. -/
def formatIssues (path : String) : Run (List Issue) := do
  if ← Discovery.looksLikeStory path then return []
  else
    return [{
      severity := .warning
      message := "Story file may not be in valid story format"
      file := some path }]

/-- Makes the registry's folder and says whether that is possible. -/
def outputIssue (settings : Settings) : Run Issue := do
  let place := settings.registryPath.toText
  match ← Run.attempt (Run.change (Change.folders settings.registryPath)) with
  | .ok _ => return { severity := .info, message := "Output directory is writable: " ++ place }
  | .error e =>
    match e with
    | .file (.fault _ _) =>
      return { severity := .error, message := "Cannot write to output directory: " ++ place }
    | e => throw e

/-- The issues of a project. -/
def issues (settings : Settings) : Run (List Issue) := do
  let places ← placeIssues settings
  let paths ← Discovery.storyFiles settings
  let formats ← (paths.take sampleSize).mapM formatIssues
  let output ← outputIssue settings
  return places ++ countIssue paths :: formats.flatten ++ [output]

/-- None of the issues is an error. -/
def isSound (issues : List Issue) : Bool := !issues.any fun issue => issue.severity == .error

end StoryRegistry.Inspection
