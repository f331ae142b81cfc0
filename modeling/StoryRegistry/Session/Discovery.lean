import StoryRegistry.Session.Basic
import StoryRegistry.Import.Resolution
import StoryRegistry.Glob.Selection
import StoryRegistry.Story.Recognition
import StoryRegistry.Time.Instant

/-!
# Finding files of a project

Story files are those below the storybook folder that a pattern selects and no excluding pattern
fits. The source of a component is looked for beside its story and in the components folder.
-/

set_option autoImplicit false

namespace StoryRegistry.Discovery

/-! ## Story files -/

/-- The paths, resolved and in normal form, of the files that a plain pattern selects. -/
def selected (t : FileTree) (folder : Path) (pattern : String) : Except Failure (List String) := do
  let found ← Glob.select t folder pattern
  match found.filterM t.isFile with
  | .ok files =>
    let here : Path := ⟨1, t.here⟩
    .ok (files.map fun p => Path.normalize (here.resolve p).toText)
  | .error e => .error (.file e)

/-- The paths of all files that the patterns select, in order and each once. -/
def allSelected (t : FileTree) (folder : Path) (patterns : List String) :
    Except Failure (List String) := do
  let found ← (patterns.flatMap Glob.expand).mapM (selected t folder)
  return Text.sorted (Glob.distinct found.flatten)

/-- A pattern fits the whole path. -/
def isExcluded (patterns : List String) (path : String) : Bool :=
  patterns.any fun pattern => Glob.fits (Glob.wildcards pattern) path

/-- The paths of the story files of a project, in order. -/
def storyFiles (settings : Settings) : Run (List String) := do
  let folder := settings.storybookPath
  if ← Run.look fun t => t.isFolder folder then
    let found ← Run.ofExcept (allSelected (← Run.tree) folder settings.storiesPatterns)
    let kept := found.filter fun path => !isExcluded settings.excludePatterns path
    Run.tell .debug
      ("Discovered " ++ toString kept.length ++ " story files under " ++ folder.toText)
    return kept
  else
    Run.tell .warning ("Storybook path " ++ folder.toText ++ " does not exist")
    return []

/-- The file at a path was changed after a time; one that is not there counts as changed. -/
def isChanged (t : FileTree) (time : Int) (path : String) : Except FileError Bool := do
  return (← t.modified? (Path.ofString path)).all fun modified => time < modified

/-- The paths of files that were changed after a point in time. -/
def changedSince (since : Instant) (paths : List String) : Run (List String) := do
  match since.micros? with
  | none => throw .badNumber
  | some time => Run.look fun t => paths.filterM (isChanged t time)

/-- The file at a path can be read and looks like a story file. -/
def looksLikeStory (path : String) : Run Bool := do
  match ← Run.attempt (Run.text (Path.ofString path)) with
  | .ok source => return Story.looksLikeStory source
  | .error e => if e.unread?.isSome then return false else throw e

/-! ## Components -/

/-- The endings of component files, in the order in which they are tried. -/
def componentEndings : List String := [".tsx", ".ts", ".jsx", ".js"]

/-- The name of the component that a story file's name suggests. -/
def suggestedName (story : Path) : String :=
  match Text.cutAt? ".stories.".toList story.name.toList with
  | some (before, _) => String.ofList before
  | none => story.stem

/-- The paths at which the component of a story file is looked for. -/
def componentCandidates (story : String) (components : Option Path) (names : List String) :
    List String :=
  let story := Path.ofString story
  let names := Glob.distinct ((suggestedName story :: names).filter (!·.isEmpty))
  (story.parent :: components.toList).flatMap fun folder =>
    names.flatMap fun name =>
      componentEndings.map fun ending => Path.normalize (folder.child (name ++ ending)).toText

/-- The file that is likely to hold the component of a story file. -/
def component? (t : FileTree) (story : String) (components : Option Path) (names : List String) :
    Except FileError (Option String) :=
  Import.firstFile? t (componentCandidates story components names)

/-! ## Layout of a project -/

/-- The usual folders of story files. -/
def storyFolders : List String := ["src/stories", "stories", ".storybook", "src"]

/-- The usual folders of components. -/
def componentFolders : List String := ["src/components", "components", "src/ui", "ui", "src"]

/-- The usual names of the compiler's settings. -/
def compilerFiles : List String := ["tsconfig.json", "tsconfig.app.json", "tsconfig.base.json"]

/-- Where a project keeps its parts, as far as they are in one of the usual places. -/
structure Layout where
  storybook : Option String
  components : Option String
  tsconfig : Option String
deriving DecidableEq, Inhabited

/-- The first of the usual places that passes a test, with a dot in front. -/
def firstPlace? (test : Path → Except FileError Bool) (root : Path) :
    List String → Except FileError (Option String)
  | [] => .ok none
  | place :: rest => do
    if ← test (root.child place) then return some ("./" ++ place) else firstPlace? test root rest

/-- The layout of the project in a folder. -/
def layout (t : FileTree) (root : Path) : Except FileError Layout := do
  let storybook ← firstPlace? t.isFolder root storyFolders
  let components ← firstPlace? t.isFolder root componentFolders
  let tsconfig ← firstPlace? t.isFile root compilerFiles
  return ⟨storybook, components, tsconfig⟩

end StoryRegistry.Discovery
