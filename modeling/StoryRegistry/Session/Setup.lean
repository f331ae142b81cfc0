import StoryRegistry.Session.Discovery
import StoryRegistry.Settings.Reading
import StoryRegistry.Settings.Writing

/-!
# Setting up a project

The settings of a project are found in a folder under one of a few names, or else are the defaults.
For a project that has none, settings are written that name the places where its parts are found.
-/

set_option autoImplicit false

namespace StoryRegistry.Setup

/-- The first of the files that is there. -/
def firstThere? (t : FileTree) : List Path → Except FileError (Option Path)
  | [] => .ok none
  | p :: rest => do
    if ← t.isThere p then return some p else firstThere? t rest

/-- The file of the settings to which a path leads: the path itself, or a file in the folder. -/
def settingsFile (t : FileTree) (p : Path) : Except FileError Path := do
  let resolve := (Path.mk 1 t.here).resolve
  if ← t.isFolder p then
    let found ← firstThere? t (Settings.fileNames.map p.child)
    return resolve (found.getD (p.child Settings.newFileName))
  else return resolve p

/-- The settings to which a path leads; the defaults where there is no file. -/
def load (p : Path) : Run Settings := do
  let file ← Run.look fun t => settingsFile t p
  if ← Run.look fun t => t.isThere file then
    Run.ofExcept (Settings.ofText file.parent file.name (← Run.text file))
  else return .ofRoot file.parent

/-- What new settings are to say, where it differs from what is found. -/
structure Options where
  /-- Settings that are there are replaced. -/
  force : Bool := false
  storybook : Option String := none
  components : Option String := none
  output : Option String := none
deriving Inhabited

/-- The settings of a project of that layout. -/
def settingsFor (root : Path) (options : Options) (layout : Discovery.Layout) : Settings :=
  let base := Settings.ofRoot root
  let given (text : Option String) : Option String := text.filter (!·.isEmpty)
  let place (text : Option String) (other : Path) : Path := (text.map root.child).getD other
  { base with
    storybookPath := place (given options.storybook <|> layout.storybook) base.storybookPath
    componentsPath := place (given options.components <|> layout.components) base.componentsPath
    tsconfigPath := place layout.tsconfig base.tsconfigPath
    registryPath := place (given options.output) base.registryPath }

/-- Writes settings into a file, in a folder that is made if it is not there. -/
def write (file : Path) (settings : Settings) : Run Unit := do
  Run.change (Change.folders file.parent)
  Run.change (Change.writeText file settings.text)

/-- Writes settings for the project in a folder; gives the file they are in. -/
def create (folder : Path) (options : Options) : Run Path := do
  let root := (Path.mk 1 (← get).tree.here).resolve folder
  let file := root.child Settings.newFileName
  if (← Run.look fun t => t.isThere file) && !options.force then
    throw (.settings .alreadyThere)
  let layout ← Run.look fun t => Discovery.layout t root
  write file (settingsFor root options layout)
  Run.tell .info ("Configuration created at " ++ file.toText)
  return file

end StoryRegistry.Setup
