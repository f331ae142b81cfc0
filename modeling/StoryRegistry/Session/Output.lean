import StoryRegistry.Session.Pipeline
import StoryRegistry.Docs.Page
import StoryRegistry.Value.Json.Reading

/-!
# Writing a registry

The registry goes into one file of a folder, each item into a file of its own beside it, and the
pages with examples into a folder below. What was written can be read again and checked.
-/

set_option autoImplicit false

namespace StoryRegistry.Output

/-- The folder of the pages. -/
def pagesFolder : String := "examples"

/-- The file of the registry in a folder. -/
def registryFile (folder : Path) : Path := folder.child Failure.registryFileName

/-- The file of an item in a folder. -/
def itemFile (folder : Path) (i : Item) : Path := folder.child (i.name ++ ".json")

/-- The file of an item's page in the folder of the pages. -/
def pageFile (folder : Path) (i : Item) : Path := folder.child (i.name ++ ".md")

/-- The file of an item's examples in the folder of the pages. -/
def examplesFile (folder : Path) (i : Item) : Path := folder.child (i.name ++ ".examples.json")

/-- What a file with a value as JSON holds. -/
def jsonText (v : Value) : String := v.json .tree ++ "\n"

/-- Writes a value as JSON, and makes the folders above the file. -/
def writeJson (p : Path) (v : Value) : Run Unit := do
  Run.change (Change.folders p.parent)
  Run.when (!v.intsFit) (throw .badNumber)
  Run.change (Change.writeText p (jsonText v))

/-- Writes the registry. -/
def writeRegistry (folder : Path) (r : Registry) : Run Unit := do
  let file := registryFile folder
  writeJson file r.document
  Run.tell .info ("Wrote registry with " ++ toString r.items.length ++ " items to " ++ file.toText)

/-- Writes each item into a file of its own. -/
def writeItems (folder : Path) (items : List Item) : Run Unit := do
  items.forM fun i => writeJson (itemFile folder i) i.document
  Run.tell .debug
    ("Wrote " ++ toString items.length ++ " item documents to " ++ folder.toText)

/-- Writes the page of an item, as text and as data. -/
def writePage (folder : Path) (f : StoryFile) (i : Item) : Run Unit := do
  let page ← Run.ofExcept (Docs.Page.ofItem f i.entries)
  Run.change (Change.folders folder)
  Run.change (Change.writeText (pageFile folder i) page.text)
  writeJson (examplesFile folder i) page.document

/-- The item that a story file's component has, by its name. -/
def itemOf? (items : List Item) (f : StoryFile) : Option Item :=
  if f.componentName.isEmpty then none
  else items.find? fun i => i.name == Naming.kebab f.componentName

/-- The story files whose component has an item, each with its item. -/
def described (stories : List StoryFile) (items : List Item) : List (StoryFile × Item) :=
  stories.filterMap fun f => (itemOf? items f).map fun i => (f, i)

/-- Writes a page for each story file whose component has an item. -/
def writePages (folder : Path) (stories : List StoryFile) (items : List Item) : Run Unit := do
  let folder := folder.child pagesFolder
  let pages := described stories items
  pages.forM fun (f, i) => writePage folder f i
  Run.tell .info
    ("Generated examples for " ++ toString pages.length ++ " components in " ++ folder.toText)

/-- Reads the written registry again and checks it. -/
def checkWritten (folder : Path) : Run Unit := do
  let file := registryFile folder
  match Value.ofJson (← Run.text file) with
  | .ok document =>
    let _ ← Run.ofExcept (Registry.ofDocument (document.asMap?.getD []))
    Run.tell .debug ("Output validation passed for " ++ file.toText)
  | .error _ => throw (.brokenRegistry file.toText)

end StoryRegistry.Output
