import StoryRegistry.Session.Discovery
import StoryRegistry.Text.Word
import StoryRegistry.Text.Blank

/-!
# Measuring a component

The source of a component is located, its lines and those of its story are counted, and with the
dependencies, props and stories they give the analysis. Where that fails, an analysis that says so
stands in, so that every story file has one.
-/

set_option autoImplicit false

namespace StoryRegistry.Analysis

open StoryRegistry.Text

/-- How many lines a text has. -/
def lineCount (text : String) : Nat := text.toList.count '\n' + 1

/-- The number of lines that is assumed of a story that cannot be read. -/
def assumedLines : Nat := 100

/-- What follows a colon and the word after it, blanks between them left out. -/
def afterPair? (s : List Char) : Option (List Char) :=
  match s with
  | ':' :: rest =>
    let rest := rest.dropWhile isBlank
    if rest.head?.any isWord then some (rest.dropWhile isWord) else none
  | _ => none

/-- How many pairs of words with a colon between them a text holds, given a bound on its length;
no two pairs share a word. -/
def pairsWithin : Nat → List Char → Nat
  | 0, _ => 0
  | _ + 1, [] => 0
  | fuel + 1, c :: rest =>
    if isWord c then
      let after := rest.dropWhile isWord
      match afterPair? after with
      | some rest => pairsWithin fuel rest + 1
      | none => pairsWithin fuel after
    else pairsWithin fuel rest

/-- How many pairs of words with a colon between them a text holds: a rough count of its props. -/
def pairCount (text : String) : Nat := pairsWithin text.toList.length text.toList

/-- The source file of a component: what its import resolves to, or else a file in one of the usual
places. -/
def sourceFile? (t : FileTree) (settings : Settings) (f : StoryFile) :
    Except FileError (Option String) := do
  let specifier := f.componentPath
  let named ←
    if specifier.isEmpty then .ok none
    else do
      let path ← if Specifier.isRelative specifier then Import.resolve t specifier f.path else .ok specifier
      Import.firstFile? t [path]
  match named with
  | some path => return some path
  | none => Discovery.component? t f.path (some settings.componentsPath) [f.componentName]

/-- How files are read in a session. -/
abbrev Reader := Path → Run String

/-- How many lines a story file has; a number is assumed if it cannot be read. -/
def storyLines (reader : Reader) (f : StoryFile) : Run Nat := do
  match ← Run.attempt (reader (Path.ofString f.path)) with
  | .ok text => return lineCount text
  | .error e => if e.unread?.isSome then return assumedLines else throw e

/-- How many lines the source file of a component has, and how many props it seems to have; none if
there is no such file or it cannot be read. -/
def sourceSize? (reader : Reader) : Option String → Run (Option (Nat × Nat))
  | none => return none
  | some path => do
    match ← Run.attempt (reader (Path.ofString path)) with
    | .ok text => return some (lineCount text, pairCount text)
    | .error e =>
      match e.unread? with
      | some cause =>
        Run.tell .debug ("Component file " ++ path ++ " not readable: " ++ cause.message)
        return none
      | none => throw e

/-- How much a component consists of; `source` is the path of its source file. -/
def measured (reader : Reader) (f : StoryFile) (source : Option String) : Run Counts := do
  let lines ← storyLines reader f
  match ← sourceSize? reader source with
  | some (more, props) => return ⟨2, lines + more, f.dependencies.length, props, f.stories.length⟩
  | none => return ⟨1, lines, f.dependencies.length, 0, f.stories.length⟩

/-- The files of a component. -/
def filesOf (t : FileTree) (f : StoryFile) (source : Option String) :
    Except FileError (List ComponentFile) := do
  let storySize ← t.size (Path.ofString f.path)
  let story : ComponentFile := ⟨f.path, "story", storySize, Table.names f.stories⟩
  match source with
  | none => return [story]
  | some path =>
    let size ← t.size (Path.ofString path)
    return [story, ⟨path, "component", size, [f.componentName]⟩]

/-- The analysis of the component that a story file is about. -/
def ofStory (settings : Settings) (reader : Reader) (f : StoryFile) : Run Analysis := do
  let source ← Run.look fun t => sourceFile? t settings f
  let counts ← measured reader f source
  let score ← Run.ofExcept counts.score
  let dependencies ← Import.dependencies settings f.path f.dependencies
  let files ← Run.look fun t => filesOf t f source
  let root := Path.normalize settings.root.toText
  let paths := files.map fun file => Path.below root file.path
  return {
    name := f.componentName
    type := ItemType.suggested score paths
    counts := counts
    score := score
    dependencies := dependencies
    files := files
    props := f.props
    stories := f.storyInfos
    quality := .assess f score f.storyInfos }

/-- The analysis of the component that a story file is about; if it fails that is told, and an analysis
that says so stands in. -/
def ofStoryOrFailed (settings : Settings) (reader : Reader) (f : StoryFile) : Run Analysis := do
  match ← Run.attempt (ofStory settings reader f) with
  | .ok analysis => return analysis
  | .error e =>
    Run.tell .warning ("Failed to analyze component " ++ f.componentName ++ ": " ++ e.message)
    return .failed f

/-- The analysis of each story file. -/
def ofStories (settings : Settings) (reader : Reader) (stories : List StoryFile) :
    Run (List Analysis) :=
  stories.mapM (ofStoryOrFailed settings reader)

end StoryRegistry.Analysis
