import StoryRegistry.Graph.Basic
import StoryRegistry.Import.Resolution
import StoryRegistry.Script.Module

/-!
# Building a dependency graph

The files that are given are looked at in order, each once; on request so are the source files that
internal dependencies lead to, after all those that were found before them. A file that cannot be
read has no dependencies, and its failure is kept beside the graph.
-/

set_option autoImplicit false

namespace StoryRegistry.DependencyGraph

/-- The endings of files whose imports can be followed. -/
def sourceEndings : List String := [".ts", ".tsx", ".js", ".jsx", ".mjs", ".cjs"]

/-- A graph with the failures met while it was built. -/
structure Building where
  graph : DependencyGraph := []
  /-- The files that could not be read, each with its failure. -/
  failures : List (String × Failure) := []
deriving Inhabited

/-- The dependencies of the file at a path. -/
def dependenciesOf (settings : Settings) (path : String) : Run (List Dependency) := do
  match ← Run.attempt (Run.text (Path.ofString path)) with
  | .ok source => Import.dependencies settings path (Script.Module.ofFile path source).imports
  | .error e =>
    match e.unread? with
    | some cause => throw (.unreadableImports path cause)
    | none => throw e

/-- The dependencies of the file at a path; if it cannot be read, none, with the failure. -/
def dependenciesOrFailure (settings : Settings) (path : String) :
    Run (List Dependency × List (String × Failure)) := do
  match ← Run.attempt (dependenciesOf settings path) with
  | .ok found => return (found, [])
  | .error e =>
    match e with
    | .unreadableImports _ _ =>
      Run.tell .warning ("Failed to analyze dependencies for " ++ path ++ ": " ++ e.message)
      return ([], [(path, e)])
    | e => throw e

/-- The source files that the dependencies lead to and that the graph does not hold yet. -/
def followed (t : FileTree) (g : DependencyGraph) (dependencies : List Dependency) :
    Except FileError (List String) :=
  (dependencies.filterMap Dependency.target?).filterM fun target =>
    if !(Table.names g).contains target && sourceEndings.any (Text.endsWith target) then
      t.isFile (Path.ofString target)
    else .ok false

/-- Looks at the pending files in order, and at those that they lead to if `following`, as far as
there is room for them in the graph. Files that the graph holds are passed over. -/
def visit (settings : Settings) (following : Bool) : Nat → List String → Building → Run Building
  | 0, _, b => return b
  | room + 1, pending, b =>
    match pending.dropWhile ((Table.names b.graph).contains ·) with
    | [] => return b
    | path :: rest => do
      let (found, failures) ← dependenciesOrFailure settings path
      let graph := b.graph ++ [(path, found)]
      let next ← if following then Run.look fun t => followed t graph found else pure []
      visit settings following room (rest ++ next) ⟨graph, b.failures ++ failures⟩

/-- Room for the given files and for all that they can lead to: a file is found only at a path of no
more than `FileTree.longestPath` bytes, which a text may write in two more. -/
def roomFor (starts : List String) : Nat := starts.length + Nat.pow 257 (FileTree.longestPath + 2)

/-- The graph of the files at the given paths, and of the files they lead to if `following`. -/
def build (settings : Settings) (following : Bool) (paths : List String) : Run Building :=
  let starts := paths.map Path.normalize
  visit settings following (roomFor starts) starts {}

end StoryRegistry.DependencyGraph
