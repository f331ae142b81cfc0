import StoryRegistry.Session.Basic
import StoryRegistry.Settings.Basic
import StoryRegistry.Analysis.Component
import StoryRegistry.Value.Json.Reading

/-!
# What imports refer to

A relative specifier is resolved by trying endings, and then the endings of an index file in a
folder. The version of a package is read from its manifest, in the nearest folder of packages at or
above the project's root; each package is looked up once.
-/

set_option autoImplicit false

namespace StoryRegistry.Import

/-- The endings that are tried, in this order. -/
def endings : List String := [".ts", ".tsx", ".js", ".jsx", ".json"]

/-- The paths that are tried for a target without its ending. -/
def candidates (base : String) : List String :=
  endings.map (fun ending => base ++ ending) ++ endings.map fun ending => base ++ "/index" ++ ending

/-- The first of the paths at which there is a file. -/
def firstFile? (t : FileTree) : List String → Except FileError (Option String)
  | [] => .ok none
  | path :: rest => do
    if ← t.isFile (Path.ofString path) then return some path else firstFile? t rest

/-- What a relative specifier refers to, without its ending. -/
def target (specifier importer : String) : String :=
  Path.normalize ((Path.ofString importer).parent.child specifier).toText

/-- The file that a relative specifier refers to; the bare target if there is none. -/
def resolve (t : FileTree) (specifier importer : String) : Except FileError String := do
  let base := target specifier importer
  return (← firstFile? t (candidates base)).getD base

/-- The places of a package's manifest, the nearest first. -/
def manifests (root : Path) (package : String) : List Path :=
  (root :: root.ancestors).map fun folder =>
    ((folder.child "node_modules").child package).child "package.json"

/-- The first of the paths at which there is a file. -/
def firstManifest? (t : FileTree) : List Path → Except FileError (Option Path)
  | [] => .ok none
  | p :: rest => do
    if ← t.isFile p then return some p else firstManifest? t rest

/-- The version that a manifest names. -/
def versionIn? (manifest : Value) : Option String :=
  match manifest with
  | .map entries => (Value.entry "version" entries).asString?
  | _ => none

/-- The version in the manifest at a path; one that cannot be read is told and has none. -/
def readVersion (p : Path) : Run (Option String) := do
  let unreadable (words : String) : Run (Option String) := do
    Run.tell .debug ("Unreadable package manifest " ++ p.toText ++ ": " ++ words)
    return none
  match ← Run.attempt (Run.text p) with
  | .ok text =>
    match Value.ofJson text with
    | .ok manifest => return versionIn? manifest
    | .error problem => unreadable problem.message
  | .error e =>
    match e.unread? with
    | some cause => unreadable cause.message
    | none => throw e

/-- The version in the nearest manifest of a package. -/
def installed (settings : Settings) (package : String) : Run (Option String) := do
  match ← Run.look fun t => firstManifest? t (manifests settings.root package) with
  | some p => readVersion p
  | none => return none

/-- The installed version of the package that a specifier lies in. -/
def version (settings : Settings) (specifier : String) : Run (Option String) := do
  let package := Specifier.package specifier
  match Table.get? package (← get).versions with
  | some known => return known
  | none =>
    let found ← installed settings package
    modify fun s => { s with versions := Table.set package found s.versions }
    return found

/-- The dependency that a specifier makes; the story framework makes none. -/
def dependency? (settings : Settings) (importer specifier : String) : Run (Option Dependency) := do
  if Specifier.isFramework specifier then return none
  let kind := Specifier.kind specifier
  match kind with
  | .internal =>
    let path ← Run.look fun t => resolve t specifier importer
    return some { specifier := specifier, kind := kind, path := some path }
  | .npm =>
    let version ← version settings specifier
    return some { specifier := specifier, kind := kind, version := version }
  | .registryExternal => return some { specifier := specifier, kind := kind }

/-- The dependencies that specifiers make, in their order. -/
def dependencies (settings : Settings) (importer : String) (specifiers : List String) :
    Run (List Dependency) := do
  return (← specifiers.mapM (dependency? settings importer)).filterMap id

end StoryRegistry.Import
