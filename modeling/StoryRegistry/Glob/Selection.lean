import StoryRegistry.Glob.Wildcard
import StoryRegistry.FileTree.Basic
import StoryRegistry.Failure

/-!
# Selecting by patterns

A pattern is a way through folders: each segment is a name, a wildcard pattern for names, or `**`
for any number of folders. What it selects below a folder is every place to which the way leads.
-/

set_option autoImplicit false

namespace StoryRegistry.Glob

/-- A step on the way that a pattern describes. -/
inductive Step where
  /-- `**`: any number of folders. -/
  | folders
  /-- Any name that fits. -/
  | names (pieces : List Wildcard)
  /-- The entry of that name. -/
  | name (text : String)
deriving DecidableEq

/-- A pattern: its steps, and whether it asks for a folder at the end. -/
structure Pattern where
  steps : List Step
  folderOnly : Bool
deriving DecidableEq

/-- The step of a segment. -/
def Step.ofSegment (segment : String) : Except Failure Step :=
  if segment == "**" then .ok .folders
  else if Text.occursIn "**" segment then .error .badPattern
  else if hasWildcard segment then .ok (.names (wildcards segment))
  else .ok (.name segment)

/-- The pattern that a text describes. -/
def Pattern.ofString (text : String) : Except Failure Pattern := do
  let p := Path.ofString text
  let folderOnly := Text.endsWith text "/"
  if text.isEmpty then throw .badPattern
  if p.isAbsolute then throw .absolutePattern
  if p.segments.isEmpty then throw (if folderOnly then .wrongOperation else .outOfRange)
  return ⟨← p.segments.mapM Step.ofSegment, folderOnly⟩

/-- The entry of a folder. -/
def entry (p : Path) (name : String) : Path := { p with segments := p.segments ++ [name] }

/-- The paths to which a step leads from a folder; `asksFolder` asks for folders. -/
def Step.next (t : FileTree) (asksFolder : Bool) (p : Path) : Step → Except FileError (List Path)
  | folders => do
    match ← t.find p with
    | .folder place =>
      .ok ((t.foldersBelow place).map fun way => { p with segments := p.segments ++ way })
    | _ => .ok []
  | names pieces => do
    let inside := ((← t.list p).filter (fits pieces)).map (entry p)
    if asksFolder then inside.filterM t.isFolder else .ok inside
  | name text => do
    let q := entry p text
    let found ← if asksFolder then t.isFolder q else t.isThere q
    .ok (if found then [q] else [])

/-- Every path to which the steps lead from a folder; `folderOnly` asks for folders at the end. -/
def follow (t : FileTree) (folderOnly : Bool) : List Step → Path → Except FileError (List Path)
  | [], p => .ok [p]
  | step :: rest, p => do
    let next ← step.next t (folderOnly || !rest.isEmpty) p
    return (← next.mapM (follow t folderOnly rest)).flatten

/-- Every path below a folder that the pattern selects. -/
def select (t : FileTree) (folder : Path) (pattern : String) : Except Failure (List Path) := do
  let pattern ← Pattern.ofString pattern
  match follow t pattern.folderOnly pattern.steps folder with
  | .ok found => .ok found
  | .error e => .error (.file e)

end StoryRegistry.Glob
