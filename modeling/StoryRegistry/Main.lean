import StoryRegistry.Command.Answer

/-!
# The program

The files that a command line can be about are read into a file tree, the command is answered in a
session on that tree, and what the session changed is written back.
-/

set_option autoImplicit false

namespace StoryRegistry.Program

/-- The text of a place. -/
def placeText (place : Place) : String := (Path.mk 1 place).toText

/-- A time in millionths of a second. -/
def micros (time : IO.FS.SystemTime) : Int := time.sec * 1000000 + (time.nsec.toNat / 1000 : Nat)

/-- Seconds with two decimal places. -/
def secondsText (milliseconds : Nat) : String :=
  let hundredths := toString (milliseconds % 1000 / 10)
  toString (milliseconds / 1000) ++ "." ++ (if hundredths.length < 2 then "0" else "") ++ hundredths

/-- Adds what is at a place, and all that lies below it. A folder that leads back to one of the
folders on the way to it is passed over, and so is what cannot be read. -/
partial def readAt (above : List String) (place : Place) (t : FileTree) : IO FileTree := do
  try
    let real ← IO.FS.realPath (placeText place)
    let data ← real.metadata
    match data.type with
    | .dir =>
      if above.contains real.toString then return t
      let mut t := { t with folders := place :: t.folders }
      for entry in ← real.readDir do
        t ← readAt (real.toString :: above) (place ++ [entry.fileName]) t
      return t
    | .file =>
      let bytes ← IO.FS.readBinFile (placeText place)
      return { t with files := (place, ⟨bytes.toList, micros data.modified⟩) :: t.files }
    | _ => return t
  catch _ => return t

/-- Adds the folders above a place, as far as they are there. -/
def withFoldersAbove (t : FileTree) (place : Place) : IO FileTree := do
  let above := (List.range place.length).map fun n => place.take n
  let fresh := above.filter fun folder => !t.folders.contains folder
  let found ← fresh.filterM fun folder => do
    let real ← (IO.FS.realPath (placeText folder)).toBaseIO
    match real with
    | .ok path => path.isDir
    | .error _ => return false
  return { t with folders := t.folders ++ found }

/-- Reads what is at a place and below it, unless it is known already. -/
def readNew (t : FileTree) (place : Place) : IO FileTree := do
  if (Table.get? place t.files).isSome || t.folders.contains place then return t
  else readAt [] place (t.without place)

/-- The folder of a project, which a path names itself or by the file of its settings. -/
def projectFolder (p : Path) : IO Place := do
  try
    let data ← (← IO.FS.realPath p.toText).metadata
    return if data.type == .dir then p.segments else p.parent.segments
  catch _ => return p.segments

/-- The places that the arguments name: the folders of projects, and the log file. -/
def namedPlaces (here : Path) (a : Command.Arguments) : IO (List Place) := do
  let place (text : String) : Path := here.resolve (Path.ofString text)
  let setUp :=
    match a.request with
    | .setUp folder _ => [folder]
    | _ => []
  let projects ← (a.settingsPath.toList ++ setUp).mapM fun text => projectFolder (place text)
  return projects ++ a.logFile.toList.map fun text => (place text).segments

/-- The places that a command line given in the current folder can be about: that folder, what the
arguments name, and the folders of packages above. -/
def places (here : Path) (arguments : List String) : IO (List Place) := do
  let named ←
    match Command.Arguments.ofList arguments with
    | .ok a => namedPlaces here a
    | .error _ => pure []
  let packages := here.ancestors.map fun folder => (folder.child "node_modules").segments
  return here.segments :: named ++ packages

/-- The files that a command line can be about. Files that are changed count as newer than all that
are there. -/
def readTree (arguments : List String) : IO FileTree := do
  let here := Path.ofString (← IO.currentDir).toString
  let places ← places here arguments
  let start : FileTree := { here := here.segments, clock := 0, folders := [], files := [] }
  let t ← places.foldlM withFoldersAbove (← places.foldlM readNew start)
  let latest := t.files.foldl (fun time (_, content) => max time content.modified) 0
  return { t with clock := latest + 1 }

/-- Writes the folders and files that were made or changed after the tree was read. -/
def writeBack (before after : FileTree) : IO Unit := do
  for place in after.folders.drop before.folders.length do
    IO.FS.createDirAll (placeText place)
  for (place, content) in after.files do
    if content.modified == before.clock then
      IO.FS.writeBinFile (placeText place) ⟨content.bytes.toArray⟩

/-- A text that ends in a line end unless it is empty. -/
def closed (text : String) : String :=
  if text.isEmpty || text.endsWith "\n" then text else text ++ "\n"

/-- Answers a command line; gives the exit code. -/
def answer (arguments : List String) : IO UInt32 := do
  let started ← IO.monoMsNow
  let tree ← readTree arguments
  let seconds := secondsText ((← IO.monoMsNow) - started)
  let (outcome, s) := (Command.run arguments).run.run { tree := tree, elapsed := seconds }
  writeBack tree s.tree
  match outcome with
  | .ok shown =>
    IO.print shown.output
    IO.eprint (closed shown.console)
    return UInt32.ofNat shown.code
  | .error e =>
    IO.eprint (closed e.message)
    return 1

end StoryRegistry.Program

/-- Answers the command line. -/
def main (arguments : List String) : IO UInt32 := StoryRegistry.Program.answer arguments
