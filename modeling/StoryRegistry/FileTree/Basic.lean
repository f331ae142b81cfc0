import StoryRegistry.FileTree.Error
import StoryRegistry.Path
import StoryRegistry.Table

/-!
# File trees

A file tree is a set of folders and a table of files, each at a place: the list of segments that
leads to it from the root. A path is followed segment by segment, so that it can only go through
folders that are there, and `..` leads to the folder above the one reached so far.
-/

set_option autoImplicit false

namespace StoryRegistry

/-- A place in a file tree: the segments that lead to it from the root. -/
abbrev Place := List String

/-- What a file holds, and when it was last changed, in millionths of a second. -/
structure Stored where
  bytes : List UInt8
  modified : Int
deriving DecidableEq, Inhabited

/-- Folders and files. -/
structure FileTree where
  /-- The folder from which relative paths start. -/
  here : Place
  /-- The time at which files are changed. -/
  clock : Int
  folders : List Place
  files : List (Place × Stored)
deriving DecidableEq, Inhabited

/-- What is at a place. -/
inductive Spot where
  | folder (place : Place)
  | file (place : Place) (content : Stored)
  /-- Nothing is there, but the folder above is. -/
  | free (place : Place)
deriving DecidableEq, Inhabited

namespace FileTree

/-- The most bytes of a segment. -/
def longestName : Nat := 255

/-- The most bytes of a path. -/
def longestPath : Nat := 4095

/-- What is at a place. The root is always a folder. -/
def spot (t : FileTree) (place : Place) : Spot :=
  match Table.get? place t.files with
  | some content => .file place content
  | none => if place.isEmpty || t.folders.contains place then .folder place else .free place

/-- Follows segments from a place on. -/
def walk (t : FileTree) : Place → List String → Except Fault Spot
  | place, [] => .ok (t.spot place)
  | place, segment :: rest =>
    match t.spot place with
    | .free _ => .error .missing
    | .file _ _ => .error .notFolder
    | .folder _ =>
      if segment == ".." then t.walk place.dropLast rest
      else if longestName < segment.utf8ByteSize then .error .nameTooLong
      else t.walk (place ++ [segment]) rest

/-- What a path leads to. -/
def find (t : FileTree) (p : Path) : Except FileError Spot :=
  let text := p.toText
  if !Text.isWritable text then .error .unwritable
  else if text.toList.contains '\x00' then .error .nullInPath
  else if longestPath < text.utf8ByteSize then .error (.fault .nameTooLong text)
  else
    match t.walk (if p.isAbsolute then [] else t.here) p.segments with
    | .ok spot => .ok spot
    | .error kind => .error (.fault kind text)

/-- A test of what a path leads to, where a path that leads nowhere fails it. -/
def test (t : FileTree) (p : Path) (accepts : Spot → Bool) : Except FileError Bool :=
  match t.find p with
  | .ok spot => .ok (accepts spot)
  | .error e => if e.isAbsence then .ok false else .error e

/-- A file is there. -/
def isFile (t : FileTree) (p : Path) : Except FileError Bool :=
  t.test p fun spot =>
    match spot with
    | .file _ _ => true
    | _ => false

/-- A folder is there. -/
def isFolder (t : FileTree) (p : Path) : Except FileError Bool :=
  t.test p fun spot =>
    match spot with
    | .folder _ => true
    | _ => false

/-- A file or a folder is there. -/
def isThere (t : FileTree) (p : Path) : Except FileError Bool :=
  t.test p fun spot =>
    match spot with
    | .free _ => false
    | _ => true

/-- The file that a path leads to. -/
def file (t : FileTree) (p : Path) : Except FileError Stored := do
  match ← t.find p with
  | .file _ content => .ok content
  | .folder _ => .error (.fault .isFolder p.toText)
  | .free _ => .error (.fault .missing p.toText)

/-- The line ends of a text, each as a line feed. -/
def plainLines : List Char → List Char
  | '\r' :: '\n' :: rest => '\n' :: plainLines rest
  | '\r' :: rest => '\n' :: plainLines rest
  | c :: rest => c :: plainLines rest
  | [] => []

/-- The text in the file that a path leads to, with every line end as a line feed. -/
def readText (t : FileTree) (p : Path) : Except FileError String := do
  match Text.Utf8.decode (← t.file p).bytes with
  | .ok text => .ok (String.ofList (plainLines text.toList))
  | .error bytes => .error (.malformed bytes)

/-- The bytes that a folder takes up by itself. -/
def folderSize : Nat := 4096

/-- The size of what a path leads to; nought if it leads nowhere. -/
def size (t : FileTree) (p : Path) : Except FileError Nat :=
  match t.find p with
  | .ok (.file _ content) => .ok content.bytes.length
  | .ok (.folder _) => .ok folderSize
  | .ok (.free _) => .ok 0
  | .error e => if e.isFault then .ok 0 else .error e

/-- When the file that a path leads to was changed; none if there is no such file. -/
def modified? (t : FileTree) (p : Path) : Except FileError (Option Int) :=
  match t.find p with
  | .ok (.file _ content) => .ok (some content.modified)
  | .ok (.folder _) => .ok (some t.clock)
  | .ok (.free _) => .ok none
  | .error e => if e.isFault then .ok none else .error e

/-- The names of what lies directly in a folder. -/
def names (t : FileTree) (folder : Place) : List String :=
  (Table.names t.files ++ t.folders).filterMap fun place =>
    if !place.isEmpty && place.dropLast == folder then place.getLast? else none

/-- The names of what lies directly in the folder that a path leads to. -/
def list (t : FileTree) (p : Path) : Except FileError (List String) := do
  match ← t.find p with
  | .folder place => .ok (t.names place)
  | .file _ _ => .error (.fault .notFolder p.toText)
  | .free _ => .error (.fault .missing p.toText)

/-- What leads to a place from a place above it. -/
def below? (above place : Place) : Option (List String) :=
  if above.isPrefixOf place then some (place.drop above.length) else none

/-- The ways to all folders below a folder, and to the folder itself. -/
def foldersBelow (t : FileTree) (folder : Place) : List (List String) :=
  [] :: (t.folders.filterMap (below? folder)).filter fun way => !way.isEmpty

/-- The ways to all files below a folder. -/
def filesBelow (t : FileTree) (folder : Place) : List (List String) :=
  (Table.names t.files).filterMap (below? folder)

end FileTree

end StoryRegistry
