import StoryRegistry.FileTree.Basic

/-!
# Changing a file tree

A change either succeeds or stops at an error; what it had done before the error stays done.
-/

set_option autoImplicit false

namespace StoryRegistry

/-- A change of a file tree that can fail. -/
abbrev Change (α : Type) := ExceptT FileError (StateM FileTree) α

namespace FileTree

/-- The tree with a new folder. -/
def addFolder (t : FileTree) (place : Place) : FileTree := { t with folders := t.folders ++ [place] }

/-- The tree with a file at a place, changed now. -/
def putFile (t : FileTree) (place : Place) (bytes : List UInt8) : FileTree :=
  { t with files := Table.set place ⟨bytes, t.clock⟩ t.files }

/-- The tree without what lies at a place and below it. -/
def without (t : FileTree) (place : Place) : FileTree :=
  { t with
    folders := t.folders.filter fun other => !place.isPrefixOf other
    files := t.files.filter fun (other, _) => !place.isPrefixOf other }

end FileTree

namespace Change

/-- What a path leads to. -/
def find (p : Path) : Change Spot := do
  match (← get).find p with
  | .ok spot => return spot
  | .error e => throw e

/-- Makes a folder where nothing is yet. -/
def newFolder (p : Path) : Change Unit := do
  match ← find p with
  | .free place => modify fun t => t.addFolder place
  | _ => throw (.fault .occupied p.toText)

/-- Passes over an error if a folder is there. -/
def unlessFolder (p : Path) (e : FileError) : Change Unit := do
  match (← get).isFolder p with
  | .ok true => return
  | .ok false => throw e
  | .error other => throw other

/-- Makes a folder, unless it is there already. -/
def folder (p : Path) : Change Unit :=
  tryCatch (newFolder p) fun e =>
    match e with
    | .fault .missing _ => throw e
    | .fault _ _ => unlessFolder p e
    | _ => throw e

/-- Makes a folder and the folders above it; `depth` is how many segments it has. -/
def foldersFrom : Nat → Path → Change Unit
  | 0, p => folder p
  | depth + 1, p =>
    tryCatch (folder p) fun e =>
      match e with
      | .fault .missing _ => do
        foldersFrom depth p.parent
        folder p
      | e => throw e

/-- Makes a folder and the folders above it, where they are not there. -/
def folders (p : Path) : Change Unit := foldersFrom p.segments.length p

/-- Puts bytes into a file. -/
def write (p : Path) (bytes : List UInt8) : Change Unit := do
  match ← find p with
  | .file place _ | .free place => modify fun t => t.putFile place bytes
  | .folder _ => throw (.fault .isFolder p.toText)

/-- Puts a text into a file; a text that has no UTF-8 form leaves the file empty. -/
def writeText (p : Path) (text : String) : Change Unit := do
  match Text.Utf8.encode? text with
  | some bytes => write p bytes
  | none => do
    write p []
    throw .unwritable

/-- Adds a text at the end of a file, which is made if it is not there. -/
def appendText (p : Path) (text : String) : Change Unit := do
  match ← find p with
  | .file _ content => write p (content.bytes ++ text.toUTF8.data.toList)
  | .free _ => write p text.toUTF8.data.toList
  | .folder _ => throw (.fault .isFolder p.toText)

/-- Removes a file, or a folder with all that lies in it. -/
def delete (p : Path) : Change Unit := do
  match ← find p with
  | .file place _ | .folder place => modify fun t => t.without place
  | .free _ => throw (.fault .missing p.toText)

/-- Sets the time at which a file was changed. -/
def touch (p : Path) (time : Int) : Change Unit := do
  match ← find p with
  | .file place content =>
    modify fun t => { t with files := Table.set place { content with modified := time } t.files }
  | .folder _ => return
  | .free _ => throw (.fault .missing p.toText)

end Change

end StoryRegistry
