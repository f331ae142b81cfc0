import StoryRegistry.FileTree.Change
import StoryRegistry.Failure
import StoryRegistry.Log
import StoryRegistry.Registry.Item

/-!
# Sessions

A session is what the steps of a pipeline share: the file tree, the versions of packages looked up
so far, the log, and what the step at hand has found. A step gives a result or a failure; either
way the session keeps what was done up to then.
-/

set_option autoImplicit false

namespace StoryRegistry

/-- What a run over story files has found and made. -/
structure Report where
  success : Bool := false
  /-- The registry that was made and written. -/
  registry : Option Registry := none
  /-- How many story files were read. -/
  processed : Nat := 0
  /-- How many items were made. -/
  generated : Nat := 0
  errorCount : Nat := 0
  warningCount : Nat := 0
  /-- The failures that did not stop the run, and then the one that did. -/
  errors : List Failure := []
  cycles : List (List String) := []
deriving Inhabited

namespace Report

/-- The items that were made. -/
def items (r : Report) : List Item := (r.registry.map Registry.items).getD []

end Report

/-- The state that the steps of a pipeline share. -/
structure Session where
  tree : FileTree
  /-- The version of each package that was looked up. -/
  versions : Table (Option String) := []
  /-- Everything told so far, in order. -/
  log : List LogLine := []
  /-- What the run at hand has found. -/
  report : Report := {}
  /-- How many seconds a run takes, in the words in which the log tells it. -/
  elapsed : String := "0.00"
deriving Inhabited

/-- A step in a session that can fail. -/
abbrev Run (α : Type) := ExceptT Failure (StateM Session) α

namespace Run

variable {α : Type}

/-- Adds lines to the log. -/
def tellAll (lines : List LogLine) : Run Unit := modify fun s => { s with log := s.log ++ lines }

/-- Adds a line to the log. -/
def tell (level : Level) (message : String) : Run Unit := tellAll [⟨level, message⟩]

/-- Fails if the outcome is a failure. -/
def ofExcept : Except Failure α → Run α
  | .ok a => return a
  | .error e => throw e

/-- Fails if the outcome is an error of a file. -/
def ofFile : Except FileError α → Run α
  | .ok a => return a
  | .error e => throw (.file e)

/-- The file tree. -/
def tree : Run FileTree := do return (← get).tree

/-- Looks something up in the file tree. -/
def look (f : FileTree → Except FileError α) : Run α := do ofFile (f (← tree))

/-- Changes the file tree. -/
def change (c : Change α) : Run α := do
  let s ← get
  let (outcome, tree) := c.run.run s.tree
  set { s with tree := tree }
  ofFile outcome

/-- Does a step if it is asked for. -/
def when (asked : Bool) (step : Run Unit) : Run Unit := if asked then step else return

/-- Does a step and gives its failure as a result. -/
def attempt (step : Run α) : Run (Except Failure α) :=
  tryCatch (step.bind fun a => return .ok a) fun e => return .error e

/-- Changes what the run at hand has found. -/
def note (f : Report → Report) : Run Unit := modify fun s => { s with report := f s.report }

/-- The text in the file that a path leads to. -/
def text (p : Path) : Run String := look fun t => t.readText p

/-- A file is there. -/
def isFile (path : String) : Run Bool := look fun t => t.isFile (Path.ofString path)

end Run

namespace Failure

/-- The failure of a step that is at fault with a file that cannot be read. -/
def unread? : Failure → Option FileError
  | .file e => if e.isUnreadable then some e else none
  | _ => none

/-- The failure is one of the pipeline's own or a fault of the file tree, so that a run can report
it. -/
def isReported (f : Failure) : Bool :=
  match f with
  | .file e => e.isFault
  | f => f.code?.isSome

end Failure

end StoryRegistry
