import StoryRegistry.Session.Basic
import StoryRegistry.Story.Reading

/-!
# Reading the story files of a project

Each file is read by itself, and one that cannot be read does not keep others from being read. Only
if all fail there is nothing to go on with.
-/

set_option autoImplicit false

namespace StoryRegistry.Stories

/-- The story file at a path. -/
def read (path : String) : Run StoryFile := do
  let place := (Path.mk 1 (← Run.tree).here).resolve (Path.ofString path)
  match ← Run.attempt (Run.text place) with
  | .ok source => Run.ofExcept (StoryFile.ofSource place.toText source)
  | .error e =>
    match e.unread? with
    | some cause => throw (.unreadableStory place.toText cause)
    | none => throw e

/-- The failure belongs to the story file, so that others can still be read. -/
def isOwn : Failure → Bool
  | .unreadableStory _ _ | .missingMeta _ => true
  | _ => false

/-- Story files that were read, and the failures of those that were not. -/
structure Batch where
  stories : List StoryFile := []
  /-- The paths of the files that were not read, each with its failure. -/
  failures : List (String × Failure) := []
deriving Inhabited

/-- Reads one more story file. -/
def readInto (batch : Batch) (path : String) : Run Batch := do
  match ← Run.attempt (read path) with
  | .ok f => return { batch with stories := batch.stories ++ [f] }
  | .error e =>
    if isOwn e then
      Run.tell .warning ("Failed to parse " ++ path ++ ": " ++ e.message)
      return { batch with failures := batch.failures ++ [(path, e)] }
    else throw e

/-- Reads the story files at the paths; it fails if there are some and none can be read. -/
def readAll (paths : List String) : Run Batch := do
  let batch ← paths.foldlM readInto {}
  if batch.stories.isEmpty && !batch.failures.isEmpty then
    throw (.noStoryRead (batch.failures.map Prod.snd))
  return batch

end StoryRegistry.Stories
