import StoryRegistry.Analysis.Complexity
import StoryRegistry.Issue
import StoryRegistry.Story.Basic

/-!
# How well a component is documented

Scores from 0 to 100 for documentation, stories and declared types, with the issues that a reader
of the story file should know of.
-/

set_option autoImplicit false

namespace StoryRegistry

/-- What is known about a story. -/
structure StoryInfo where
  name : String
  args : Table Value
  description : Option String
  tags : List String
deriving Inhabited

/-- The text under `docs.description`, by itself or under the given entry. -/
def docsDescription? (parameters : Option (Table Value)) (entry : String) : Option String :=
  match Value.entry "docs" (parameters.getD []) with
  | .map docs =>
    match Value.entry "description" docs with
    | .string s => if s.isEmpty then none else some s
    | .map entries => (Value.entry entry entries).asString?.filter (!·.isEmpty)
    | _ => none
  | _ => none

/-- The stories of a file: each under its display name, or else its export name. -/
def StoryFile.storyInfos (f : StoryFile) : List StoryInfo :=
  f.stories.map fun (exported, story) => {
    name := (story.name.filter (!·.isEmpty)).getD exported
    args := story.args.getD []
    description := docsDescription? story.parameters "story"
    tags := story.tags.getD [] }

/-- The scores of a component, with its issues. -/
structure Quality where
  documentation : Nat
  coverage : Nat
  completeness : Nat
  types : Nat
  overall : Nat
  issues : List Issue
deriving Inhabited

namespace Quality

/-- The average of four scores, a half rounded up. -/
def average (a b c d : Nat) : Nat := (a + b + c + d + 2) / 4

/-- The docs of the meta's parameters have a description of some kind. -/
def hasDescription (m : Meta) : Bool :=
  match Value.entry "docs" m.parameterTable with
  | .map docs => (Value.entry "description" docs).isPresent
  | _ => false

/-- Points for a condition. -/
def points (n : Nat) (condition : Bool) : Nat := if condition then n else 0

/-- The assessment of a story file whose component has the given complexity score. -/
def assess (f : StoryFile) (score : Int) (stories : List StoryInfo) : Quality :=
  let m := f.metadata
  let hasTypes := !(m.argTypes.getD []).isEmpty
  let documentation :=
    points 20 ((m.title.getD "") != "") + points 30 (hasDescription m) +
      points 25 (stories.any (·.description.isSome)) + points 25 hasTypes
  let coverage := min 100 (25 * stories.length)
  let completeness := min 100 (20 * stories.length)
  let types := points 100 hasTypes
  let issue (condition : Bool) (severity : Severity) (message : String) : List Issue :=
    if condition then [⟨severity, message, some f.path⟩] else []
  { documentation := documentation
    coverage := coverage
    completeness := completeness
    types := types
    overall := average documentation coverage completeness types
    issues :=
      issue (documentation < 50) .warning "Component lacks sufficient documentation" ++
        issue stories.isEmpty .error "No stories found for component" ++
        issue (!hasTypes) .info "Consider adding argTypes for better prop documentation" ++
        issue (80 < score) .warning "Component has high complexity, consider breaking it down" }

/-- The assessment of a component whose analysis failed. -/
def failed (path : String) : Quality :=
  ⟨0, 0, 0, 0, 0, [⟨.error, "Failed to analyze component", some path⟩]⟩

end Quality

end StoryRegistry
