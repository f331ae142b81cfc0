import StoryRegistry.Story.Basic
import StoryRegistry.Story.Outline
import StoryRegistry.Story.Guess
import StoryRegistry.Failure

/-!
# Reading story files

The meta is the object that is exported as the default, directly or through a variable; failing
that, the first object in a variable whose name mentions `meta`. A story is an exported object,
function or call; the variable that holds the meta is none.
-/

set_option autoImplicit false

namespace StoryRegistry

open StoryRegistry.Script

/-- The entries of an object expression inside any wrappers. -/
def Script.Expr.objectEntries? (e : Expr) : Option (Table Value) :=
  match e.peel with
  | .object text members => (Expr.object text members).value.asMap?
  | _ => none

namespace Outline

/-- The module has a default export. -/
def hasDefault (o : Outline) : Bool := o.defaultValue.isSome || o.defaultName.isSome

/-- The name that the default export refers to. -/
def referredName? (o : Outline) : Option String :=
  match o.defaultValue.map Expr.peel with
  | some (.name text) => some text
  | _ => o.defaultName

/-- The entries of the object in a variable. -/
def objectIn? (o : Outline) (name : String) : Option (Table Value) :=
  (Table.get? name o.bindings).bind Expr.objectEntries?

/-- The first object in a variable whose name mentions `meta`. -/
def likelyMeta? (o : Outline) : Option (Table Value × String) :=
  o.bindings.findSome? fun (name, e) =>
    if Text.occursIn "meta" (Text.lower name) then e.objectEntries?.map fun entries => (entries, name)
    else none

/-- The entries of the meta, and the variable that holds it, if one does. -/
def meta? (o : Outline) : Option (Table Value × Option String) :=
  if !o.hasDefault then none
  else
    match o.defaultValue.bind Expr.objectEntries? with
    | some entries => some (entries, none)
    | none =>
      let referred := do
        let name ← o.referredName?
        let entries ← o.objectIn? name
        some (entries, some name)
      referred <|> o.likelyMeta?.map fun (entries, name) => (entries, some name)

/-- The story as its initial value gives it. -/
def initialStory? (o : Outline) (name : String) : Option Story :=
  match (Table.get? name o.bindings).map Expr.peel with
  | some (.object text members) =>
    some (Story.setFields {} ((Expr.object text members).value.asMap?.getD []))
  | some (.function text) | some (.call text) => some { render := .code text }
  | some _ => none
  | none => (Table.get? name o.functions).map fun text => { render := .code text }

/-- The values assigned to the fields of a variable. -/
def assigned (o : Outline) (name : String) : Table Value :=
  Table.mapEntries Expr.value ((Table.get? name o.assignments).getD [])

/-- The story behind a local name. -/
def story? (o : Outline) (name : String) : Option Story :=
  (o.initialStory? name).map fun story => story.setFields (o.assigned name)

/-- The stories by export name; `held` is the variable that holds the meta. -/
def stories (o : Outline) (held : Option String) : Table Story :=
  o.exported.foldl
    (fun found (exported, name) =>
      if held == some name then found
      else
        match o.story? name with
        | some story => Table.set exported story found
        | none => found)
    []

end Outline

namespace StoryFile

/-- The story file that a module with the given imports is. -/
def ofOutline (path : String) (imports : List String) (o : Outline) : Except Failure StoryFile :=
  match o.meta? with
  | none => .error (.missingMeta path)
  | some (entries, held) =>
    let metadata := Meta.ofEntries entries
    let name :=
      if metadata.component.isNull then ""
      else (Story.componentName? metadata.component).getD Story.unknownComponent
    let componentPath :=
      if metadata.component.isNull then ""
      else (Story.componentPath? imports name).getD ""
    if !metadata.component.intsFit then .error .badNumber
    else .ok {
      path := Path.normalize path
      metadata := metadata
      stories := o.stories held
      imports := imports
      componentName := name
      componentPath := componentPath
      dependencies := Specifier.ofComponent imports }

/-- The story file with the given path and text. -/
def ofSource (path source : String) : Except Failure StoryFile :=
  let m := Module.ofFile path source
  ofOutline path m.imports (Outline.ofModule m)

end StoryFile

end StoryRegistry
