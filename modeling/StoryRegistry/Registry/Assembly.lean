import StoryRegistry.Registry.Choice
import StoryRegistry.Registry.Schema
import StoryRegistry.Naming
import StoryRegistry.Log
import StoryRegistry.Text.Order

/-!
# Assembling the registry

Each story file that names a component gives an item. What is put together for an item is a
document, which the schema then reads; an item that it refuses is left out, as is an item whose
name an earlier file took. The registry document is read by the schema as well.
-/

set_option autoImplicit false

namespace StoryRegistry

open StoryRegistry.Text

namespace Assembly

/-- The items that a registry is expected to offer. -/
def catalog : List String :=
  ["button", "input", "label", "card", "dialog", "dropdown-menu", "select", "checkbox",
    "radio-group", "switch", "textarea", "tooltip", "popover", "accordion", "alert", "badge", "avatar"]

/-- The folder in which a registry keeps the files of its items. -/
def basePath : String := "registry/default"

/-- The name that no item may take: its document would replace the registry's. -/
def reservedName : String := "registry"

/-- The item's title: the last part of the story's title, or else the component's name. -/
def title (f : StoryFile) : String :=
  match f.metadata.title.filter (!·.isEmpty) with
  | some t =>
    let last := trim ((splitOn '/' t.toList).getLastD [])
    if last.isEmpty then f.componentName else String.ofList last
  | none => Naming.spaced f.componentName

/-- The item's description. -/
def description (f : StoryFile) : String :=
  (docsDescription? f.metadata.parameters "component").getD
    ("A " ++ f.componentName ++ " component.")

/-- The packages the item needs, renamed, in order and each once. -/
def packages (renames : Table String) (f : StoryFile) : List String :=
  let renamed (specifier : String) : String :=
    ((Table.get? specifier renames).filter (!·.isEmpty)).getD specifier
  let needed := (f.dependencies.filter fun s => !Specifier.isRelative s).map renamed
  sorted (Glob.distinct (needed.filter (!·.isEmpty)))

/-- The catalogued items that an import mentions, in order; names that are part of the item's own
name are left out. -/
def mentioned (imports : List String) (own : String) : List String :=
  sorted (catalog.filter fun name =>
    (imports.any fun specifier => occursIn name (lower specifier)) && !occursIn name own)

/-- The files that an item of a type consists of. -/
def files (name : String) (type : ItemType) : List ItemFile :=
  let base := basePath ++ "/" ++ name
  match type with
  | .hook => [{ path := base ++ "/use-" ++ name ++ ".ts", type := .hook }]
  | .lib => [{ path := base ++ "/" ++ name ++ ".ts", type := .lib }]
  | .ui => [{ path := base ++ "/" ++ name ++ ".tsx", type := .ui }]
  | .block =>
    [{ path := base ++ "/" ++ name ++ ".tsx", type := .component },
     { path := base ++ "/index.ts", type := .component }]
  | _ => [{ path := base ++ "/" ++ name ++ ".tsx", type := .component }]

/-- The scopes that style variables can have. -/
def styleScopes : List String := ["theme", "light", "dark"]

/-- The style variables of a scope, shown as texts. -/
def shownVars (vars : Table Value) : Value :=
  .map (vars.map fun (name, v) => (name, .string v.spelled.shown))

/-- The style variables that the story's parameters give. -/
def styleVars (v : Value) : Table Value :=
  match v with
  | .map entries =>
    styleScopes.filterMap fun scope =>
      match Value.entry scope entries with
      | .map vars => some (scope, shownVars vars)
      | _ => none
  | _ => []

/-- Every integer among the style variables can be written. -/
def styleVarsFit (v : Value) : Bool :=
  match v with
  | .map entries =>
    styleScopes.all fun scope =>
      match Value.entry scope entries with
      | .map vars => Value.entriesFit vars
      | _ => true
  | _ => true

/-- The style sheet settings that the story's parameters give, if there are any. -/
def tailwind? (v : Value) : Option Value :=
  match v with
  | .map entries =>
    let config :=
      match Value.entry "config" entries with
      | .map inner => inner
      | _ => entries
    if config.isEmpty then none else some (.map [("config", (Value.map config).spelled)])
  | _ => none

/-- A part of a document that is left out when it is empty. -/
def unlessEmpty (texts : List String) : Option Value :=
  if texts.isEmpty then none else some (.ofTexts texts)

/-- The document put together for an item. -/
def draft (settings : Settings) (f : StoryFile) (analysis : Option Analysis) : Table Value :=
  let name := Naming.kebab f.componentName
  let type := settings.itemType f analysis
  let vars := styleVars (Value.entry "cssVars" f.metadata.parameterTable)
  presentEntries
    [("$schema", some (.string Schema.itemSchema)), ("name", some (.string name)),
     ("type", some (.string type.text)), ("title", some (.string (title f))),
     ("description", some (.string (description f))),
     ("dependencies", unlessEmpty (packages settings.renames f)),
     ("registryDependencies", unlessEmpty (mentioned f.imports name)),
     ("files", some (.list ((files name type).map ItemFile.document))),
     ("cssVars", if vars.isEmpty then none else some (.map vars)),
     ("tailwind", tailwind? (Value.entry "tailwind" f.metadata.parameterTable))]

/-- The item for a story file; none if the file names no component. -/
def item (settings : Settings) (f : StoryFile) (analysis : Option Analysis) :
    Except Failure (Option Item) :=
  if f.componentName.isEmpty then .ok none
  else
    let name := Naming.kebab f.componentName
    if name == reservedName then .error (.reservedName name f.path)
    else if !styleVarsFit (Value.entry "cssVars" f.metadata.parameterTable) then .error .badNumber
    else (Item.ofDocument (draft settings f analysis) (some f.path)).map some

/-- What becomes of a story file. -/
inductive Outcome where
  /-- The item is part of the registry. -/
  | kept (item : Item)
  /-- The file names no component. -/
  | unnamed
  /-- There is no item. -/
  | refused (cause : Failure)
  /-- The item's name was taken by the file `owner`. -/
  | taken (name owner : String)
  /-- The item cannot be put together at all, and with it the registry. -/
  | broken (cause : Failure)
deriving Inhabited

/-- What becomes of a story file when `owners` tells which file took each name. -/
def outcome (settings : Settings) (owners : Table String) (f : StoryFile)
    (analysis : Option Analysis) : Outcome :=
  match item settings f analysis with
  | .error cause => if cause.isVerdict then .refused cause else .broken cause
  | .ok none => .unnamed
  | .ok (some i) =>
    match Table.get? i.name owners with
    | some owner => .taken i.name owner
    | none => .kept i

/-- What becomes of each story file, an analysis going with the file at the same place; `owners` tells
which file took each name, and nothing comes after an item that cannot be put together. -/
def outcomes (settings : Settings) : Table String → List StoryFile → List (Option Analysis) →
    List (StoryFile × Outcome)
  | _, [], _ => []
  | owners, f :: rest, analyses =>
    let result := outcome settings owners f (analyses.head?.join)
    (f, result) ::
      match result with
      | .kept i => outcomes settings (owners ++ [(i.name, f.path)]) rest analyses.tail
      | .broken _ => []
      | _ => outcomes settings owners rest analyses.tail

/-- What is told about a story file. -/
def Outcome.line? (f : StoryFile) : Outcome → Option LogLine
  | kept _ | broken _ => none
  | unnamed => some ⟨.info, "Skipping " ++ f.path ++ ": no component reference in meta"⟩
  | refused cause =>
    some ⟨.warning, "Failed to generate registry item for " ++ f.path ++ ": " ++ cause.message ++
      " (" ++ "; ".intercalate cause.issues ++ ")"⟩
  | taken name owner =>
    some ⟨.warning, "Skipping " ++ f.path ++ ": item name '" ++ name ++
      "' already generated from " ++ owner⟩

/-- The item of a kept outcome. -/
def Outcome.item? : Outcome → Option Item
  | kept i => some i
  | _ => none

/-- The cause of a broken outcome. -/
def Outcome.cause? : Outcome → Option Failure
  | broken cause => some cause
  | _ => none

/-- The document put together for the registry. -/
def registryDraft (settings : Settings) (items : List Item) : Table Value :=
  presentEntries
    [("$schema", some (.string Schema.registrySchema)),
     ("name", some (.string settings.registryName)),
     ("homepage", (settings.homepage.filter (!·.isEmpty)).map .string),
     ("items", some (.list (items.map Item.document)))]

/-- The registry of the story files, with what is told about them. -/
def registry (settings : Settings) (stories : List StoryFile) (analyses : List (Option Analysis)) :
    List LogLine × Except Failure Registry :=
  let results := outcomes settings [] stories analyses
  (results.filterMap fun (f, result) => result.line? f,
   match results.findSome? fun (_, result) => result.cause? with
   | some cause => .error cause
   | none =>
     Registry.ofDocument
       (registryDraft settings (results.filterMap fun (_, result) => result.item?)))

end Assembly

end StoryRegistry
