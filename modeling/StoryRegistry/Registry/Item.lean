import StoryRegistry.Value
import StoryRegistry.Text.Surrogate
import StoryRegistry.Registry.ItemType

/-!
# Registry documents

An item is one installable unit with the files it ships; a registry is a named collection of items.
`Item.document` and `Registry.document` write them with the names that a registry's readers expect,
leaving out what is absent.
-/

set_option autoImplicit false

namespace StoryRegistry

/-- A file that an item ships. -/
structure ItemFile where
  path : String
  type : ItemType
  target : Option String := none
deriving DecidableEq, Inhabited

/-- Style variables by scope. -/
structure StyleVars where
  theme : Option (Table String) := none
  light : Option (Table String) := none
  dark : Option (Table String) := none
deriving DecidableEq, Inhabited

/-- Settings for the utility style sheet. -/
structure Tailwind where
  config : Option (Table Value) := none
deriving Inhabited

/-- One installable unit. -/
structure Item where
  schema : String
  name : String
  type : ItemType
  title : String
  description : String
  author : Option String := none
  dependencies : Option (List String) := none
  registryDependencies : Option (List String) := none
  files : List ItemFile
  styleVars : Option StyleVars := none
  tailwind : Option Tailwind := none
deriving Inhabited

/-- A named collection of items. -/
structure Registry where
  schema : String
  name : String
  homepage : Option String := none
  items : List Item
deriving Inhabited

/-- The entries of a document whose parts are present. -/
def presentEntries (parts : List (String × Option Value)) : Table Value :=
  parts.filterMap fun (name, part) => part.map fun v => (name, v)

/-- A list of texts as a value. -/
def Value.ofTexts (texts : List String) : Value := .list (texts.map .string)

namespace ItemFile

/-- The file as a part of a document. -/
def document (f : ItemFile) : Value :=
  .map (presentEntries
    [("path", some (.string f.path)), ("type", some (.string f.type.text)),
     ("target", f.target.map .string)])

end ItemFile

/-- The name of a map entry as it is written: what has no UTF-8 form becomes three replacement
characters, one for each byte that would stand for it. -/
def writtenName (name : String) : String :=
  String.ofList (name.toList.flatMap fun c =>
    if (Text.surrogate? c).isSome then ['\uFFFD', '\uFFFD', '\uFFFD'] else [c])

namespace StyleVars

/-- The variables of one scope. -/
def scopeDocument (vars : Table String) : Value :=
  .map (Table.ofList (vars.map fun (name, v) => (writtenName name, .string v)))

/-- The style variables as a part of a document. -/
def document (vars : StyleVars) : Value :=
  .map (presentEntries
    [("theme", vars.theme.map scopeDocument), ("light", vars.light.map scopeDocument),
     ("dark", vars.dark.map scopeDocument)])

end StyleVars

mutual

/-- A free value as it is written: numbers without digits become null, names are written names, and
source text is a map that holds it. -/
def Value.written : Value → Value
  | .double x =>
    match x with
    | .finite _ _ => .double x
    | _ => .null
  | .code text => .map [("source", .string text)]
  | .list items => .list (writtenItems items)
  | .map entries => .map (Table.ofList (writtenEntries entries))
  | v => v

/-- Each item of a list as it is written. -/
def Value.writtenItems : List Value → List Value
  | [] => []
  | v :: rest => v.written :: writtenItems rest

/-- Each entry of a map as it is written. -/
def Value.writtenEntries : List (String × Value) → List (String × Value)
  | [] => []
  | (name, v) :: rest => (writtenName name, v.written) :: writtenEntries rest

end

namespace Tailwind

/-- The style sheet settings as a part of a document. -/
def document (t : Tailwind) : Value :=
  .map (presentEntries [("config", t.config.map fun entries => (Value.map entries).written)])

end Tailwind

namespace Item

/-- The entries of an item's document. -/
def entries (i : Item) : Table Value :=
  presentEntries
    [("$schema", some (.string i.schema)), ("name", some (.string i.name)),
     ("type", some (.string i.type.text)), ("title", some (.string i.title)),
     ("description", some (.string i.description)), ("author", i.author.map .string),
     ("dependencies", i.dependencies.map .ofTexts),
     ("registryDependencies", i.registryDependencies.map .ofTexts),
     ("files", some (.list (i.files.map ItemFile.document))),
     ("cssVars", i.styleVars.map StyleVars.document),
     ("tailwind", i.tailwind.map Tailwind.document)]

/-- The document of an item. -/
def document (i : Item) : Value := .map i.entries

end Item

namespace Registry

/-- The document of a registry. -/
def document (r : Registry) : Value :=
  .map (presentEntries
    [("$schema", some (.string r.schema)), ("name", some (.string r.name)),
     ("homepage", r.homepage.map .string), ("items", some (.list (r.items.map Item.document)))])

end Registry

end StoryRegistry
