import StoryRegistry.Registry.Item
import StoryRegistry.Value.Shown
import StoryRegistry.Failure

/-!
# Reading registry documents

A document is read into an item or a registry, or refused with every finding: first those about the
known fields in their order, then the entries that are no fields. A field may be known under two
names; where both are given the second one is no field.
-/

set_option autoImplicit false

namespace StoryRegistry

/-- What is wrong at a place of a document. -/
structure Finding where
  place : List String
  message : String
deriving DecidableEq, Inhabited

namespace Finding

/-- The finding as one line. -/
def text (f : Finding) : String :=
  (if f.place.isEmpty then "<root>" else ".".intercalate f.place) ++ ": " ++ f.message

/-- The finding seen from the container that holds `key`. -/
def inside (key : String) (f : Finding) : Finding := { f with place := key :: f.place }

end Finding

/-- The outcome of reading a part of a document: its value, or what is wrong with it. -/
inductive Reading (α : Type) where
  | value (a : α)
  | refused (findings : List Finding)
deriving Inhabited

namespace Reading

variable {α β : Type}

/-- A changed value. -/
def map (f : α → β) : Reading α → Reading β
  | value a => value (f a)
  | refused findings => refused findings

/-- Both parts have to be right; the findings of the first come first. -/
def apply (f : Reading (α → β)) (x : Reading α) : Reading β :=
  match f, x with
  | value f, value a => value (f a)
  | value _, refused found => refused found
  | refused found, value _ => refused found
  | refused found, refused more => refused (found ++ more)

/-- The outcome as it is seen from the container that holds `key`. -/
def inside (key : String) : Reading α → Reading α
  | value a => value a
  | refused findings => refused (findings.map (Finding.inside key))

/-- One finding about the part as a whole. -/
def refuse (message : String) : Reading α := refused [⟨[], message⟩]

/-- All parts have to be right. -/
def all : List (Reading α) → Reading (List α)
  | [] => value []
  | x :: rest => (x.map List.cons).apply (all rest)

instance : Functor Reading where
  map := map

instance : Applicative Reading where
  pure := value
  seq f x := apply f (x ())

end Reading

namespace Schema

/-- A text. -/
def text : Value → Reading String
  | .string s => .value s
  | _ => .refuse "Input should be a valid string"

/-- A text that has a UTF-8 form and is not empty. -/
def filledText (v : Value) : Reading String :=
  match v with
  | .string s =>
    if !Text.isWritable s then
      .refuse "Input should be a valid string, unable to parse raw data as a unicode string"
    else if s.isEmpty then .refuse "String should have at least 1 character"
    else .value s
  | _ => .refuse "Input should be a valid string"

/-- A character of an item name. -/
def isNameChar (c : Char) : Bool := c.isLower || c.isDigit

/-- The text is an item name: words of small letters and digits with single hyphens between them. -/
def isItemName (s : String) : Bool :=
  (Text.splitOn '-' s.toList).all fun word => !word.isEmpty && word.all isNameChar

/-- An item name. -/
def itemName (v : Value) : Reading String :=
  match filledText v with
  | .value s =>
    if isItemName s then .value s
    else .refuse "String should match pattern '^[a-z0-9]+(?:-[a-z0-9]+)*$'"
  | refused => refused

/-- The message for a text that is no item type: it lists the types. -/
def typeMessage : String :=
  let quoted := ItemType.all.map fun t => "'" ++ t.text ++ "'"
  "Input should be " ++ ", ".intercalate quoted.dropLast ++ " or " ++ quoted.getLastD ""

/-- An item type. -/
def itemType : Value → Reading ItemType
  | .string s =>
    match ItemType.ofText? s with
    | some t => .value t
    | none => .refuse typeMessage
  | _ => .refuse typeMessage

/-- Each item of a list, from the given position on. -/
def readItems {α : Type} (read : Value → Reading α) (items : List Value) : Reading (List α) :=
  .all (items.zipIdx.map fun (v, i) => (read v).inside (toString i))

/-- A list. -/
def list {α : Type} (read : Value → Reading α) : Value → Reading (List α)
  | .list items => readItems read items
  | _ => .refuse "Input should be a valid list"

/-- A list with an item. -/
def filledList {α : Type} (read : Value → Reading α) (v : Value) : Reading (List α) :=
  match list read v with
  | .value [] => .refuse "List should have at least 1 item after validation, not 0"
  | outcome => outcome

/-- A map whose entries are read alike. -/
def table {α : Type} (read : Value → Reading α) : Value → Reading (Table α)
  | .map entries =>
    .all (entries.map fun (name, v) => ((read v).map fun a => (name, a)).inside (writtenName name))
  | _ => .refuse "Input should be a valid dictionary"

/-- Null, or what `read` takes. -/
def optional {α : Type} (read : Value → Reading α) (v : Value) : Reading (Option α) :=
  match v with
  | .null => .value none
  | v => (read v).map some

/-- The first of a field's names under which the entries have it, with its value. -/
def given? (names : List String) (entries : Table Value) : Option (String × Value) :=
  names.findSome? fun name => (Table.get? name entries).map fun v => (name, v)

/-- A field that has to be there. -/
def required {α : Type} (name : String) (read : Value → Reading α) (entries : Table Value) :
    Reading α :=
  match Table.get? name entries with
  | some v => (read v).inside name
  | none => Reading.inside name (.refuse "Field required")

/-- A field that may be absent. -/
def field {α : Type} (names : List String) (absent : α) (read : Value → Reading α)
    (entries : Table Value) : Reading α :=
  match given? names entries with
  | some (name, v) => (read v).inside name
  | none => .value absent

/-- Refuses the entries that are none of the fields, each given by its names. -/
def nothingElse (fields : List (List String)) (entries : Table Value) : Reading Unit :=
  let taken := fields.filterMap fun names => (given? names entries).map Prod.fst
  let others := (entries.filter fun (name, _) => !taken.contains name).map Prod.fst
  if others.isEmpty then .value ()
  else .refused (others.map fun name => ⟨[writtenName name], "Extra inputs are not permitted"⟩)

/-- A map of fields that makes up an instance of the named kind. -/
def record {α : Type} (kind : String) (read : Table Value → Reading α) : Value → Reading α
  | .map entries => read entries
  | _ => .refuse ("Input should be a valid dictionary or instance of " ++ kind)

/-- A shipped file. -/
def itemFile : Value → Reading ItemFile :=
  record "RegistryFile" fun entries =>
    (fun path type target (_ : Unit) => { path := path, type := type, target := target : ItemFile }) <$>
      required "path" filledText entries <*>
      required "type" itemType entries <*>
      field ["target"] none (optional text) entries <*>
      nothingElse [["path"], ["type"], ["target"]] entries

/-- Style variables. -/
def styleVars : Value → Reading StyleVars :=
  record "CssVars" fun entries =>
    (fun theme light dark (_ : Unit) => { theme := theme, light := light, dark := dark : StyleVars }) <$>
      field ["theme"] none (optional (table text)) entries <*>
      field ["light"] none (optional (table text)) entries <*>
      field ["dark"] none (optional (table text)) entries <*>
      nothingElse [["theme"], ["light"], ["dark"]] entries

/-- Style sheet settings. -/
def tailwind : Value → Reading Tailwind :=
  record "Tailwind" fun entries =>
    (fun config (_ : Unit) => { config := config : Tailwind }) <$>
      field ["config"] none (optional (table .value)) entries <*>
      nothingElse [["config"]] entries

/-- Where the schema of items is found. -/
def itemSchema : String := "https://ui.shadcn.com/schema/registry-item.json"

/-- Where the schema of registries is found. -/
def registrySchema : String := "https://ui.shadcn.com/schema/registry.json"

/-- The names of the schema entry. -/
def schemaNames : List String := ["$schema", "schema_url"]

/-- The names of the entry for dependencies on other items. -/
def registryDependenciesNames : List String := ["registryDependencies", "registry_dependencies"]

/-- The names of the entry for style variables. -/
def styleVarsNames : List String := ["cssVars", "css_vars"]

/-- The entries of an item. -/
def itemEntries (entries : Table Value) : Reading Item :=
  (fun schema name type title description author dependencies registryDependencies files vars
      wind (_ : Unit) =>
    { schema := schema, name := name, type := type, title := title, description := description
      author := author, dependencies := dependencies, registryDependencies := registryDependencies
      files := files, styleVars := vars, tailwind := wind : Item }) <$>
    field schemaNames itemSchema text entries <*>
    required "name" itemName entries <*>
    required "type" itemType entries <*>
    required "title" text entries <*>
    required "description" text entries <*>
    field ["author"] none (optional text) entries <*>
    field ["dependencies"] none (optional (list text)) entries <*>
    field registryDependenciesNames none (optional (list text)) entries <*>
    required "files" (filledList itemFile) entries <*>
    field styleVarsNames none (optional styleVars) entries <*>
    field ["tailwind"] none (optional tailwind) entries <*>
    nothingElse
      [schemaNames, ["name"], ["type"], ["title"], ["description"], ["author"], ["dependencies"],
        registryDependenciesNames, ["files"], styleVarsNames, ["tailwind"]] entries

/-- The entries of a registry, whether or not two items share a name. -/
def registryEntries (entries : Table Value) : Reading Registry :=
  (fun schema name homepage items (_ : Unit) =>
    { schema := schema, name := name, homepage := homepage, items := items : Registry }) <$>
    field schemaNames registrySchema text entries <*>
    required "name" filledText entries <*>
    field ["homepage"] none (optional text) entries <*>
    field ["items"] [] (list (record "RegistryItem" itemEntries)) entries <*>
    nothingElse [schemaNames, ["name"], ["homepage"], ["items"]] entries

/-- The names that occur more than once, in the order in which they recur, each once; `seen` and
`found` hold what came before. -/
def recurring : List String → List String → List String → List String
  | _, found, [] => found.reverse
  | seen, found, name :: rest =>
    let found := if seen.contains name && !found.contains name then name :: found else found
    recurring (name :: seen) found rest

/-- A registry in which no two items share a name. -/
def distinctItems (r : Registry) : Reading Registry :=
  match recurring [] [] (r.items.map Item.name) with
  | [] => .value r
  | names => .refuse ("Value error, duplicate item names: " ++ ", ".intercalate names)

end Schema

/-- The item of a document; `file` is where the document comes from. -/
def Item.ofDocument (entries : Table Value) (file : Option String) : Except Failure Item :=
  match Schema.itemEntries entries with
  | .value item => .ok item
  | .refused findings =>
    let name := Value.entry "name" entries
    .error (.invalidItem (if name.isPresent then some name.shown else none)
      (findings.map Finding.text) file)

/-- The registry of a document. -/
def Registry.ofDocument (entries : Table Value) : Except Failure Registry :=
  let outcome :=
    match Schema.registryEntries entries with
    | .value r => Schema.distinctItems r
    | refused => refused
  match outcome with
  | .value r => .ok r
  | .refused findings => .error (.invalidRegistry (findings.map Finding.text))

end StoryRegistry
