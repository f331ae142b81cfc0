import StoryRegistry.Docs.Snippet
import StoryRegistry.Failure
import StoryRegistry.Value.Shown
import StoryRegistry.Registry.ItemType

/-!
# Documentation pages

The page of an item tells how to install and import it and shows its examples. It is made from the
item's document, which need not be complete; what has to be there is its name, and the path of each
file that can be imported.
-/

set_option autoImplicit false

namespace StoryRegistry.Docs

open StoryRegistry.Text

/-- What a page holds. -/
structure Page where
  title : Value
  description : Value
  installation : List String
  imports : List String
  examples : List String
deriving Inhabited

/-- An entry that has to be there. -/
def entry (name : String) (document : Table Value) : Except Failure Value :=
  match Table.get? name document with
  | some v => .ok v
  | none => .error (.missingEntry name)

/-- The texts that are written one after another for a list of packages. -/
def packages (v : Value) : Except Failure (List String) :=
  if !v.isPresent then .ok []
  else
    match v with
    | .list items => items.mapM fun item =>
      match item with
      | .string s => .ok s
      | _ => .error .wrongType
    | .string s => .ok (s.toList.map String.singleton)
    | .map entries => .ok (Table.names entries)
    | _ => .error .wrongType

/-- The commands that install an item. -/
def installation (document : Table Value) : Except Failure (List String) := do
  let name ← entry "name" document
  let needed ← packages (Value.entry "dependencies" document)
  let first := "npx shadcn@latest add " ++ name.shown
  if !(Value.entry "dependencies" document).isPresent then return [first]
  else return [first, "npm install " ++ " ".intercalate needed]

/-- The endings of source files. -/
def sourceEndings : List String := [".tsx", ".ts", ".jsx", ".js"]

/-- The file's name without the ending of a source file, which may stand before a last line feed. -/
def fileStem (path : String) : List Char :=
  let name := (splitOn '/' path.toList).getLastD []
  let cut? (ending finish : List Char) : Option (List Char) :=
    (dropStart? (ending ++ finish).reverse name.reverse).map fun stem => stem.reverse ++ finish
  let cuts := sourceEndings.map String.toList
  ((cuts.findSome? fun e => cut? e []) <|> (cuts.findSome? fun e => cut? e ['\n'])).getD name

/-- The component that a file exports: its hyphenated name as one word. -/
def componentOf (path : String) : String := Naming.pascal (String.ofList (fileStem path))

/-- The hook that a file exports: its hyphenated name as one word that begins with `use`. -/
def hookOf (path : String) : String :=
  let stem := fileStem path
  match dropStart? "use-".toList stem with
  | some rest => "use" ++ Naming.pascal (String.ofList rest)
  | none => String.ofList stem

/-- The entries of a file, which has to be a map. -/
def fileEntries (file : Value) : Except Failure (Table Value) :=
  match file with
  | .map entries => .ok entries
  | _ => .error .wrongOperation

/-- The path of a file, which has to be a text. -/
def filePath (entries : Table Value) : Except Failure String := do
  match ← entry "path" entries with
  | .string s => return s
  | _ => throw .wrongOperation

/-- The files of an item. -/
def files (v : Value) : Except Failure (List Value) :=
  if !v.isPresent then .ok []
  else
    match v with
    | .list items => .ok items
    | .string _ | .map _ => .error .wrongOperation
    | _ => .error .wrongType

/-- The file has the given type. -/
def hasType (t : ItemType) (entries : Table Value) : Bool :=
  match Value.entry "type" entries with
  | .string s => s == t.text
  | _ => false

/-- The first file that holds a component. -/
def componentFile? : List Value → Except Failure (Option (Table Value))
  | [] => .ok none
  | file :: rest => do
    let entries ← fileEntries file
    match Value.entry "type" entries with
    | .list _ | .map _ => throw .wrongType
    | _ =>
      if hasType .component entries || hasType .ui entries then return some entries
      else componentFile? rest

/-- The line that imports `name` from `source`. -/
def importLine (name source : String) : String :=
  "import \x7b " ++ name ++ " \x7d from \"" ++ source ++ "\""

/-- The lines that import the hooks among the files. -/
def hookImports : List Value → Except Failure (List String)
  | [] => .ok []
  | file :: rest => do
    let entries ← fileEntries file
    if hasType .hook entries then
      let hook := hookOf (← filePath entries)
      return importLine hook ("@/hooks/" ++ hook) :: (← hookImports rest)
    else hookImports rest

/-- The lines that import what an item offers. -/
def imports (document : Table Value) : Except Failure (List String) := do
  let shipped ← files (Value.entry "files" document)
  let components ←
    match ← componentFile? shipped with
    | some entries => do
      let component := componentOf (← filePath entries)
      let name ← entry "name" document
      pure [importLine component ("@/components/ui/" ++ name.shown)]
    | none => pure []
  return components ++ (← hookImports shipped)

/-- The page of the item that a story file gave. -/
def Page.ofItem (f : StoryFile) (document : Table Value) : Except Failure Page := do
  let commands ← Docs.installation document
  let lines ← Docs.imports document
  if !f.componentName.isEmpty && !argsFit f then throw .badNumber
  return {
    title := (Table.get? "title" document).getD (.string f.componentName)
    description := (Table.get? "description" document).getD (.string "")
    installation := commands
    imports := lines
    examples := Docs.examples f }

/-- The lines of a fenced block. -/
def fenced (language : String) (lines : List String) : List String :=
  ("\x60\x60\x60" ++ language) :: lines ++ ["\x60\x60\x60"]

/-- The lines of a page; a section without content is left out. -/
def Page.lines (p : Page) : List String :=
  ["# " ++ p.title.shown, "", p.description.shown, "", "## Installation", ""] ++
    fenced "bash" p.installation ++
    (if p.imports.isEmpty then [] else ["", "## Usage", ""] ++ fenced "tsx" p.imports) ++
    (if p.examples.isEmpty then []
      else ["", "## Examples"] ++ p.examples.flatMap fun e => "" :: fenced "tsx" [e])

/-- The page as text. -/
def Page.text (p : Page) : String := "\n".intercalate p.lines ++ "\n"

/-- The page as a value. -/
def Page.document (p : Page) : Value :=
  .map
    [("title", p.title), ("description", p.description),
     ("installation", .list (p.installation.map .string)),
     ("imports", .list (p.imports.map .string)), ("examples", .list (p.examples.map .string))]

end StoryRegistry.Docs
