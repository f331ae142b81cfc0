import StoryRegistry.Script.Module

/-!
# The outline of a module

Of a module's top level a story file needs the variables with their values, the declared functions,
what is exported under which name, and the assignments to fields of a variable. Of two variables
with one name the first counts; of two assignments to one field the later one does, at the place of
the first.
-/

set_option autoImplicit false

namespace StoryRegistry

open StoryRegistry.Script

/-- What a story file needs of the top level of a module. -/
structure Outline where
  bindings : Table Expr := []
  /-- The source text of each declared function. -/
  functions : Table String := []
  /-- Exported names, each with the local name behind it. -/
  exported : List (String × String) := []
  defaultValue : Option Expr := none
  /-- The local name that is exported as the default. -/
  defaultName : Option String := none
  /-- The fields assigned to each variable. -/
  assignments : Table (Table Expr) := []
deriving Inhabited

namespace Outline

/-- Takes the variables of one declaration into account. -/
def bind (o : Outline) (declared : List (String × Expr)) : Outline :=
  { o with bindings := declared.foldl (fun t (name, e) => Table.setNew name e t) o.bindings }

/-- Exports a local name. -/
def exportName (o : Outline) (exported name : String) : Outline :=
  if exported == "default" then { o with defaultName := some name }
  else { o with exported := o.exported ++ [(exported, name)] }

/-- Takes one statement into account. -/
def add (o : Outline) : Form → Outline
  | .bindings exported declared =>
    let o := o.bind declared
    if exported then
      { o with exported := o.exported ++ declared.map fun (name, _) => (name, name) }
    else o
  | .function exported name text =>
    let o := { o with functions := Table.setNew name text o.functions }
    if exported then { o with exported := o.exported ++ [(name, name)] } else o
  | .assignment target field value =>
    let fields := (Table.get? target o.assignments).getD []
    { o with assignments := Table.set target (Table.set field value fields) o.assignments }
  | .defaultExport e => { o with defaultValue := some e }
  | .exports names => names.foldl (fun o (exported, name) => o.exportName exported name) o
  | .other => o

/-- The outline of a module. -/
def ofModule (m : Module) : Outline := m.foldl (fun o s => o.add s.form) {}

end Outline

end StoryRegistry
