import StoryRegistry.Script.Statements
import StoryRegistry.Path

/-!
# Modules

A module is read into the list of its statements. Each statement comes with the specifiers of the
modules imported anywhere inside it, in the order of the text. A stretch of text that is no
statement is passed over up to the end of its line.
-/

set_option autoImplicit false

namespace StoryRegistry.Script

/-- The grammar one level deeper than the given one. -/
def Grammar.deepen (g : Grammar) : Grammar where
  elements := g.elements
  bound := g.bound
  assignment := anyAssignment g
  unary := anyUnary g
  primary := anyPrimary g
  type := anyType g
  pattern := anyPattern g
  element := anyElement g
  statement := anyStatement g

/-- The grammar for phrases nested no deeper than the given depth. -/
def Grammar.ofDepth (elements : Bool) (bound depth : Nat) : Grammar :=
  Nat.repeat Grammar.deepen depth (.empty elements bound)

/-- A top-level statement: what it contributes, and the modules imported in it. -/
structure Statement where
  form : Form
  imports : List String

/-- The text after the end of its first line. -/
def afterLine (c : Cursor) : Cursor :=
  c.advance ((c.rest.takeWhile fun x => !isLineEnd x).length + 1)

/-- The statements up to the end of the text. -/
def statementsFrom (g : Grammar) : Nat → Cursor → List Statement
  | 0, _ => []
  | fuel + 1, c =>
    let trivia := triviaOf c.rest
    let start : Cursor := ⟨trivia.rest, c.position + trivia.size, []⟩
    if start.rest.isEmpty then []
    else
      match g.statement start with
      | some (form, stop) => ⟨form, stop.imports.reverse⟩ :: statementsFrom g fuel stop
      | none => statementsFrom g fuel (afterLine start)

/-- A module as the list of its statements. -/
abbrev Module := List Statement

namespace Module

/-- The statements of a text; `elements` tells whether angle brackets begin elements. -/
def ofSource (elements : Bool) (source : String) : Module :=
  let chars := source.toList
  let bound := chars.length + 1
  let c : Cursor := ⟨chars, 0, []⟩
  let start := if Text.beginsWith source "#!" then afterLine c else c
  statementsFrom (Grammar.ofDepth elements bound (2 * bound)) bound start

/-- Whether angle brackets begin elements in a file of that path: in all but plain type script. -/
def hasElements (path : String) : Bool :=
  let suffix := String.ofList ((Path.ofString path).suffix.toList.map Char.toLower)
  !([".ts", ".mts", ".cts"].contains suffix)

/-- The statements of a file. -/
def ofFile (path source : String) : Module := ofSource (hasElements path) source

/-- The specifiers of all imported modules, in the order of the text. -/
def imports (m : Module) : List String := m.flatMap Statement.imports

end Module

end StoryRegistry.Script
