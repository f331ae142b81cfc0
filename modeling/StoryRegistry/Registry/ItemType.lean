import StoryRegistry.Text.Split

/-!
# Item types

The closed set of types that a registry item, and each of its files, can have. A type is written
with the scheme `registry:`, which may be left out where a rule names it.
-/

set_option autoImplicit false

namespace StoryRegistry

/-- The type of a registry item or of one of its files. -/
inductive ItemType where
  | component
  | ui
  | lib
  | hook
  | block
  | page
  | file
  | style
  | theme
deriving DecidableEq, Inhabited

namespace ItemType

/-- Every type, in the order in which messages list them. -/
def all : List ItemType := [component, ui, lib, hook, block, page, file, style, theme]

/-- The type's name without the scheme. -/
def shortName : ItemType → String
  | component => "component"
  | ui => "ui"
  | lib => "lib"
  | hook => "hook"
  | block => "block"
  | page => "page"
  | file => "file"
  | style => "style"
  | theme => "theme"

/-- The scheme before every type. -/
def scheme : String := "registry:"

/-- The written type. -/
def text (t : ItemType) : String := scheme ++ t.shortName

/-- The type with the given written form. -/
def ofText? (s : String) : Option ItemType := all.find? fun t => t.text == s

/-- The type named with or without the scheme. -/
def ofName? (s : String) : Option ItemType :=
  ofText? (if Text.beginsWith s scheme then s else scheme ++ s)

/-- Every type is listed. -/
theorem mem_all (t : ItemType) : t ∈ all := by cases t <;> simp [all]

/-- The text of a type is read as that type. -/
theorem ofText?_text (t : ItemType) : ofText? t.text = some t := by cases t <;> decide

end ItemType

end StoryRegistry
