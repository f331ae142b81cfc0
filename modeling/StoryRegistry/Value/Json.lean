import StoryRegistry.Value
import StoryRegistry.Double.Decimal
import StoryRegistry.Text.Quoted

/-!
# JSON texts of values

Writing goes through a `Layout`: what stands between items, and whether items stand on lines of
their own. Numbers that are none have the names `NaN`, `Infinity` and `-Infinity`.
-/

set_option autoImplicit false

namespace StoryRegistry.Value

/-- How a JSON text is laid out. -/
structure Layout where
  /-- Texts hold escapes in place of characters beyond ASCII. -/
  ascii : Bool
  /-- What stands between two items. -/
  comma : String
  /-- What stands between a name and its value. -/
  colon : String
  /-- Items stand on lines of their own, each level further in by so many spaces. -/
  indent : Option Nat

/-- One line, a space after each comma and colon, ASCII only. -/
def Layout.line : Layout := ⟨true, ", ", ": ", none⟩

/-- One line without spaces. -/
def Layout.tight : Layout := ⟨false, ",", ":", none⟩

/-- Two spaces further in at each level. -/
def Layout.tree : Layout := ⟨false, ",", ": ", some 2⟩

/-- Encloses written items in brackets; `depth` is the level of the container. -/
def enclose (layout : Layout) (depth : Nat) (start finish : String) (items : List String) : String :=
  if items.isEmpty then start ++ finish
  else
    match layout.indent with
    | none => start ++ layout.comma.intercalate items ++ finish
    | some step =>
      let inside := "\n" ++ String.ofList (List.replicate (step * (depth + 1)) ' ')
      let outside := "\n" ++ String.ofList (List.replicate (step * depth) ' ')
      start ++ inside ++ (layout.comma ++ inside).intercalate items ++ outside ++ finish

mutual

/-- The JSON text of a value at a level. -/
def jsonAt (layout : Layout) (depth : Nat) : Value → String
  | null => "null"
  | bool b => if b then "true" else "false"
  | int n => toString n
  | double x => x.textWith ⟨"Infinity", "NaN"⟩
  | string s => Text.jsonQuoted layout.ascii s
  | code text => Text.jsonQuoted layout.ascii text
  | list items => enclose layout depth "[" "]" (jsonItems layout (depth + 1) items)
  | map entries => enclose layout depth "\x7b" "\x7d" (jsonEntries layout (depth + 1) entries)

/-- The JSON text of each item. -/
def jsonItems (layout : Layout) (depth : Nat) : List Value → List String
  | [] => []
  | v :: rest => jsonAt layout depth v :: jsonItems layout depth rest

/-- The JSON text of each entry. -/
def jsonEntries (layout : Layout) (depth : Nat) : List (String × Value) → List String
  | [] => []
  | (name, v) :: rest =>
    (Text.jsonQuoted layout.ascii name ++ layout.colon ++ jsonAt layout depth v) ::
      jsonEntries layout depth rest

end

/-- The JSON text of a value. -/
def json (layout : Layout) (v : Value) : String := jsonAt layout 0 v

/-- The value's text where only texts are looked for: a text stands as it is. -/
def textForm (v : Value) : String :=
  match v with
  | string s => s
  | code text => text
  | v => v.spelled.json .line

end StoryRegistry.Value
