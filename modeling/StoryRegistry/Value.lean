import StoryRegistry.Double
import StoryRegistry.Table

/-!
# Values

What a story file says about a component is a tree of plain values: null, truth values, integers,
binary64 numbers, texts, lists and maps with text keys. An expression that is none of these is kept
as its verbatim source text.
-/

set_option autoImplicit false

namespace StoryRegistry

/-- A plain value, or the source text of an expression that is not read any further. -/
inductive Value where
  | null
  | bool (b : Bool)
  | int (n : Int)
  | double (x : Double)
  | string (s : String)
  | list (items : List Value)
  | map (entries : List (String × Value))
  | code (text : String)
deriving Inhabited

namespace Value

/-- The most decimal digits an integer may have where it is read or written. -/
def maxIntDigits : Nat := 4300

mutual

/-- The value with every piece of source text as a text. -/
def spelled : Value → Value
  | code text => string text
  | list items => list (spelledItems items)
  | map entries => map (spelledEntries entries)
  | v => v

/-- Each item of a list with source text as text. -/
def spelledItems : List Value → List Value
  | [] => []
  | v :: rest => spelled v :: spelledItems rest

/-- Each entry of a map with source text as text. -/
def spelledEntries : List (String × Value) → List (String × Value)
  | [] => []
  | (name, v) :: rest => (name, spelled v) :: spelledEntries rest

end

/-- The integer has no more decimal digits than can be written. -/
def intFits (n : Int) : Bool := n.natAbs < Nat.pow 10 maxIntDigits

mutual

/-- Every integer in the value can be written. -/
def intsFit : Value → Bool
  | int n => intFits n
  | list items => itemsFit items
  | map entries => entriesFit entries
  | _ => true

/-- Every integer in the items can be written. -/
def itemsFit : List Value → Bool
  | [] => true
  | v :: rest => intsFit v && itemsFit rest

/-- Every integer in the entries can be written. -/
def entriesFit : List (String × Value) → Bool
  | [] => true
  | (_, v) :: rest => intsFit v && entriesFit rest

end

/-- The value is not empty: null, `false`, nought, the empty text and empty containers are. -/
def isPresent : Value → Bool
  | null => false
  | bool b => b
  | int n => n != 0
  | double x => !x.isZero
  | string s => !s.isEmpty
  | list items => !items.isEmpty
  | map entries => !entries.isEmpty
  | code _ => true

/-- The text, if the value is one. -/
def asString? : Value → Option String
  | string s => some s
  | _ => none

/-- The entries, if the value is a map. -/
def asMap? : Value → Option (Table Value)
  | map entries => some entries
  | _ => none

/-- The texts of a list, other items left out. -/
def asTexts? : Value → Option (List String)
  | list items => some (items.filterMap asString?)
  | _ => none

/-- The value is null. -/
def isNull : Value → Bool
  | null => true
  | _ => false

/-- The entry of a map; null if there is none. -/
def entry (name : String) (entries : Table Value) : Value := (Table.get? name entries).getD null

end Value

end StoryRegistry
