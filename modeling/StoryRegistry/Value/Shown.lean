import StoryRegistry.Value
import StoryRegistry.Double.Decimal
import StoryRegistry.Text.Quoted

/-!
# Values as style texts

A style variable is a text. Where a story gives another value, the variable gets the value's shown
form: `True`, `None`, `0.5`, `[1, 'two']`.
-/

set_option autoImplicit false

namespace StoryRegistry.Value

mutual

/-- The shown form of a value inside a list or map, where texts are quoted. -/
def inner : Value → String
  | null => "None"
  | bool b => if b then "True" else "False"
  | int n => toString n
  | double x => x.text
  | string s => Text.literal s
  | code text => Text.literal text
  | list items => "[" ++ ", ".intercalate (innerItems items) ++ "]"
  | map entries => "\x7b" ++ ", ".intercalate (innerEntries entries) ++ "\x7d"

/-- The shown form of each item. -/
def innerItems : List Value → List String
  | [] => []
  | v :: rest => inner v :: innerItems rest

/-- The shown form of each entry. -/
def innerEntries : List (String × Value) → List String
  | [] => []
  | (name, v) :: rest => (Text.literal name ++ ": " ++ inner v) :: innerEntries rest

end

/-- The shown form of a value: a text stands as it is. -/
def shown : Value → String
  | string s => s
  | code text => text
  | v => inner v

end StoryRegistry.Value
