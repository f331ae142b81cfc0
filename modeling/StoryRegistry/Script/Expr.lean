import StoryRegistry.Script.Literal

/-!
# Expressions

An expression is known by its shape as far as a story file needs it, and by its verbatim source
text. Members of an object that set no readable key (spreads, computed and number keys) are left
out; so are holes of an array. A wrapper (parentheses, `as`, `satisfies`, `!`) keeps what it wraps,
unless a comment comes first inside it.
-/

set_option autoImplicit false

namespace StoryRegistry.Script

/-- An expression of a module. -/
inductive Expr where
  | string (text : String) (pieces : List Piece)
  /-- A template without substitutions. -/
  | template (text : String) (pieces : List Piece)
  | number (text : String)
  | bool (b : Bool)
  | null
  | name (text : String)
  /-- A prefix operator before its operand. -/
  | signed (text operator : String) (operand : Expr)
  | array (text : String) (items : List Expr)
  | object (text : String) (members : List (String × Expr))
  | function (text : String)
  | member (text : String) (target : Expr) (field : String)
  | call (text : String)
  | assignment (text : String) (left right : Expr)
  | wrapped (text : String) (inner : Expr)
  | other (text : String)
deriving Inhabited

namespace Expr

/-- The verbatim source text. -/
def text : Expr → String
  | string text _ | template text _ | number text | name text | signed text _ _ | array text _
  | object text _ | function text | member text _ _ | call text | assignment text _ _
  | wrapped text _ | other text => text
  | bool b => if b then "true" else "false"
  | null => "null"

/-- The expression inside any wrappers. -/
def peel : Expr → Expr
  | wrapped _ inner => inner.peel
  | e => e

/-- The opposite of a number. -/
def negated : Value → Value
  | .int n => .int (-n)
  | .double x => .double x.neg
  | v => v

/-- The value of a sign before an expression, where that expression is a number literal. -/
def signedValue? (operator : String) : Expr → Option Value
  | number literal =>
    if operator == "-" then (numberValue? literal).map negated
    else if operator == "+" then numberValue? literal
    else none
  | _ => none

mutual

/-- The plain value of an expression; what is no literal stays source text. -/
def value : Expr → Value
  | string _ pieces => .string (decodePieces pieces)
  | template _ pieces => .string (decodePieces pieces)
  | number text => (numberValue? text).getD (.code text)
  | bool b => .bool b
  | null => .null
  | signed text operator operand => (signedValue? operator operand).getD (.code text)
  | array _ items => .list (values items)
  | object _ members => .map (Table.ofList (entries members))
  | name text | function text | member text _ _ | call text | assignment text _ _
  | wrapped text _ | other text => .code text

/-- The values of expressions. -/
def values : List Expr → List Value
  | [] => []
  | e :: rest => e.value :: values rest

/-- The values of members. -/
def entries : List (String × Expr) → List (String × Value)
  | [] => []
  | (key, e) :: rest => (key, e.value) :: entries rest

end

end Expr

end StoryRegistry.Script
