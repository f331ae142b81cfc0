import StoryRegistry.Text.Surrogate

/-!
# The order of texts

Texts are ordered by their code points, a shorter text before its continuations.
-/

set_option autoImplicit false

namespace StoryRegistry.Text

/-- The code point that a character stands for. -/
def codeOf (c : Char) : Nat := (surrogate? c).getD c.toNat

/-- The first text comes before the second one or equals it. -/
def precedes : List Char → List Char → Bool
  | [], _ => true
  | _ :: _, [] => false
  | a :: s, b :: t =>
    if codeOf a < codeOf b then true
    else if codeOf b < codeOf a then false
    else precedes s t

/-- Puts a text where it belongs among texts that are in order. -/
def place (s : String) : List String → List String
  | [] => [s]
  | t :: rest => if precedes s.toList t.toList then s :: t :: rest else t :: place s rest

/-- The texts in order. -/
def sorted (texts : List String) : List String := texts.foldr place []

end StoryRegistry.Text
