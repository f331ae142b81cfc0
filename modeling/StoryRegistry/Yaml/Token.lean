/-!
# YAML tokens

The tokens of a YAML text. Where a block begins and ends is told by its indentation; the tokens for
it are made up while reading.
-/

set_option autoImplicit false

namespace StoryRegistry.Yaml

/-- A token. -/
inductive Token where
  /-- The version that the document asks for, by its first number. -/
  | version (major : Nat)
  /-- A handle for tags, and what it stands for. -/
  | handle (name full : String)
  /-- A directive of no known name. -/
  | directive
  | documentStart
  | documentEnd
  | blockSequence
  | blockMapping
  | blockEnd
  | flowSequence
  | flowSequenceEnd
  | flowMapping
  | flowMappingEnd
  /-- The hyphen before an item. -/
  | item
  /-- The comma between entries. -/
  | comma
  /-- What follows is a key. -/
  | key
  /-- What follows is a value. -/
  | value
  | reference (name : String)
  | anchor (name : String)
  /-- A tag; without a handle its text is complete. -/
  | tag (handle : Option String) (text : String)
  /-- A scalar; a plain one stands without quotes. -/
  | scalar (text : String) (plain : Bool)
deriving DecidableEq, Inhabited

end StoryRegistry.Yaml
