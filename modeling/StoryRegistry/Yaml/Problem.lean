/-!
# What can be wrong with a YAML text
-/

set_option autoImplicit false

namespace StoryRegistry.Yaml

/-- Why a YAML text denotes nothing. -/
inductive Problem where
  /-- The text is not well formed, or a tag does not fit its content. -/
  | malformed
  /-- A scalar looks like a number or a date, but is none. -/
  | badNumber
  /-- A number is too large for its kind. -/
  | tooLarge
  /-- A scalar is tagged as a truth value, but names none. -/
  | unknownTruth
  /-- A scalar is tagged as a point in time, but has not its form. -/
  | noTime
  /-- A scalar is tagged as a number, but is empty. -/
  | noDigits
deriving DecidableEq, Inhabited

end StoryRegistry.Yaml
