import StoryRegistry.Settings.Basic

/-!
# What can be wrong with settings

Each cause names the file or the type rule it is about.
-/

set_option autoImplicit false

namespace StoryRegistry

/-- Why settings cannot be read or written. -/
inductive SettingsError where
  /-- The text of the file is not well formed. -/
  | malformed (file : String)
  /-- The file holds no mapping. -/
  | noMapping (file : String)
  /-- The type rules are no list. -/
  | rulesNoList
  /-- The type rule at the position is no mapping. -/
  | ruleNoMapping (position : Nat)
  /-- The type rule at the position has no pattern. -/
  | ruleWithoutPattern (position : Nat)
  /-- The type rule at the position asks for an unknown measure. -/
  | ruleCondition (position : Nat)
  /-- A type rule has no type. -/
  | ruleWithoutType
  /-- There is no item type of that name. -/
  | unknownType (name : String)
  /-- There are settings already. -/
  | alreadyThere
deriving DecidableEq, Inhabited

namespace SettingsError

/-- The words for the type rule at a position. -/
def rule (position : Nat) : String := "componentTypeRules[" ++ toString position ++ "]"

/-- The message. -/
def message : SettingsError → String
  | malformed file => "Failed to parse " ++ file
  | noMapping file => file ++ " must contain a mapping at the root"
  | rulesNoList => "mapping.componentTypeRules must be a list"
  | ruleNoMapping position => rule position ++ " must be a mapping"
  | ruleWithoutPattern position => rule position ++ " requires a pattern"
  | ruleCondition position =>
    rule position ++ " condition must be one of " ++ ", ".intercalate (Measure.all.map Measure.text)
  | ruleWithoutType => "componentTypeRules entries require a type"
  | unknownType name => "Unknown registry type '" ++ name ++ "'"
  | alreadyThere => "Configuration file already exists. Use --force to overwrite."

end SettingsError

end StoryRegistry
