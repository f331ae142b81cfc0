/-!
# Issues

A finding about a component or a project, which does not stop the work.
-/

set_option autoImplicit false

namespace StoryRegistry

/-- How much a finding matters. -/
inductive Severity where
  | error
  | warning
  | info
deriving DecidableEq, Inhabited

/-- The name of a severity. -/
def Severity.text : Severity → String
  | error => "error"
  | warning => "warning"
  | info => "info"

/-- A finding, with the file it is about. -/
structure Issue where
  severity : Severity
  message : String
  file : Option String := none
deriving DecidableEq, Inhabited

end StoryRegistry
