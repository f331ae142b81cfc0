/-!
# Log lines

What the pipeline tells while it works. A reader chooses from which level on lines are shown.
-/

set_option autoImplicit false

namespace StoryRegistry

/-- How much a log line matters. -/
inductive Level where
  | debug
  | info
  | warning
  | error
deriving DecidableEq, Inhabited

namespace Level

/-- The name of a level. -/
def text : Level → String
  | debug => "DEBUG"
  | info => "INFO"
  | warning => "WARNING"
  | error => "ERROR"

/-- The place of a level in the order of importance. -/
def rank : Level → Nat
  | debug => 0
  | info => 1
  | warning => 2
  | error => 3

end Level

/-- One line of the log. -/
structure LogLine where
  level : Level
  message : String
deriving DecidableEq, Inhabited

namespace LogLine

/-- The line as text. -/
def text (line : LogLine) : String := line.level.text ++ " " ++ line.message

/-- The lines from a level on. -/
def above (level : Level) (lines : List LogLine) : List LogLine :=
  lines.filter fun line => level.rank ≤ line.level.rank

end LogLine

end StoryRegistry
