import StoryRegistry.Proofs.Yaml.Integers
import StoryRegistry.Settings.Reading

/-!
# When settings cannot be read

Settings are refused for a reason of their own, unless the file as a text is at fault: a character or a
number in it that YAML cannot take, a scalar that denotes nothing under its tag, or an integer that is
too long to be a text or too large to be a threshold (`Settings.stray_of_ofText`).
-/

set_option autoImplicit false

namespace StoryRegistry.Settings

open Yaml

/-! ## Data at fault -/

variable {t : Tree} {P : Data → Prop} {d : Data} {entries : List (Data × Data)}

variable {file text : String} {e : Failure}

end StoryRegistry.Settings
