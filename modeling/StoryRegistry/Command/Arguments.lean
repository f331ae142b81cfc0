import StoryRegistry.Command.Scan
import StoryRegistry.Session.Setup
import StoryRegistry.Session.Export

/-!
# The commands of the program

The program has four commands. Options that say what is shown while it works, and where the
settings are, can stand before the command or after it.
-/

set_option autoImplicit false

namespace StoryRegistry.Command

/-- The name of the program. -/
def programName : String := "storysync"

/-- What the program is asked to do. -/
inductive Request where
  /-- Write settings for the project in a folder. -/
  | setUp (folder : String) (options : Setup.Options)
  /-- Bring the registry in step with the story files, or with those changed since some time. -/
  | synchronize (incremental : Bool) (since : Option String) (checked withPages : Option Bool)
  /-- Write the registry. -/
  | exportTo (options : Export.Options)
  /-- Inspect the project. -/
  | inspect
deriving Inhabited

/-- A command line that was understood. -/
structure Arguments where
  verbose : Bool
  quiet : Bool
  logFile : Option String
  settingsPath : Option String
  request : Request
deriving Inhabited

/-- The names of the commands. -/
def commandNames : List String := ["init", "sync", "export", "validate"]

/-- The option that asks for help. -/
def helpFlag : Flag := { name := helpName, letter := some 'h' }

/-- The options that say what is shown. -/
def logFlags : List Flag :=
  [{ name := "verbose", letter := some 'v' }, { name := "quiet", letter := some 'q' },
   { name := "log-file", takesValue := true }]

/-- The option that says where the settings are. -/
def settingsFlag : Flag := { name := "config", letter := some 'c', takesValue := true }

/-- The options that can stand before the command. -/
def commonFlags : List Flag := helpFlag :: logFlags ++ [settingsFlag]

/-- The options of a command. -/
def flagsOf (command : String) : List Flag :=
  match command with
  | "init" =>
    helpFlag :: logFlags ++
      [{ name := "force" }, { name := "storybook-path", takesValue := true },
       { name := "components-path", takesValue := true }, { name := "output-path", takesValue := true }]
  | "sync" =>
    commonFlags ++
      [{ name := "incremental" }, { name := "since", takesValue := true },
       { name := "no-validate" }, { name := "no-examples" }]
  | "export" =>
    commonFlags ++
      [{ name := "format", takesValue := true, choices := Export.Format.all.map Export.Format.text },
       { name := "include-examples" },
       { name := "output", letter := some 'o', takesValue := true }]
  | _ => commonFlags

/-- A value that is not empty. -/
def filled? (s : Scan) (name : String) : Option String := (s.value? name).filter (!·.isEmpty)

/-- The request that the name of a command and its arguments describe. -/
def Request.ofScan (name : String) (s : Scan) : Request :=
  match name with
  | "init" =>
    .setUp (s.word.getD ".")
      { force := s.has "force"
        storybook := s.value? "storybook-path"
        components := s.value? "components-path"
        output := s.value? "output-path" }
  | "sync" =>
    let off (flag : String) : Option Bool := if s.has flag then some false else none
    .synchronize (s.has "incremental") (filled? s "since") (off "no-validate") (off "no-examples")
  | "export" =>
    let format := Export.Format.all.find? fun f => s.value? "format" == some f.text
    .exportTo
      { format := format.getD .registry
        withPages := s.has "include-examples"
        output := (filled? s "output").map Path.ofString }
  | _ => .inspect

/-- Why a command line was not understood. -/
inductive Refusal where
  /-- Help was asked for. -/
  | help
  /-- Something is wrong; `program` is what message and usage are about. -/
  | misuse (program : String) (e : UsageError)
deriving Inhabited

/-- The refusal that a stop leads to. -/
def refusal (program : String) : Stop → Refusal
  | .help => .help
  | .error e => .misuse program e

/-- What the arguments of the program ask for. -/
def Arguments.ofList (arguments : List String) : Except Refusal Arguments := do
  let first ← (scan commonFlags .command arguments).mapError (refusal programName)
  match first.word with
  | none => throw (.misuse programName .noCommand)
  | some name =>
    if !commandNames.contains name then
      throw (.misuse programName (.badChoice "command" name commandNames))
    let use := if name == "init" then WordUse.value else WordUse.nothing
    let own ← (scan (flagsOf name) use first.rest).mapError (refusal (programName ++ " " ++ name))
    let idle := first.idle ++ own.idle
    if !idle.isEmpty then throw (.misuse programName (.unknown idle))
    let all := first.withGiven own.given
    return {
      verbose := all.has "verbose"
      quiet := all.has "quiet"
      logFile := filled? all "log-file"
      settingsPath := filled? all "config"
      request := .ofScan name own }

end StoryRegistry.Command
