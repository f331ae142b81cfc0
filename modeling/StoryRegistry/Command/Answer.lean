import StoryRegistry.Command.Arguments
import StoryRegistry.Session.Sync
import StoryRegistry.Session.Inspection

/-!
# Answering a command line

A command gives an exit code, what goes to the output, and what goes to the console: the lines of
the log from the level that was asked for on, and a message if it went wrong.
-/

set_option autoImplicit false

namespace StoryRegistry.Command

/-- The answer of a command. -/
structure Reply where
  code : Nat := 0
  /-- The lines that go to the output. -/
  output : List String := []
  /-- What the console says last. -/
  message : String := ""
deriving Inhabited

/-- A reply that tells what went wrong. -/
def Reply.failed (message : String) (output : List String) : Reply :=
  { code := 1, output := output, message := message ++ "\n" }

/-- What is said after a failure. -/
def hint : String := "\nRun with --verbose for more details."

/-- Writes settings and says where they are. -/
def answerSetUp (folder : String) (options : Setup.Options) : Run Reply := do
  match ← Run.attempt (Setup.create (Path.ofString folder) options) with
  | .ok file =>
    let here := (Path.mk 1 (← get).tree.here).toText
    return { output := ["Configuration created at " ++ Path.below here file.toText] }
  | .error e =>
    match e with
    | .settings cause => return .failed cause.message []
    | e => throw e

/-- A number with a name, unless it is nought. -/
def countLine (name : String) (count : Nat) : List String :=
  if count == 0 then [] else [name ++ ": " ++ toString count]

/-- What a run tells. -/
def reportLines (r : Report) : List String :=
  ["Files processed: " ++ toString r.processed, "Components generated: " ++ toString r.generated] ++
    countLine "Errors" r.errorCount ++ countLine "Warnings" r.warningCount ++
    r.cycles.map fun cycle => "Circular dependency: " ++ Pipeline.cycleText cycle

/-- Why a run failed. -/
def reportDetails (r : Report) : String :=
  if r.errors.isEmpty then "no components generated"
  else "; ".intercalate (r.errors.map Failure.message)

/-- Brings the registry in step and tells what was done. -/
def answerSync (settings : Settings) (options : Sync.Options) : Run Reply := do
  let r ← Sync.run settings options
  if r.success then return { output := reportLines r }
  else
    return .failed (programName ++ " sync failed: " ++ reportDetails r ++ hint) (reportLines r)

/-- Writes the registry and tells of how many items. -/
def answerExport (settings : Settings) (options : Export.Options) : Run Reply := do
  match ← Run.attempt (Export.run settings options) with
  | .ok r => return { output := ["Exported " ++ toString r.items.length ++ " registry items"] }
  | .error e =>
    if e.isReported then return .failed (programName ++ " export failed: " ++ e.message ++ hint) []
    else throw e

/-- An issue as a line. -/
def issueLine (issue : Issue) : String :=
  let place := (issue.file.map fun file => " (" ++ file ++ ")").getD ""
  "[" ++ issue.severity.text ++ "] " ++ issue.message ++ place

/-- Inspects the project and lists the issues. -/
def answerInspect (settings : Settings) : Run Reply := do
  let issues ← Inspection.issues settings
  let lines := issues.map issueLine
  if Inspection.isSound issues then return { output := lines ++ ["Validation passed"] }
  else return .failed "Validation failed" lines

/-- The point in time that incremental runs start from; none if the text is none. -/
def sinceOf? (incremental : Bool) (since : Option String) : Except String (Option Instant) :=
  match since with
  | none => .ok none
  | some text =>
    match Instant.ofString? text with
    | some instant => .ok (if incremental then some instant else none)
    | none => .error text

/-- Does what a command asks for in the project with the given settings. -/
def answerIn (settings : Settings) (request : Request) : Run Reply := do
  match request with
  | .synchronize incremental since checked withPages =>
    match sinceOf? incremental since with
    | .error text =>
      return .failed (programName ++ " sync: invalid --since timestamp '" ++ text ++ "'") []
    | .ok instant =>
      answerSync settings { since := instant, validated := checked, withPages := withPages }
  | .exportTo options => answerExport settings options
  | _ => answerInspect settings

/-- Does what a command asks for. -/
def answer (settingsPath : Option String) (request : Request) : Run Reply := do
  match request with
  | .setUp folder options => answerSetUp folder options
  | request =>
    let place := Path.ofString (settingsPath.getD ".")
    match ← Run.attempt (Setup.load place) with
    | .ok settings => answerIn settings request
    | .error e =>
      match e with
      | .settings cause =>
        return .failed (programName ++ ": invalid configuration: " ++ cause.message) []
      | e => throw e

/-! ## Log file and console -/

/-- The file of the log, by its full path. -/
def logPlace (here : Place) (p : Path) : Path := (Path.mk 1 here).resolve p

/-- Makes the file of the log. -/
def openLog (p : Path) : Run Unit := do
  Run.change (Change.folders p.parent)
  Run.change (Change.appendText (logPlace (← get).tree.here p) "")

/-- Adds the log to its file. -/
def writeLog (p : Path) : Run Unit := do
  let s ← get
  let lines := s.log.map fun line => line.text ++ "\n"
  Run.change (Change.appendText (logPlace s.tree.here p) (String.join lines))

/-- Does what the arguments ask for, with a log file if there is one. -/
def answerWithLog (a : Arguments) : Run Reply := do
  match a.logFile.map Path.ofString with
  | none => answer a.settingsPath a.request
  | some p => do
    openLog p
    let outcome ← Run.attempt (answer a.settingsPath a.request)
    writeLog p
    Run.ofExcept outcome

/-- The level from which on the console shows the log. -/
def consoleLevel (a : Arguments) : Level :=
  if a.verbose then .debug else if a.quiet then .warning else .info

/-- What a run of the program shows. -/
structure Shown where
  code : Nat
  output : String
  console : String
deriving Inhabited

/-- Lines as text. -/
def linesText (lines : List String) : String := String.join (lines.map fun line => line ++ "\n")

/-- A reply as it is shown, with the log. -/
def Reply.shown (r : Reply) (level : Level) (log : List LogLine) : Shown where
  code := r.code
  output := linesText r.output
  console :=
    linesText ((LogLine.above level log).map fun line => "[" ++ programName ++ "] " ++ line.text) ++
      r.message

/-- How the program is called. -/
def usage : String :=
  "usage: " ++ programName ++ " [-v] [-q] [--log-file FILE] [-c PATH] \x7b" ++
    ",".intercalate commandNames ++ "\x7d ..."

/-- Runs the program with a command line in a session that has told nothing yet. -/
def run (arguments : List String) : Run Shown := do
  match Arguments.ofList arguments with
  | .error .help => return { code := 0, output := usage ++ "\n", console := "" }
  | .error (.misuse program e) =>
    return { code := 2, output := "", console := program ++ ": error: " ++ e.message }
  | .ok a =>
    let reply ← answerWithLog a
    return reply.shown (consoleLevel a) (← get).log

end StoryRegistry.Command
