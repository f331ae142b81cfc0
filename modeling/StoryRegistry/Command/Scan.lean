import StoryRegistry.Command.Options

/-!
# Reading arguments

Arguments are read from left to right. Options take their values as they come; the first argument
that is no option and no value is a word, which a command line may have a use for. What has no use
is kept aside, and so is everything after the word that names a command.
-/

set_option autoImplicit false

namespace StoryRegistry.Command

/-- What the first word of a command line is for. -/
inductive WordUse where
  /-- There is no use for it. -/
  | nothing
  /-- It is a value. -/
  | value
  /-- It names a command, to which all that follows belongs. -/
  | command
deriving DecidableEq, Inhabited

/-- What was read from arguments. -/
structure Scan where
  /-- The options in the order in which they were given. -/
  given : List Given := []
  /-- The first word. -/
  word : Option String := none
  /-- Arguments with no use. -/
  idle : List String := []
  /-- What follows the name of a command. -/
  rest : List String := []
deriving Inhabited

namespace Scan

/-- Adds options. -/
def withGiven (s : Scan) (given : List Given) : Scan := { s with given := s.given ++ given }

/-- Adds arguments with no use. -/
def withIdle (s : Scan) (texts : List String) : Scan := { s with idle := s.idle ++ texts }

/-- The option was given. -/
def has (s : Scan) (name : String) : Bool := s.given.any fun (f, _) => f.name == name

/-- The last value given to an option. -/
def value? (s : Scan) (name : String) : Option String :=
  (s.given.reverse.find? fun (f, _) => f.name == name).map Prod.snd

end Scan

/-- Why reading arguments stopped. -/
inductive Stop where
  /-- Help was asked for. -/
  | help
  | error (e : UsageError)
deriving Inhabited

/-- The name of the option that asks for help. -/
def helpName : String := "help"

/-- Takes options into account, up to the one that asks for help. -/
def accept (s : Scan) : List Given → Except Stop Scan
  | [] => .ok s
  | given :: rest =>
    match checkChoice given with
    | .error e => .error (.error e)
    | .ok _ => if given.1.name == helpName then .error .help else accept (s.withGiven [given]) rest

/-- Reads tokens; `use` says what the first word is for, and is `nothing` after it. -/
def scanTokens (flags : List Flag) : WordUse → List (String × Token) → Scan → Except Stop Scan
  | _, [], s => .ok s
  | use, (text, .word _) :: more, s =>
    match use with
    | .nothing => scanTokens flags .nothing more (s.withIdle [text])
    | .command => .ok { s with word := some text, rest := more.map Prod.fst }
    | .value =>
      match more with
      | (_, .mark) :: more => scanTokens flags .nothing more { s with word := some text }
      | more => scanTokens flags .nothing more { s with word := some text }
  | use, (text, .mark) :: more, s =>
    match use, more with
    | .value, (word, _) :: more => scanTokens flags .nothing more { s with word := some word }
    | .value, [] => .ok s
    | .command, _ :: _ => .ok { s with word := some text, rest := more.map Prod.fst }
    | _, more => scanTokens flags .nothing more (s.withIdle [text])
  | use, (_, .stray text) :: more, s => scanTokens flags use more (s.withIdle [text])
  | use, (_, .flag f short attached) :: more, s =>
    match cluster flags ((attached.map fun a => a.text.length).getD 0 + 1) f short attached with
    | .error e => .error (.error e)
    | .ok c =>
      match c.open?, more with
      | none, more => do
        let s ← accept (s.withIdle c.strays) c.given
        scanTokens flags use more s
      | some f, (value, .word _) :: more => do
        let s ← accept s (c.given ++ [(f, value)])
        scanTokens flags use more s
      | some f, _ => .error (.error (.noValue f))

/-- Reads arguments. -/
def scan (flags : List Flag) (use : WordUse) (arguments : List String) : Except Stop Scan :=
  match tokens flags arguments with
  | .error e => .error (.error e)
  | .ok found => scanTokens flags use (arguments.zip found) {}

end StoryRegistry.Command
