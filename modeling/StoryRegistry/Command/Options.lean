import StoryRegistry.Table
import StoryRegistry.Text.Split
import StoryRegistry.Text.Quoted
import StoryRegistry.Text.Word

/-!
# Options on a command line

An option has a long name, and perhaps a short one of a single letter. A long name may be cut short
as long as it stays the only one; short names may be written together after one hyphen. A value
follows in the next argument, or after the short name, or after an equals sign. After `--` there are
no options.
-/

set_option autoImplicit false

namespace StoryRegistry.Command

open StoryRegistry.Text

/-- An option. -/
structure Flag where
  /-- The long name, without hyphens. -/
  name : String
  letter : Option Char := none
  /-- A value has to follow. -/
  takesValue : Bool := false
  /-- The values that are allowed; none stands for all. -/
  choices : List String := []
deriving DecidableEq, Inhabited

namespace Flag

/-- The ways to write the option in full. -/
def spellings (f : Flag) : List String :=
  (f.letter.map fun c => String.ofList ['-', c]).toList ++ ["--" ++ f.name]

/-- The option as messages name it. -/
def shown (f : Flag) : String := "/".intercalate f.spellings

end Flag

/-- Why a command line cannot be followed. -/
inductive UsageError where
  /-- The beginning of a long name fits several. -/
  | ambiguous (text : String) (spellings : List String)
  /-- A value is missing. -/
  | noValue (flag : Flag)
  /-- A value was given to an option that takes none. -/
  | idleValue (flag : Flag) (value : String)
  /-- The value is none of those allowed. -/
  | badChoice (place value : String) (choices : List String)
  /-- There is no command. -/
  | noCommand
  /-- There are arguments with no meaning. -/
  | unknown (texts : List String)
deriving DecidableEq, Inhabited

/-- The message. -/
def UsageError.message : UsageError → String
  | ambiguous text spellings =>
    "ambiguous option: " ++ text ++ " could match " ++ ", ".intercalate spellings
  | noValue flag => "argument " ++ flag.shown ++ ": expected one argument"
  | idleValue flag value =>
    "argument " ++ flag.shown ++ ": ignored explicit argument " ++ literal value
  | badChoice place value choices =>
    "argument " ++ place ++ ": invalid choice: " ++ literal value ++ " (choose from " ++
      ", ".intercalate (choices.map literal) ++ ")"
  | noCommand => "the following arguments are required: command"
  | unknown texts => "unrecognized arguments: " ++ " ".intercalate texts

/-- A value that was written in the same argument as its option. -/
structure Attached where
  text : String
  /-- An equals sign stands before it. -/
  afterEquals : Bool
deriving DecidableEq, Inhabited

/-- What an argument is. -/
inductive Token where
  /-- An argument that is no option. -/
  | word (text : String)
  /-- An option, with the value in the same argument. -/
  | flag (flag : Flag) (short : Bool) (attached : Option Attached)
  /-- Looks like an option, but is none. -/
  | stray (text : String)
  /-- The mark after which there are no options. -/
  | mark
deriving DecidableEq, Inhabited

/-! ## Telling arguments apart -/

/-- What stands before and after the first equals sign. -/
def cutEquals (text : String) : String × Option String :=
  match cutAt? ['='] text.toList with
  | some (before, after) => (String.ofList before, some (String.ofList after))
  | none => (text, none)

/-- The option with a spelling, and whether it is the short one. -/
def spelled? (flags : List Flag) (spelling : String) : Option (Flag × Bool) :=
  (flags.find? fun f => f.spellings.contains spelling).map fun f =>
    (f, spelling != "--" ++ f.name)

/-- The digits after a hyphen make a number. -/
def isNegativeNumber (text : String) : Bool :=
  let isDigit (c : Char) : Bool := (digitValue? c).isSome
  match text.toList with
  | '-' :: rest =>
    let after := rest.dropWhile isDigit
    (after.isEmpty && !rest.isEmpty) ||
      match after with
      | '.' :: more => !more.isEmpty && more.all isDigit
      | _ => false
  | _ => false

/-- Options whose long name begins like the text, with the value after an equals sign. -/
def longMatches (flags : List Flag) (text : String) : List (Flag × Option Attached) :=
  let (start, value) := cutEquals text
  (flags.filter fun f => beginsWith ("--" ++ f.name) start).map fun f =>
    (f, value.map fun v => ⟨v, true⟩)

/-- The option whose letter follows the hyphen, with the rest of the text as its value. -/
def shortMatch? (flags : List Flag) (text : String) : Option (Flag × Option Attached) :=
  match text.toList with
  | _ :: letter :: rest =>
    (flags.find? fun f => f.letter == some letter).map fun f => (f, some ⟨String.ofList rest, false⟩)
  | _ => none

/-- What an argument before the mark is. -/
def Token.ofText (flags : List Flag) (text : String) : Except UsageError Token :=
  if !beginsWith text "-" || text == "-" then .ok (.word text)
  else
    match spelled? flags text with
    | some (f, short) => .ok (.flag f short none)
    | none =>
      let (start, value) := cutEquals text
      match value, spelled? flags start with
      | some v, some (f, short) => .ok (.flag f short (some ⟨v, true⟩))
      | _, _ =>
        let long := beginsWith text "--"
        match if long then longMatches flags text else (shortMatch? flags text).toList with
        | [(f, attached)] => .ok (.flag f (!long) attached)
        | [] =>
          if isNegativeNumber text || text.toList.contains ' ' then .ok (.word text)
          else .ok (.stray text)
        | several => .error (.ambiguous text (several.map fun (f, _) => "--" ++ f.name))

/-- What the arguments are. -/
def tokens (flags : List Flag) : List String → Except UsageError (List Token)
  | [] => .ok []
  | text :: rest => do
    if text == "--" then return .mark :: rest.map .word
    else
      let token ← Token.ofText flags text
      return token :: (← tokens flags rest)

/-! ## Following options -/

/-- An option that was given, with its value; the empty text where it takes none. -/
abbrev Given := Flag × String

/-- The options written together in one argument, the texts in it that are none, and the last option
if its value has to follow. -/
structure Cluster where
  given : List Given := []
  strays : List String := []
  open? : Option Flag := none
deriving Inhabited

/-- Puts an option before a cluster. -/
def Cluster.after (f : Flag) (c : Cluster) : Cluster := { c with given := (f, "") :: c.given }

/-- Takes an option apart, given the value attached to it; the bound is on the letters left. -/
def cluster (flags : List Flag) : Nat → Flag → Bool → Option Attached → Except UsageError Cluster
  | _, f, _, none => .ok (if f.takesValue then { open? := some f } else { given := [(f, "")] })
  | fuel, f, short, some value =>
    if f.takesValue then .ok { given := [(f, value.text)] }
    else
      match fuel, value.text.toList with
      | fuel + 1, letter :: rest =>
        if !short || value.afterEquals || letter == '-' then .error (.idleValue f value.text)
        else
          match flags.find? fun f => f.letter == some letter with
          | none => .ok { given := [(f, "")], strays := ["-" ++ value.text] }
          | some next => do
            let attached : Option Attached :=
              match rest with
              | [] => none
              | '=' :: more => some ⟨String.ofList more, true⟩
              | more => some ⟨String.ofList more, false⟩
            return (← cluster flags fuel next true attached).after f
      | _, _ => .error (.idleValue f value.text)

/-- The values allowed for an option. -/
def checkChoice (given : Given) : Except UsageError Unit :=
  let (f, value) := given
  if f.choices.isEmpty || f.choices.contains value then .ok ()
  else .error (.badChoice f.shown value f.choices)

end StoryRegistry.Command
