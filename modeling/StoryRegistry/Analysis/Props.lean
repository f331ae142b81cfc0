import StoryRegistry.Story.Basic
import StoryRegistry.Text.Split

/-!
# The props of a component

A prop is known from the args of the meta, from the args of a story, or from the declared arg
types. Args give a default value and with it a type; a declaration overrides the type and adds a
description and whether the prop is required.
-/

set_option autoImplicit false

namespace StoryRegistry

/-- What is known about a prop. -/
structure PropInfo where
  name : String
  type : String
  required : Bool := false
  defaultValue : Value := .null
  description : Option String := none
deriving Inhabited

/-- The name of a value's type; source text is a function if it shows an arrow or the word
`function`. -/
def Value.typeName : Value → String
  | .bool _ => "boolean"
  | .int _ | .double _ => "number"
  | .string _ => "string"
  | .null => "null"
  | .list _ => "array"
  | .map _ => "object"
  | .code text =>
    if Text.occursIn "=>" text || Text.beginsWith text "function" then "function" else "unknown"

namespace PropInfo

/-- The prop that an arg shows. -/
def ofArg (name : String) (value : Value) : PropInfo :=
  { name := name, type := value.typeName, defaultValue := value }

/-- The type that a declaration names, by itself or as the name of a type description. -/
def declaredType? (declared : Table Value) : Option String :=
  match Value.entry "type" declared with
  | .string s => if s.isEmpty then none else some s
  | .map entries => (Value.entry "name" entries).asString?.filter (!·.isEmpty)
  | _ => none

/-- The entry is the truth value `true`. -/
def isTrue (name : String) (entries : Table Value) : Bool :=
  match Value.entry name entries with
  | .bool b => b
  | _ => false

/-- The declaration says, at its top or in its type description, that the prop is required. -/
def declaredRequired (declared : Table Value) : Bool :=
  isTrue "required" declared ||
    match Value.entry "type" declared with
    | .map entries => isTrue "required" entries
    | _ => false

/-- The prop that only a declaration shows. -/
def ofDeclaration (name : String) (declared : Table Value) : PropInfo where
  name := name
  type := (declaredType? declared).getD "unknown"
  required := declaredRequired declared
  description := (Value.entry "description" declared).asString?

/-- The prop as a declaration describes it further. -/
def describe (p : PropInfo) (declared : Table Value) : PropInfo :=
  { p with
    type := (declaredType? declared).getD p.type
    required := declaredRequired declared
    description := (Value.entry "description" declared).asString? <|> p.description }

/-- Adds the props that args show and that are not known yet. -/
def addArgs (known : Table PropInfo) (args : Table Value) : Table PropInfo :=
  args.foldl (fun known (name, value) => Table.setNew name (ofArg name value) known) known

/-- Takes one declaration into account; one that is no map only makes its prop known. -/
def addDeclaration (known : Table PropInfo) (name : String) (declaration : Value) :
    Table PropInfo :=
  match Table.get? name known with
  | none => known ++ [(name, ofDeclaration name (declaration.asMap?.getD []))]
  | some p =>
    match declaration with
    | .map declared => Table.set name (p.describe declared) known
    | _ => known

end PropInfo

/-- The props of the component that a story file shows: those of the meta's args, then those of
each story, then those that are only declared. -/
def StoryFile.props (f : StoryFile) : List PropInfo :=
  let seeded := PropInfo.addArgs [] (f.metadata.args.getD [])
  let shown := f.stories.foldl (fun known (_, story) => PropInfo.addArgs known (story.args.getD [])) seeded
  let declared := (f.metadata.argTypes.getD []).foldl
    (fun known (name, declaration) => PropInfo.addDeclaration known name declaration) shown
  declared.map Prod.snd

end StoryRegistry
