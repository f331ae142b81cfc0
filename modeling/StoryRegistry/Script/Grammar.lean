import StoryRegistry.Script.Cursor
import StoryRegistry.Script.Expr

/-!
# The readers that call each other

Expressions hold statements, statements hold types, types hold expressions. Each kind of phrase is
read by a function that gets the readers of the others as a `Grammar`; the knot is tied once, by
repeating the step from one grammar to the next as often as the text is long.
-/

set_option autoImplicit false

namespace StoryRegistry.Script

/-- What a statement of a module contributes to a story file. -/
inductive Form where
  /-- Variables with an initial value. -/
  | bindings (exported : Bool) (declared : List (String × Expr))
  /-- A declared function, with its source text. -/
  | function (exported : Bool) (name text : String)
  /-- `target.field = value`. -/
  | assignment (target field : String) (value : Expr)
  /-- The default export. -/
  | defaultExport (value : Expr)
  /-- Exported names, each with the local name behind it. -/
  | exports (names : List (String × String))
  | other
deriving Inhabited

/-- Where an expression stands. -/
structure Mode where
  /-- In the head of a `for`, where `in` is no operator. -/
  inHead : Bool := false
  /-- Inside brackets, where an operator word may begin a line. -/
  inBrackets : Bool := false
  /-- Before the colon of a conditional expression, where arrow functions name no result type. -/
  beforeColon : Bool := false

/-- Inside brackets nothing of the outside matters. -/
def Mode.brackets : Mode := { inBrackets := true }

/-- Readers of the phrases that hold each other. -/
structure Grammar where
  /-- Angle brackets begin elements, not type assertions. -/
  elements : Bool
  /-- How often a phrase can be repeated at most. -/
  bound : Nat
  /-- An expression without top-level commas. -/
  assignment : Mode → Reader Expr
  /-- An expression with prefix operators, at most. -/
  unary : Mode → Reader Expr
  /-- An expression without operators. -/
  primary : Reader Expr
  type : Reader Unit
  pattern : Reader Unit
  element : Reader Unit
  statement : Reader Form

/-- The grammar in which nothing can be read. -/
def Grammar.empty (elements : Bool) (bound : Nat) : Grammar where
  elements := elements
  bound := bound
  assignment _ := failure
  unary _ := failure
  primary := failure
  type := failure
  pattern := failure
  element := failure
  statement := failure

variable (g : Grammar)

/-- The reader repeated while it succeeds. -/
def many {α : Type} (r : Reader α) : Reader (List α) := manyWithin g.bound r

/-- Phrases with commas between them, and perhaps one after them. -/
def listOf {α : Type} (item : Reader α) : Reader (List α) := do
  match ← maybe item with
  | none => pure []
  | some first =>
    let more ← many g (symbol "," *> item)
    let _ ← maybe (symbol ",")
    pure (first :: more)

/-- Phrases between two symbols, with commas between them. -/
def enclosed {α : Type} (start finish : String) (item : Reader α) : Reader (List α) := do
  symbol start
  let found ← listOf g item
  symbol finish
  pure found

/-- A phrase whose source text matters. -/
def captured {α : Type} (r : Reader (String → α)) : Reader α := do
  let _ ← skipTrivia
  let start ← here
  let build ← r
  let stop ← here
  pure (build (start.textTo stop))

/-- The end of a statement: a semicolon, or nothing where a line ends. -/
def statementEnd : Reader Unit := do
  let _ ← maybe (symbol ";")

/-! ## Literals -/

/-- A text literal in single or double quotes. -/
def stringLiteral : Reader Expr := captured do
  let c ← get
  match c.rest with
  | quote :: rest =>
    check (quote == '"' || quote == '\x27')
    match readQuoted quote (rest.length + 1) rest with
    | some (pieces, size) =>
      set (c.advance (size + 1))
      pure fun text => .string text pieces
    | none => failure
  | [] => failure

/-- The rest of a template after its opening quote, substitutions being read by `inside`: the parts
of a template without any, or nothing. -/
def templateRest (inside : Reader Unit) : Reader (Option (List Piece)) := do
  let run : Reader (List Piece) := do
    let c ← get
    let (pieces, size) := readTemplate (c.rest.length + 1) c.rest
    set (c.advance size)
    pure pieces
  let pieces ← run
  let substitutions ← many g do
    exactly "$\x7b"
    inside
    symbol "\x7d"
    let _ ← run
  exactly "\x60"
  pure (if substitutions.isEmpty then some pieces else none)

/-- Any expression, commas included. -/
def expression (mode : Mode) : Reader Expr := captured do
  let first ← g.assignment mode
  let more ← many g (symbol "," *> g.assignment mode)
  pure fun text => if more.isEmpty then first else .other text

/-- A template. -/
def templateLiteral : Reader Expr := captured do
  exactly "\x60"
  let pieces? ← templateRest g (do let _ ← expression g .brackets)
  pure fun text =>
    match pieces? with
    | some pieces => .template text pieces
    | none => .other text

/-- A number literal. -/
def numberLiteral : Reader Expr := captured do
  let c ← get
  let size := numberSize c.rest
  check (size != 0)
  set (c.advance size)
  pure fun text => .number text

/-- A regular expression. -/
def regexLiteral : Reader Expr := captured do
  exactly "/"
  let c ← get
  match regexSize false c.rest with
  | none => failure
  | some size =>
    set (c.advance size)
    let _ ← charsWhile Char.isAlpha
    pure fun text => .other text

/-! ## Imports -/

/-- The specifier that an argument of an import names, if it is a literal. -/
def specifier? : Expr → Option String
  | .string _ pieces => some (decodePieces pieces)
  | .template _ pieces => some (decodePieces pieces)
  | _ => none

/-- One argument of a call. -/
def argument : Reader Expr := captured do
  let spread ← maybe (symbol "...")
  let e ← g.assignment .brackets
  pure fun text => if spread.isSome then .other text else e

/-- The arguments of a call. -/
def arguments : Reader Unit := do
  let _ ← enclosed g "(" ")" (argument g)

/-- The arguments of an import call; its first one may name a module. -/
def importArguments : Reader Unit := do
  symbol "("
  match ← maybe (argument g) with
  | none => pure ()
  | some first =>
    match specifier? first with
    | some specifier => noteImport specifier
    | none => pure ()
    let _ ← many g (symbol "," *> argument g)
    let _ ← maybe (symbol ",")
  symbol ")"

/-! ## Property names -/

/-- A private name. -/
def privateName : Reader Unit := do
  symbol "#"
  let _ ← word g.bound

/-- The name of a property: its key, if it is a plain name or a text literal. -/
def propertyName : Reader (Option String) :=
  (some <$> word g.bound) <|>
    (do
      match ← stringLiteral with
      | .string _ pieces => pure (some (decodePieces pieces))
      | _ => pure none) <|>
    (do
      let _ ← numberLiteral
      pure none) <|>
    (do
      privateName g
      pure none) <|>
    (do
      symbol "["
      let _ ← expression g .brackets
      symbol "]"
      pure none)

/-- One of the words, where the name of a property follows it. -/
def modifier (words : List String) : Reader String := do
  let w ← oneOf words
  match ← nextChar? with
  | some c => check (isNameChar c || "\"\x27#[*\x7b".toList.contains c)
  | none => failure
  pure w

end StoryRegistry.Script
