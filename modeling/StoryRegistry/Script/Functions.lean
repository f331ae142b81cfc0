import StoryRegistry.Script.Types

/-!
# Patterns, functions and classes

A function is kept as its source text wherever it is a value. Of patterns and class bodies only the
modules they import are kept.
-/

set_option autoImplicit false

namespace StoryRegistry.Script

variable (g : Grammar)

/-! ## Patterns -/

/-- `= value` after what it is the default of. -/
def defaultValue : Reader Unit := do
  symbolNot "=" ['>', '=']
  let _ ← g.assignment .brackets

/-- One part of an object pattern. -/
def objectPatternPart : Reader Unit :=
  (do
    symbol "..."
    g.pattern) <|>
    (do
      let _ ← propertyName g
      symbol ":"
      g.pattern
      let _ ← maybe (defaultValue g)) <|>
    (do
      let _ ← word g.bound
      let _ ← maybe (defaultValue g))

/-- One part of an array pattern. -/
def arrayPatternPart : Reader Unit := do
  let _ ← maybe (symbol "...")
  g.pattern
  let _ ← maybe (defaultValue g)

/-- What a variable or parameter is bound by. -/
def anyPattern : Reader Unit := do
  match ← nextChar? with
  | some '\x7b' => do let _ ← enclosed g "\x7b" "\x7d" (objectPatternPart g)
  | some '[' => do
    symbol "["
    let _ ← many g (symbol ",")
    let _ ← many g (do arrayPatternPart g; let _ ← many g (symbol ","))
    symbol "]"
  | _ => do
    let w ← word g.bound
    check (!reservedWords.contains w || w == "this")

/-! ## Functions -/

/-- Statements between braces. -/
def block : Reader Unit := do
  symbol "\x7b"
  let _ ← many g g.statement
  symbol "\x7d"

/-- The word `async`, with what it belongs to on the same line. -/
def asyncWord : Reader Unit := do
  keyword "async"
  check (!(← newlineAhead))

/-- A function as a value. -/
def functionExpression : Reader Expr := captured do
  let _ ← maybe asyncWord
  keyword "function"
  let _ ← maybe (symbol "*")
  let _ ← maybe (word g.bound)
  signature g
  block g
  pure .function

/-- An arrow function up to its arrow. -/
def arrowHead (mode : Mode) : Reader Unit := do
  (do
    let _ ← maybe do
      asyncWord
      check (!(← sees (symbol "=>")))
    let _ ← name g.bound) <|>
    (do
      let _ ← maybe asyncWord
      let _ ← maybe (typeParameters g)
      parameters g
      if mode.beforeColon then pure () else do let _ ← maybe (ascription g))
  symbol "=>"

/-- An arrow function, and whether its body is a block. -/
def arrowFunction (mode : Mode) : Reader (Expr × Bool) := captured do
  arrowHead g mode
  let isBlock := (← nextChar?) == some '\x7b'
  if isBlock then block g else do let _ ← g.assignment mode
  pure fun text => (.function text, isBlock)

/-- A method of an object or class after its modifiers and name. -/
def methodRest : Reader Unit := do
  signature g
  block g

/-! ## Classes -/

/-- Words that can stand before a member of a class. -/
def memberModifiers : List String :=
  ["public", "private", "protected", "static", "abstract", "override", "readonly", "declare",
    "async", "get", "set", "accessor"]

/-- One member of a class. -/
def classMember : Reader Unit :=
  (symbol ";" <|> symbol ",") <|>
    (do
      symbol "@"
      let _ ← g.unary .brackets) <|>
    (do
      keyword "static"
      block g) <|>
    (do
      let _ ← manyWithin 6 (modifier memberModifiers)
      let _ ← maybe (symbol "*")
      let index : Reader Unit := do
        symbol "["
        let _ ← word g.bound
        ascription g
        symbol "]"
      index <|> (do let _ ← propertyName g)
      let _ ← maybe (symbol "?" <|> symbolNot "!" ['='])
      (do
        signature g
        let _ ← maybe (block g)) <|>
        (do
          let _ ← maybe (ascription g)
          let _ ← maybe do
            symbolNot "=" ['>', '=']
            let _ ← expression g {}))

/-- A class from the word `class` on. -/
def classRest : Reader Unit := do
  keyword "class"
  let _ ← maybe do
    let w ← name g.bound
    check (w != "implements")
  let _ ← maybe (typeParameters g)
  let _ ← maybe do
    keyword "extends"
    let _ ← listOf g do
      let _ ← g.unary .brackets
      let _ ← maybe (typeArguments g)
  let _ ← maybe do
    keyword "implements"
    let _ ← listOf g g.type
  symbol "\x7b"
  let _ ← many g (classMember g)
  symbol "\x7d"

/-- Decorators before a class or member. -/
def decorators : Reader Unit := do
  let _ ← many g do
    symbol "@"
    let _ ← g.unary .brackets

end StoryRegistry.Script
