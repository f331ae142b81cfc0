import StoryRegistry.Script.Grammar

/-!
# Types

Types leave nothing behind but the modules that they import.
-/

set_option autoImplicit false

namespace StoryRegistry.Script

variable (g : Grammar)

/-- `<A, B>` after the name of something generic. -/
def typeArguments : Reader Unit := do
  symbolNot "<" ['<', '=']
  let _ ← listOf g g.type
  symbol ">"

/-- `: A`. -/
def ascription : Reader Unit := do
  symbol ":"
  g.type

/-- `<A extends B = C>` where something generic is declared. -/
def typeParameters : Reader Unit := do
  symbolNot "<" ['<', '=']
  let _ ← listOf g do
    let _ ← manyWithin 3 do
      let _ ← oneOf ["const", "in", "out"]
      check (← sees (word g.bound))
    let _ ← word g.bound
    let _ ← maybe (do keyword "extends"; g.type)
    let _ ← maybe (do symbolNot "=" ['>']; g.type)
  symbol ">"

/-- One parameter of a function. -/
def parameter : Reader Unit := do
  let _ ← many g (do symbol "@"; let _ ← g.unary .brackets)
  let _ ← manyWithin 3 (modifier ["public", "private", "protected", "readonly", "override"])
  let _ ← maybe (symbol "...")
  g.pattern
  let _ ← maybe (symbol "?")
  let _ ← maybe (ascription g)
  let _ ← maybe (do symbolNot "=" ['>', '=']; let _ ← g.assignment .brackets)

/-- The parameters of a function. -/
def parameters : Reader Unit := do
  let _ ← enclosed g "(" ")" (parameter g)

/-- What a function is called with and what it gives, without its body. -/
def signature : Reader Unit := do
  let _ ← maybe (typeParameters g)
  parameters g
  let _ ← maybe (ascription g)

/-- `(a: A) => B`, perhaps generic, perhaps a constructor. -/
def functionType : Reader Unit := do
  let _ ← maybe (keyword "abstract")
  let _ ← maybe (keyword "new")
  let _ ← maybe (typeParameters g)
  parameters g
  symbol "=>"
  g.type

/-- A member of an object type or interface. -/
def typeMember : Reader Unit := do
  let _ ← maybe (do (symbol "+" <|> symbol "-"); keyword "readonly")
  let _ ← manyWithin 4 (modifier ["readonly", "get", "set", "static"])
  let optional : Reader Unit := do
    let _ ← maybe (symbol "+" <|> symbol "-")
    let _ ← maybe (symbol "?")
  let index : Reader Unit := do
    symbol "["
    let _ ← word g.bound
    ((do keyword "in"; g.type; let _ ← maybe (do keyword "as"; g.type)) <|> ascription g)
    symbol "]"
  let named : Reader Unit := do
    index <|> (do let _ ← propertyName g)
    optional
    signature g <|> (do let _ ← maybe (ascription g))
  (do keyword "new"; signature g) <|> signature g <|> named

/-- `{ a: A; b(): B }`. -/
def objectType : Reader Unit := do
  symbol "\x7b"
  let separator : Reader Unit := symbol ";" <|> symbol ","
  let _ ← maybe (symbol "|")
  let _ ← many g separator
  let _ ← many g (do typeMember g; let _ ← many g separator)
  let _ ← maybe (symbol "|")
  symbol "\x7d"

/-- `[a: A, b?: B, ...C]`. -/
def tupleType : Reader Unit := do
  let _ ← enclosed g "[" "]" do
    let _ ← maybe (symbol "...")
    (do
      let _ ← word g.bound
      let _ ← maybe (symbol "?")
      ascription g) <|>
      (do
        g.type
        let _ ← maybe (symbol "?"))

/-- Reserved words that are types. -/
def typeWords : List String := ["void", "null", "this", "true", "false"]

/-- A type's name, with the names of the spaces it lies in. -/
def typeName : Reader Unit := do
  let w ← word g.bound
  check (!reservedWords.contains w || typeWords.contains w)
  let _ ← many g (do symbolNot "." ['.']; let _ ← word g.bound)

/-- Type arguments on the same line. -/
def typeArgumentsHere : Reader Unit := do
  check (!(← newlineAhead))
  typeArguments g

/-- The names that follow an imported module or a value in a type. -/
def typePath : Reader Unit := do
  let _ ← many g (do symbolNot "." ['.']; (privateName g <|> (do let _ ← word g.bound)))
  let _ ← maybe (typeArgumentsHere g)

/-- A type without operators. -/
def primaryType : Reader Unit := do
  let _ ← skipTrivia
  let start ← here
  match start.rest.head? with
  | some '(' => do symbol "("; g.type; symbol ")"
  | some '\x7b' => objectType g
  | some '[' => tupleType g
  | some '"' | some '\x27' => do let _ ← stringLiteral
  | some '\x60' => do
    exactly "\x60"
    let _ ← templateRest g g.type
  | some '-' => do
    symbol "-"
    let _ ← numberLiteral
  | some c =>
    if c.isDigit then do let _ ← numberLiteral
    else
      (do
        keyword "typeof"
        (do keyword "import"; importArguments g) <|> (do let _ ← word g.bound)
        typePath g) <|>
      (do
        keyword "import"
        importArguments g
        typePath g) <|>
      (do
        keyword "infer"
        let _ ← word g.bound
        let _ ← maybe do
          keyword "extends"
          g.type
          check (!(← sees (symbol "?")))) <|>
      (do
        typeName g
        let _ ← maybe (typeArgumentsHere g))
  | none => failure

/-- A type with its array brackets and prefix words. -/
def operandType : Reader Unit := do
  let _ ← manyWithin 4 do
    let _ ← oneOf ["keyof", "unique", "readonly", "asserts"]
    match ← nextChar? with
    | some c => check (isNameChar c || "([\x7b\"\x27\x60".toList.contains c)
    | none => failure
    check (!(← sees (keyword "is")))
  primaryType g
  let _ ← many g do
    check (!(← newlineAhead))
    symbol "["
    let _ ← maybe g.type
    symbol "]"
  let _ ← maybe do
    check (!(← newlineAhead))
    keyword "is"
    g.type

/-- Any type. -/
def anyType : Reader Unit :=
  functionType g <|> do
    let operator : Reader Unit := symbolNot "|" ['|', '='] <|> symbolNot "&" ['&', '=']
    let operand : Reader Unit := functionType g <|> operandType g
    let _ ← maybe operator
    operand
    let _ ← many g (operator *> operand)
    let _ ← maybe do
      check (!(← newlineAhead))
      keyword "extends"
      g.type
      symbol "?"
      g.type
      symbol ":"
      g.type

end StoryRegistry.Script
