import StoryRegistry.Script.Functions
import StoryRegistry.Script.Element

/-!
# Reading expressions

Only the outermost shape of an expression matters, so operators are read as a flat sequence: an
expression with an operator in it is not read any further, whatever binds tighter. `as` and
`satisfies` wrap all that stands before them.
-/

set_option autoImplicit false

namespace StoryRegistry.Script

variable (g : Grammar)

/-! ## Without operators -/

/-- A parenthesised expression; it wraps nothing if a comment comes first in it. -/
def parenthesized : Reader Expr := captured do
  symbol "("
  let gap ← skipTrivia
  let e ← expression g .brackets
  let _ ← maybe (ascription g)
  symbol ")"
  pure fun text => if gap.comment then .other text else .wrapped text e

/-- An array. -/
def arrayLiteral : Reader Expr := captured do
  symbol "["
  let _ ← many g (symbol ",")
  let items ← many g do
    let item ← argument g
    let _ ← many g (symbol ",")
    pure item
  symbol "]"
  pure fun text => .array text items

/-- Words that can stand before a method of an object. -/
def methodModifiers : List String := ["async", "get", "set", "static", "readonly", "override"]

/-- A member of an object: the key it sets, if it can be read, with what it sets it to. -/
def objectMember : Reader (Option (String × Expr)) :=
  (do
    symbol "..."
    let _ ← g.assignment .brackets
    pure none) <|>
    (do
      let key ← propertyName g
      symbol ":"
      let e ← g.assignment .brackets
      pure (key.map fun key => (key, e))) <|>
    (captured do
      let _ ← many g (modifier methodModifiers)
      let _ ← maybe (symbol "*")
      let key ← propertyName g
      let _ ← maybe (symbol "?")
      methodRest g
      pure fun text => key.map fun key => (key, .other text)) <|>
    (do
      let key ← name g.bound
      match ← maybe (defaultValue g) with
      | some _ => pure none
      | none => pure (some (key, .other key)))

/-- An object. -/
def objectLiteral : Reader Expr := captured do
  symbol "\x7b"
  let _ ← many g (symbol ",")
  let members ← many g do
    let found ← objectMember g
    let _ ← many g (symbol ",")
    pure found
  symbol "\x7d"
  pure fun text => .object text (members.filterMap id)

/-- What `new` makes an instance of, with the arguments. -/
def newRest : Reader Unit :=
  (do
    symbol "."
    keyword "target") <|>
    (do
      let _ ← g.primary
      let _ ← many g
        ((do symbolNot "." ['.']; (privateName g <|> (do let _ ← word g.bound))) <|>
          (do symbol "["; let _ ← expression g .brackets; symbol "]"))
      let _ ← maybe (typeArguments g)
      let _ ← maybe (arguments g))

/-- An expression that begins with a word. -/
def wordExpression : Reader Expr := captured do
  let w ← word g.bound
  match w with
  | "true" => pure fun _ => .bool true
  | "false" => pure fun _ => .bool false
  | "null" => pure fun _ => .null
  | "this" | "super" | "undefined" => pure .other
  | "new" =>
    newRest g
    pure .other
  | "import" =>
    (do
      importArguments g
      pure .call) <|>
      (do
        symbol "."
        let _ ← word g.bound
        pure .other)
  | _ =>
    check (!reservedWords.contains w)
    pure .name

/-- An expression without operators. -/
def anyPrimary : Reader Expr := do
  let _ ← skipTrivia
  let c ← get
  match c.rest with
  | [] => failure
  | first :: _ =>
    if first == '"' || first == '\x27' then stringLiteral
    else if first == '\x60' then templateLiteral g
    else if first == '(' then parenthesized g
    else if first == '[' then arrayLiteral g
    else if first == '\x7b' then objectLiteral g
    else if first == '<' then captured (do g.element; pure .other)
    else if first == '/' then regexLiteral
    else if first == '#' then captured (do privateName g; pure .other)
    else if first == '@' then captured (do decorators g; classRest g; pure .other)
    else if first.isDigit || first == '.' then numberLiteral
    else
      functionExpression g <|> captured (do classRest g; pure .other) <|> wordExpression g

/-! ## Calls and members -/

/-- The characters after which type arguments stand for themselves. -/
def endsInstance : List Char := [')', ']', ',', ';', ':', '\x7d', '\x7b', '.', '?', '=', '&', '|']

/-- One step from an expression to what is called on it or taken from it. -/
def postfixStep (start : Cursor) (e : Expr) : Reader Expr := do
  let ending : Reader String := return start.textTo (← here)
  let taken : Reader Expr := do
    let fieldStart ← (do let _ ← skipTrivia; here)
    privateName g <|> (do let _ ← word g.bound)
    let stop ← here
    pure (.member (start.textTo stop) e (fieldStart.textTo stop))
  let indexed : Reader Expr := do
    symbol "["
    let _ ← expression g .brackets
    symbol "]"
    return .other (← ending)
  let called : Reader Expr := do
    arguments g
    return .call (← ending)
  let tagged : Reader Expr := do
    let _ ← skipTrivia
    let _ ← templateLiteral g
    return .call (← ending)
  let generic : Reader Expr := do
    typeArguments g
    called <|> tagged <|> do
      let text ← ending
      let next ← nextChar?
      check (next.isNone || next.any endsInstance.contains || (← newlineAhead))
      pure (.other text)
  (do
    symbol "?."
    called <|> indexed <|> generic <|> taken) <|>
    (do
      symbolNot "." ['.']
      taken) <|>
    indexed <|> called <|> tagged <|> generic <|>
    (do
      check (!(← newlineAhead))
      symbolNot "!" ['=']
      return .wrapped (← ending) e) <|>
    (do
      check (!(← newlineAhead))
      symbol "++" <|> symbol "--"
      return .other (← ending))

/-- All such steps from an expression on. -/
def postfixSteps (start : Cursor) : Nat → Expr → Reader Expr
  | 0, e => pure e
  | fuel + 1, e => do
    match ← maybe (postfixStep g start e) with
    | some next => postfixSteps start fuel next
    | none => pure e

/-- An expression with its calls and members. -/
def leftHandSide : Reader Expr := do
  let _ ← skipTrivia
  let start ← here
  let e ← g.primary
  postfixSteps g start g.bound e

/-! ## Operators -/

/-- An expression with prefix operators. -/
def anyUnary (mode : Mode) : Reader Expr := do
  let prefixed (operator : String) (r : Reader Unit) : Reader Expr := captured do
    r
    let operand ← g.unary mode
    pure fun text => .signed text operator operand
  let hidden (r : Reader Unit) : Reader Expr := captured do
    r
    let _ ← g.unary mode
    pure .other
  match ← nextChar? with
  | some '!' => prefixed "!" (symbol "!")
  | some '~' => prefixed "~" (symbol "~")
  | some '+' => prefixed "+" (symbolNot "+" ['+']) <|> hidden (symbol "++")
  | some '-' => prefixed "-" (symbolNot "-" ['-']) <|> hidden (symbol "--")
  | some '<' =>
    if g.elements then leftHandSide g
    else hidden (typeArguments g) <|> hidden (do symbol "<"; keyword "const"; symbol ">")
  | _ =>
    prefixed "typeof" (keyword "typeof") <|> prefixed "void" (keyword "void") <|>
      prefixed "delete" (keyword "delete") <|> hidden (keyword "await") <|> leftHandSide g

/-- The operators between two operands, each with the characters that make it another operator. -/
def binarySymbols : List (String × List Char) :=
  [(">>>", ['=']), (">>", ['=', '>']), ("<<", ['=']), ("**", ['=']), ("&&", ['=']), ("||", ['=']),
    ("??", ['=']), ("===", []), ("!==", []), ("==", ['=']), ("!=", ['=']), ("<=", []), (">=", []),
    ("<", ['<', '=']), (">", ['>', '=']), ("+", ['=', '+']), ("-", ['=', '-']), ("*", ['=', '*']),
    ("/", ['=']), ("%", ['=']), ("&", ['=', '&']), ("|", ['=', '|']), ("^", ['='])]

/-- One of the symbols. -/
def anySymbol : List (String × List Char) → Reader Unit
  | [] => failure
  | (s, followers) :: rest => symbolNot s followers <|> anySymbol rest

/-- An operator between two operands. -/
def binaryOperator (mode : Mode) : Reader Unit :=
  anySymbol binarySymbols <|> keyword "instanceof" <|> do
    check (!mode.inHead)
    keyword "in"

/-- `as T` or `satisfies T`. -/
def cast (mode : Mode) : Reader Unit := do
  check (mode.inBrackets || !(← newlineAhead))
  keyword "as" <|> keyword "satisfies"
  keyword "const" <|> g.type

/-- Operators with their further operands, from an expression on. -/
def operatorSteps (mode : Mode) (start : Cursor) : Nat → Expr → Reader Expr
  | 0, e => pure e
  | fuel + 1, e => do
    let step : Reader Expr :=
      (do
        cast g mode
        return .wrapped (start.textTo (← here)) e) <|>
        (do
          binaryOperator mode
          let _ ← g.unary mode
          return .other (start.textTo (← here)))
    match ← maybe step with
    | some next => operatorSteps mode start fuel next
    | none => pure e

/-- `a ? b : c` after its condition. -/
def conditionalRest (mode : Mode) : Reader Unit := do
  symbolNot "?" ['.', '?']
  let branches (first : Mode) : Reader Unit := do
    let _ ← g.assignment first
    symbol ":"
    let _ ← g.assignment mode
  branches .brackets <|> branches { inBrackets := true, beforeColon := true }

/-- The operators that assign after computing, each with the characters that make it another. -/
def updateSymbols : List String :=
  ["+=", "-=", "**=", "*=", "/=", "%=", "<<=", ">>>=", ">>=", "&&=", "||=", "??=", "&=", "|=", "^="]

/-- An expression without top-level commas. -/
def anyAssignment (mode : Mode) : Reader Expr := do
  let _ ← skipTrivia
  let start ← here
  let ending : Reader String := return start.textTo (← here)
  (do
    keyword "yield"
    let _ ← maybe (symbol "*")
    let _ ← maybe do
      check (!(← newlineAhead))
      g.assignment mode
    return .other (← ending)) <|>
    (do
      let (e, isBlock) ← arrowFunction g mode
      if isBlock then operatorSteps g mode start g.bound e else pure e) <|>
    (do
      let first ← anyUnary g mode
      let e ← operatorSteps g mode start g.bound first
      (do
        symbolNot "=" ['=', '>']
        let right ← g.assignment mode
        return .assignment (← ending) e right) <|>
        (do
          updateSymbols.foldr (fun s r => symbol s <|> r) failure
          let _ ← g.assignment mode
          return .other (← ending)) <|>
        (do
          conditionalRest g mode
          return .other (← ending)) <|>
        pure e)

end StoryRegistry.Script
