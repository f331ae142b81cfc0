import StoryRegistry.Script.Expressions

/-!
# Reading statements

Declarations, assignments and exports are told apart; of every other statement only the modules it
imports are kept. A declared function keeps its source text, which runs over a comment on its last
line when that line ends the statement.
-/

set_option autoImplicit false

namespace StoryRegistry.Script

variable (g : Grammar)

/-! ## Declarations -/

/-- One declared variable, with its value if it is a plain name that has one. -/
def declarator (mode : Mode) : Reader (Option (String × Expr)) := do
  let variableName ← maybe (name g.bound)
  if variableName.isNone then g.pattern
  let _ ← maybe (symbolNot "!" ['='])
  let _ ← maybe (ascription g)
  let initial ← maybe do
    symbolNot "=" ['=', '>']
    g.assignment mode
  pure do some (← variableName, ← initial)

/-- Declared variables. -/
def declarators (mode : Mode) : Reader (List (String × Expr)) := do
  let _ ← oneOf ["const", "let", "var"]
  let first ← declarator g mode
  let more ← many g (symbol "," *> declarator g mode)
  pure ((first :: more).filterMap id)

/-- The text at the beginning of a line does not go on with the statement before. -/
def beginsStatement : List Char → Bool
  | '+' :: rest => rest.head? == some '+'
  | '-' :: rest => rest.head? == some '-'
  | '!' :: rest => rest.head? != some '='
  | 'i' :: 'n' :: rest =>
    let isLetter (s : List Char) : Bool := s.head?.any Char.isAlpha
    match Text.dropStart? "stanceof".toList rest with
    | some after => isLetter after
    | none => isLetter rest
  | c :: _ => !("\x60,.;*%><=?^|&/:".toList.contains c)
  | [] => true

/-- Where a function declaration ends whose body has just been read: behind the comments of the
same line, if the line ends the statement, else right here. -/
def declarationEnd : Nat → Cursor → Cursor → Cursor
  | 0, body, _ => body
  | fuel + 1, body, c =>
    let gap := (c.rest.takeWhile fun x => isSpace x && x != '\n').length
    let next := c.advance gap
    match next.rest with
    | [] => c
    | '\x7d' :: _ => c
    | '\n' :: rest => if beginsStatement (triviaOf rest).rest then c else body
    | '/' :: '/' :: rest =>
      let size := (rest.takeWhile fun x => !isLineEnd x).length
      declarationEnd fuel body (next.advance (size + 2))
    | '/' :: '*' :: rest =>
      match Text.cutAt? "*/".toList rest with
      | some (inside, _) => declarationEnd fuel body (next.advance (inside.length + 4))
      | none => body
    | _ => body

/-- A declared function: its name and text, if it is no generator and has a body. -/
def functionDeclaration : Reader (Option (String × String)) := do
  let _ ← skipTrivia
  let start ← here
  let _ ← maybe asyncWord
  keyword "function"
  let generator ← maybe (symbol "*")
  let functionName ← word g.bound
  signature g
  match ← maybe (block g) with
  | none =>
    statementEnd
    pure none
  | some _ =>
    let body ← here
    let stop := declarationEnd g.bound body body
    set stop
    pure (if generator.isSome then none else some (functionName, start.textTo stop))

/-- An interface. -/
def interfaceDeclaration : Reader Unit := do
  keyword "interface"
  let _ ← name g.bound
  let _ ← maybe (typeParameters g)
  let _ ← maybe do
    keyword "extends"
    let _ ← listOf g g.type
  objectType g

/-- A named type. -/
def typeDeclaration : Reader Unit := do
  keyword "type"
  let _ ← name g.bound
  let _ ← maybe (typeParameters g)
  symbolNot "=" ['=', '>']
  g.type
  statementEnd

/-- An enumeration. -/
def enumDeclaration : Reader Unit := do
  let _ ← maybe (keyword "const")
  keyword "enum"
  let _ ← name g.bound
  let _ ← enclosed g "\x7b" "\x7d" do
    let _ ← propertyName g
    let _ ← maybe (defaultValue g)

/-- A name space, or a described module. -/
def spaceDeclaration : Reader Unit := do
  let described : Reader Unit := do
    let _ ← stringLiteral
    (block g <|> statementEnd)
  (do
    keyword "namespace" <|> keyword "module"
    check (!(← newlineAhead))
    described <|> do
      let _ ← name g.bound
      let _ ← many g (do symbol "."; let _ ← word g.bound)
      block g) <|>
    (do
      keyword "global"
      block g)

/-- A declared class. -/
def classDeclaration : Reader Unit := do
  decorators g
  let _ ← maybe (keyword "abstract")
  classRest g

/-- A declaration of something that is no value, or whose value does not matter. -/
def hiddenDeclaration : Reader Unit :=
  classDeclaration g <|> interfaceDeclaration g <|> typeDeclaration g <|> enumDeclaration g <|>
    spaceDeclaration g

/-- A declaration of something that exists elsewhere. -/
def ambientDeclaration : Reader Unit := do
  keyword "declare"
  check (!(← newlineAhead))
  hiddenDeclaration g <|>
    (do
      let _ ← declarators g {}
      statementEnd) <|>
    (do let _ ← functionDeclaration g)

/-! ## Imports and exports -/

/-- Attributes of an imported module. -/
def importAttributes : Reader Unit := do
  let _ ← maybe do
    keyword "with" <|> keyword "assert"
    let _ ← objectLiteral g

/-- The module that an import names. -/
def importSource : Reader Unit := do
  let source ← stringLiteral
  match specifier? source with
  | some specifier => noteImport specifier
  | none => pure ()
  importAttributes g

/-- A name or text in the list of an import or export. -/
def listedWord : Reader String := word g.bound <|> (Expr.text <$> stringLiteral)

/-- The words of each entry in the list of an import or export. -/
def listedWords : Reader (List (List String)) :=
  enclosed g "\x7b" "\x7d" do
    let first ← listedWord g
    let more ← many g (listedWord g)
    pure (first :: more)

/-- Names that an import binds, up to the word `from`. -/
def importClause : Reader Unit := do
  let group : Reader Unit :=
    (do let _ ← listedWords g) <|>
      (do
        symbol "*"
        keyword "as"
        let _ ← word g.bound)
  group <|> do
    let _ ← name g.bound
    let _ ← maybe (do symbol ","; group)
  keyword "from"

/-- `a = b.c` or `a = require("m")`, which name no module of their own. -/
def importAlias : Reader Unit := do
  let _ ← maybe do
    keyword "type"
    check (!(← sees (symbol "=")))
  let _ ← name g.bound
  symbolNot "=" ['=', '>']
  let _ ← leftHandSide g

/-- An import. -/
def importStatement : Reader Unit := do
  keyword "import"
  importSource g <|>
    (do
      keyword "type" <|> keyword "typeof"
      importClause g
      importSource g) <|>
    (do
      importClause g
      importSource g) <|>
    importAlias g
  statementEnd

/-- The exported and the local name of an entry. -/
def exportedName? : List String → Option (String × String)
  | [a] => some (a, a)
  | [a, "as", b] => some (b, a)
  | [_, a] => some (a, a)
  | [_, a, "as", b] => some (b, a)
  | _ => none

/-- What a default export gives. -/
def exportedDefault : Reader Expr :=
  (captured do
    let _ ← functionDeclaration g
    pure .other) <|>
    (captured do
      classDeclaration g <|> interfaceDeclaration g <|> enumDeclaration g
      pure .other) <|>
    (do
      let e ← g.assignment {}
      statementEnd
      pure e)

/-- An export. -/
def exportStatement : Reader Form := do
  decorators g
  keyword "export"
  let source : Reader Unit := do
    keyword "from"
    let _ ← stringLiteral
    importAttributes g
  let typeWord : Reader Unit := do let _ ← maybe (keyword "type" <|> keyword "typeof")
  (do
    keyword "default"
    return .defaultExport (← exportedDefault g)) <|>
    (do
      typeWord
      symbol "*"
      let _ ← maybe (do keyword "as"; let _ ← listedWord g)
      source
      statementEnd
      pure .other) <|>
    (do
      typeWord
      let listed ← listedWords g
      let from? ← maybe source
      statementEnd
      pure (if from?.isSome then .other else .exports (listed.filterMap exportedName?))) <|>
    (do
      symbol "="
      let _ ← expression g {}
      statementEnd
      pure .other) <|>
    (do
      keyword "as"
      keyword "namespace"
      let _ ← word g.bound
      statementEnd
      pure .other) <|>
    (do
      keyword "import"
      importAlias g
      statementEnd
      pure .other) <|>
    (do
      match ← functionDeclaration g with
      | some (functionName, text) => pure (.function true functionName text)
      | none => pure .other) <|>
    (do
      hiddenDeclaration g <|> ambientDeclaration g
      pure .other) <|>
    (do
      let declared ← declarators g {}
      statementEnd
      pure (.bindings true declared))

/-! ## Control -/

/-- A condition or subject in parentheses. -/
def subject : Reader Unit := do
  symbol "("
  let _ ← expression g .brackets
  symbol ")"

/-- The head of a `for`. -/
def loopHead : Reader Unit := do
  let mode : Mode := { inHead := true, inBrackets := true }
  symbol "("
  let _ ← maybe ((do let _ ← declarators g mode) <|> (do let _ ← expression g mode))
  (do
    keyword "of" <|> keyword "in"
    let _ ← expression g .brackets) <|>
    (do
      symbol ";"
      let _ ← maybe (expression g .brackets)
      symbol ";"
      let _ ← maybe (expression g .brackets))
  symbol ")"

/-- One case of a `switch`. -/
def switchCase : Reader Unit := do
  (do
    keyword "case"
    let _ ← expression g .brackets) <|> keyword "default"
  symbol ":"
  let _ ← many g g.statement

/-- A statement that decides what is done. -/
def controlStatement : Reader Unit :=
  let nested : Reader Unit := do let _ ← g.statement
  (do
    keyword "if"
    subject g
    nested
    let _ ← maybe (do keyword "else"; nested)) <|>
    (do
      keyword "for"
      let _ ← maybe (keyword "await")
      loopHead g
      nested) <|>
    (do
      keyword "while" <|> keyword "with"
      subject g
      nested) <|>
    (do
      keyword "do"
      nested
      keyword "while"
      subject g
      statementEnd) <|>
    (do
      keyword "switch"
      subject g
      symbol "\x7b"
      let _ ← many g (switchCase g)
      symbol "\x7d") <|>
    (do
      keyword "try"
      block g
      let _ ← maybe do
        keyword "catch"
        let _ ← maybe (parameters g)
        block g
      let _ ← maybe (do keyword "finally"; block g)) <|>
    (do
      keyword "return" <|> keyword "throw"
      let _ ← maybe do
        check (!(← newlineAhead))
        expression g {}
      statementEnd) <|>
    (do
      keyword "break" <|> keyword "continue"
      let _ ← maybe do
        check (!(← newlineAhead))
        name g.bound
      statementEnd) <|>
    (do
      keyword "debugger"
      statementEnd) <|>
    (do
      let _ ← name g.bound
      symbol ":"
      nested)

/-- An expression as a statement. -/
def expressionStatement : Reader Form := do
  let e ← expression g {}
  statementEnd
  match e with
  | .assignment _ (.member _ (.name target) field) value => pure (.assignment target field value)
  | _ => pure .other

/-- A statement. -/
def anyStatement : Reader Form := do
  let hidden (r : Reader Unit) : Reader Form := r *> pure .other
  match ← nextChar? with
  | none => failure
  | some '\x7d' => failure
  | some '\x7b' => hidden (block g)
  | some ';' => hidden (symbol ";")
  | some '@' => exportStatement g <|> hidden (classDeclaration g)
  | some _ =>
    exportStatement g <|> hidden (importStatement g) <|>
      (do
        match ← functionDeclaration g with
        | some (functionName, text) => pure (.function false functionName text)
        | none => pure .other) <|>
      hidden (hiddenDeclaration g) <|> hidden (ambientDeclaration g) <|>
      (do
        let declared ← declarators g {}
        statementEnd
        pure (.bindings false declared)) <|>
      hidden (controlStatement g) <|> expressionStatement g

end StoryRegistry.Script
