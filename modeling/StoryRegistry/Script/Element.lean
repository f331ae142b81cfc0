import StoryRegistry.Script.Types

/-!
# Elements

An element is a tag with attributes and children. Its text children are read as they stand: in them
quotes and comment signs mean nothing.
-/

set_option autoImplicit false

namespace StoryRegistry.Script

variable (g : Grammar)

/-- The name of an element or attribute. -/
def elementName : Reader Unit := do
  let isPart (c : Char) : Bool := isNameChar c || c == '-'
  let segment : Reader Unit := do
    let _ ← skipTrivia
    let c ← charWhere isNameChar
    check (!c.isDigit)
    let _ ← charsWhile isPart
  segment
  let _ ← many g do
    symbol "." <|> symbol ":"
    segment

/-- An expression in braces, which may be spread or missing. -/
def container : Reader Unit := do
  symbol "\x7b"
  let _ ← maybe do
    let _ ← maybe (symbol "...")
    expression g .brackets
  symbol "\x7d"

/-- A quoted attribute value, in which nothing is escaped. -/
def attributeText : Reader Unit := do
  let _ ← skipTrivia
  let quote ← charWhere fun c => c == '"' || c == '\x27'
  let _ ← charsWhile (· != quote)
  let _ ← charWhere (· == quote)

/-- One attribute. -/
def elementAttribute : Reader Unit :=
  container g <|> do
    elementName g
    let _ ← maybe do
      symbol "="
      attributeText <|> container g <|> g.element

/-- Children up to the closing tag. -/
def children : Reader Unit := do
  let run : Reader Unit := do
    let _ ← charsWhile fun c => c != '<' && c != '\x7b'
  run
  let _ ← many g do
    let c ← get
    match c.rest with
    | '\x7b' :: _ => container g
    | '<' :: rest =>
      check ((triviaOf rest).rest.head? != some '/')
      g.element
    | _ => failure
    run

/-- An element with its children, or a fragment. -/
def anyElement : Reader Unit := do
  symbol "<"
  let closing (tag : Reader Unit) : Reader Unit := do
    children g
    symbol "<"
    symbol "/"
    tag
    symbol ">"
  (do
    symbol ">"
    closing (pure ())) <|>
    (do
      elementName g
      let _ ← maybe (typeArguments g)
      let _ ← many g (elementAttribute g)
      (do symbol "/"; symbol ">") <|> (do symbol ">"; closing (elementName g)))

end StoryRegistry.Script
