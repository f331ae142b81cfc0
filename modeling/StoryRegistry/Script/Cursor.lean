import StoryRegistry.Text.Blank
import StoryRegistry.Text.Split

/-!
# Reading a module's text

A cursor stands somewhere in the text of a module and remembers which modules were imported so far.
A reader moves the cursor over a piece of text or fails; a failed reader leaves no trace. Blanks and
comments may stand before every token, so a token reader first skips them; after a reader the
cursor stands right behind its last token.
-/

set_option autoImplicit false

namespace StoryRegistry.Script

/-- A place in the text: what is left of it, how much has been read, and the specifiers imported so
far, the latest first. -/
structure Cursor where
  rest : List Char
  position : Nat
  imports : List String

/-- A reader of a piece of text. -/
abbrev Reader := StateT Cursor Option

/-! ## Blanks and comments -/

/-- A character that may separate tokens. -/
def isSpace (c : Char) : Bool :=
  Text.isBlank c || c == '\uFEFF' || c == '\u2060' || c == '\u200B'

/-- A character that ends a line. -/
def isLineEnd (c : Char) : Bool := c == '\n' || c == '\r' || c == '\u2028' || c == '\u2029'

/-- What a walk over blanks and comments is inside of. -/
inductive Gap where
  | blanks
  | lineComment
  | blockComment

/-- What was found between two tokens. -/
structure Trivia where
  /-- The number of characters. -/
  size : Nat
  /-- A line ended. -/
  newline : Bool
  /-- There was a comment. -/
  comment : Bool
  /-- The text that follows. -/
  rest : List Char

/-- Walks over blanks and comments. -/
def skipFrom : Gap → Nat → Bool → Bool → List Char → Trivia
  | .blanks, n, newline, _, '/' :: '/' :: rest => skipFrom .lineComment (n + 2) newline true rest
  | .blanks, n, newline, _, '/' :: '*' :: rest => skipFrom .blockComment (n + 2) newline true rest
  | .blanks, n, newline, comment, c :: rest =>
    if isSpace c then skipFrom .blanks (n + 1) (newline || isLineEnd c) comment rest
    else ⟨n, newline, comment, c :: rest⟩
  | .lineComment, n, newline, comment, c :: rest =>
    if isLineEnd c then skipFrom .blanks (n + 1) true comment rest
    else skipFrom .lineComment (n + 1) newline comment rest
  | .blockComment, n, newline, comment, '*' :: '/' :: rest =>
    skipFrom .blanks (n + 2) newline comment rest
  | .blockComment, n, newline, comment, _ :: rest =>
    skipFrom .blockComment (n + 1) newline comment rest
  | _, n, newline, comment, [] => ⟨n, newline, comment, []⟩

/-- The blanks and comments at the front of a text. -/
def triviaOf (s : List Char) : Trivia := skipFrom .blanks 0 false false s

namespace Cursor

/-- The cursor after a number of characters. -/
def advance (c : Cursor) (n : Nat) : Cursor :=
  { c with rest := c.rest.drop n, position := c.position + n }

/-- The text between two cursors. -/
def textTo (start stop : Cursor) : String :=
  String.ofList (start.rest.take (stop.position - start.position))

end Cursor

/-! ## Readers of tokens -/

/-- The place at which the reader stands. -/
def here : Reader Cursor := get

/-- Skips blanks and comments, and tells what they were. -/
def skipTrivia : Reader Trivia := do
  let c ← get
  let t := triviaOf c.rest
  set { c with rest := t.rest, position := c.position + t.size }
  pure t

/-- The result of a reader, without moving. -/
def peek {α : Type} (r : Reader α) : Reader (Option α) := fun c =>
  some ((r c).map Prod.fst, c)

/-- Whether the reader would succeed here. -/
def sees {α : Type} (r : Reader α) : Reader Bool := return (← peek r).isSome

/-- Fails unless the condition holds. -/
def check (condition : Bool) : Reader Unit := if condition then pure () else failure

/-- The reader's result if it succeeds, else nothing is read. -/
def maybe {α : Type} (r : Reader α) : Reader (Option α) := (some <$> r) <|> pure none

/-- The reader repeated while it succeeds, up to a bound. -/
def manyWithin {α : Type} : Nat → Reader α → Reader (List α)
  | 0, _ => pure []
  | bound + 1, r => do
    match ← maybe r with
    | none => pure []
    | some x => return x :: (← manyWithin bound r)

/-- Reads the exact text, right here. -/
def exactly (s : String) : Reader Unit := fun c =>
  match Text.dropStart? s.toList c.rest with
  | some rest => some ((), { c with rest, position := c.position + s.length })
  | none => none

/-- Reads the symbol after any blanks. -/
def symbol (s : String) : Reader Unit := do
  let _ ← skipTrivia
  exactly s

/-- Reads the symbol after any blanks, unless one of the given characters follows. -/
def symbolNot (s : String) (followers : List Char) : Reader Unit := do
  symbol s
  let c ← get
  check (!(c.rest.head?.any followers.contains))

/-- Reads one character that passes the test, right here. -/
def charWhere (test : Char → Bool) : Reader Char := do
  let c ← get
  match c.rest with
  | x :: _ => if test x then set (c.advance 1) *> pure x else failure
  | [] => failure

/-- Reads the characters that pass the test, right here. -/
def charsWhile (test : Char → Bool) : Reader (List Char) := do
  let c ← get
  let taken := c.rest.takeWhile test
  set (c.advance taken.length)
  pure taken

/-- The next character after any blanks, without moving. -/
def nextChar? : Reader (Option Char) := do
  let c ← get
  pure (triviaOf c.rest).rest.head?

/-- A line ends before the next token. -/
def newlineAhead : Reader Bool := do
  let c ← get
  pure (triviaOf c.rest).newline

/-- Remembers an imported specifier. -/
def noteImport (specifier : String) : Reader Unit :=
  modify fun c => { c with imports := specifier :: c.imports }

/-! ## Words -/

/-- A character that can be part of a name. -/
def isNameChar (c : Char) : Bool :=
  0x20 ≤ c.toNat && !isSpace c && !isLineEnd c &&
    !(":;\x60\"\x27@#.,|^&<=>+-*/\\%?!~()[]\x7b\x7d".toList.contains c)

/-- A Unicode escape inside a name. -/
def nameEscape : Reader (List Char) := do
  let start ← here
  exactly "\\u"
  let isHex (c : Char) : Bool := c.isDigit || ('a' ≤ c && c ≤ 'f') || ('A' ≤ c && c ≤ 'F')
  (do exactly "\x7b"; let _ ← charsWhile isHex; exactly "\x7d") <|>
    (do let _ ← charWhere isHex; let _ ← charWhere isHex; let _ ← charWhere isHex
        let _ ← charWhere isHex)
  let stop ← here
  pure (start.textTo stop).toList

/-- Reads a name or keyword after any blanks. -/
def word (bound : Nat) : Reader String := do
  let _ ← skipTrivia
  let start ← here
  check (!(start.rest.head?.any Char.isDigit))
  let pieces ← manyWithin bound do
    let plain ← charsWhile isNameChar
    if plain.isEmpty then nameEscape else pure plain
  check (!pieces.isEmpty)
  let stop ← here
  pure (start.textTo stop)

/-- Words that cannot be names of variables. -/
def reservedWords : List String :=
  ["break", "case", "catch", "class", "const", "continue", "debugger", "default", "delete", "do",
    "else", "enum", "export", "extends", "false", "finally", "for", "function", "if", "import", "in",
    "instanceof", "new", "null", "return", "super", "switch", "this", "throw", "true", "try",
    "typeof", "var", "void", "while", "with"]

/-- Reads a name that is no reserved word. -/
def name (bound : Nat) : Reader String := do
  let w ← word bound
  check (!reservedWords.contains w)
  pure w

/-- Reads the given word, and not just the beginning of a longer one. -/
def keyword (w : String) : Reader Unit := do
  symbol w
  let c ← get
  check (!(c.rest.head?.any fun x => isNameChar x || x == '\\'))

/-- Reads one of the given words. -/
def oneOf : List String → Reader String
  | [] => failure
  | w :: rest => (keyword w *> pure w) <|> oneOf rest

end StoryRegistry.Script
