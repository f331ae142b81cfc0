import StoryRegistry.Yaml.Scalar
import StoryRegistry.Yaml.Place
import StoryRegistry.Text.Quoted
import StoryRegistry.Value

/-!
# YAML texts of values

A map is written as a block, its entries on lines of their own and further in at each level by two
columns; a list under a key is not indented further. Scalars are plain where they read back as the
same value, else in single quotes, and in double quotes if they hold anything but printable ASCII
and line feeds. Lines are folded at spaces beyond column 80.
-/

set_option autoImplicit false

namespace StoryRegistry.Yaml

/-- How a scalar can be written. -/
inductive Style where
  | plain
  | single
  | double
deriving DecidableEq, Inhabited

/-- The column beyond which lines are folded. -/
def bestWidth : Nat := 80

/-! ## Choosing a style -/

/-- A blank or line end to either side of a character. -/
def isGap (c : Char) : Bool := endsWord (some c) || c == '\x00'

/-- A mark at the front or inside the text would be read as structure; `before` is the character
before, and none at the front. -/
def hasMark : Option Char → List Char → Bool
  | _, [] => false
  | before, c :: rest =>
    let spaceAfter := rest.head?.all isGap
    let here :=
      match before with
      | none =>
        "#,[]\x7b\x7d&*!|>'\"%@\x60".toList.contains c ||
          ((c == '?' || c == ':' || c == '-') && spaceAfter)
      | some b => (c == ':' && spaceAfter) || (c == '#' && isGap b)
    here || hasMark (some c) rest

/-- The text begins like a marker of a document. -/
def beginsLikeMarker (s : List Char) : Bool :=
  (['-', '-', '-'].isPrefixOf s) || (['.', '.', '.'].isPrefixOf s)

/-- The character has to be escaped. -/
def isSpecial (c : Char) : Bool := !(c == '\n' || (0x20 ≤ c.toNat && c.toNat ≤ 0x7E))

/-- Two characters stand next to each other in the text. -/
def hasPair (a b : Char) : List Char → Bool
  | c :: d :: rest => (c == a && d == b) || hasPair a b (d :: rest)
  | _ => false

/-- A space or a line feed. -/
def isSpaceOrFeed (c : Char) : Bool := c == ' ' || c == '\n'

/-- The text may be written in single quotes. -/
def allowsSingle (s : List Char) : Bool :=
  !s.any isSpecial && !hasPair ' ' '\n' s && !hasPair '\n' ' ' s

/-- The text may be written plain, whatever it would be taken for. -/
def allowsPlain (s : List Char) : Bool :=
  allowsSingle s && !s.contains '\n' && !s.head?.any isSpaceOrFeed && !s.getLast?.any isSpaceOrFeed &&
    !beginsLikeMarker s && !hasMark none s

/-- The style of a text; a key on the line of its value must not have line feeds. -/
def styleOf (asKey : Bool) (s : String) : Style :=
  let chars := s.toList
  if kindOf s = .text && allowsPlain chars && !(asKey && chars.isEmpty) then .plain
  else if (chars.isEmpty || allowsSingle chars) && !(asKey && chars.contains '\n') then .single
  else .double

/-! ## Writing scalars -/

/-- A line feed, and spaces up to a column. -/
def newLine (indent : Nat) : List Char := '\n' :: List.replicate indent ' '

/-- Cuts the text into runs of spaces, runs of line feeds and runs of anything else. -/
def runs : List Char → List (List Char)
  | [] => []
  | c :: rest =>
    match runs rest with
    | (d :: run) :: more =>
      let alike := if isSpaceOrFeed c || isSpaceOrFeed d then c == d else true
      if alike then (c :: d :: run) :: more else [c] :: (d :: run) :: more
    | more => [c] :: more

/-- The runs as they are written from a column on. A lone space beyond the width becomes a line
end, unless it stands at an end of the text and `keepEnds` holds; `first` marks the first run. -/
def foldRuns (keepEnds : Bool) (indent : Nat) : Bool → Nat → List (List Char) → List Char
  | _, _, [] => []
  | first, column, run :: rest =>
    let isEdge := first || rest.isEmpty
    if run == [' '] && bestWidth < column && !(keepEnds && isEdge) then
      newLine indent ++ foldRuns keepEnds indent false indent rest
    else if run.head? == some '\n' then
      List.replicate run.length '\n' ++ newLine indent ++ foldRuns keepEnds indent false indent rest
    else run ++ foldRuns keepEnds indent false (column + run.length) rest

/-- A run with its single quotes doubled. -/
def doubleQuotes (s : List Char) : List Char := s.flatMap fun c => if c == '\x27' then [c, c] else [c]

/-- The text in single quotes, from a column on. -/
def singleQuoted (split : Bool) (indent column : Nat) (s : List Char) : List Char :=
  let body :=
    if split then foldRuns true indent true (column + 1) ((runs s).map doubleQuotes)
    else doubleQuotes s
  '\x27' :: body ++ ['\x27']

/-- The last `count` hexadecimal digits of a number, in capitals. -/
def capitalHex (count n : Nat) : List Char := (Text.hexDigits count n).map Char.toUpper

/-- The letter that names a character in an escape. -/
def escapeLetter? : Char → Option Char
  | '\x00' => some '0'
  | '\x07' => some 'a'
  | '\x08' => some 'b'
  | '\t' => some 't'
  | '\n' => some 'n'
  | '\x0b' => some 'v'
  | '\x0c' => some 'f'
  | '\r' => some 'r'
  | '\x1b' => some 'e'
  | '"' => some '"'
  | '\\' => some '\\'
  | '\x85' => some 'N'
  | '\xa0' => some '_'
  | '\u2028' => some 'L'
  | '\u2029' => some 'P'
  | _ => none

/-- The escape of a character, if it has to be escaped in double quotes. -/
def escaped? (c : Char) : Option (List Char) :=
  match escapeLetter? c with
  | some letter => some ['\\', letter]
  | none =>
    if 0x20 ≤ c.toNat && c.toNat ≤ 0x7E then none
    else
      let code := (Text.surrogate? c).getD c.toNat
      if code ≤ 0xFF then some ('\\' :: 'x' :: capitalHex 2 code)
      else if code ≤ 0xFFFF then some ('\\' :: 'u' :: capitalHex 4 code)
      else some ('\\' :: 'U' :: capitalHex 8 code)

/-- The characters of a text in double quotes. `column` is where the ones not written yet begin:
`pending`, the last one first; `first` marks the first character of the text. -/
def doubleChars (split : Bool) (indent : Nat) : Bool → Nat → List Char → List Char → List Char
  | _, _, pending, [] => pending.reverse
  | first, column, pending, c :: rest =>
    let mayFold := split && !first && !rest.isEmpty
    let spaceMark (next : Option Char) : List Char := if next == some ' ' then ['\\'] else []
    match escaped? c with
    | some text =>
      let written := pending.reverse ++ text
      let column := column + written.length
      if mayFold && bestWidth < column - 1 then
        let mark := spaceMark rest.head?
        written ++ '\\' :: newLine indent ++ mark ++
          doubleChars split indent false (indent + mark.length) [] rest
      else written ++ doubleChars split indent false column [] rest
    | none =>
      if mayFold && (c == ' ' || pending.isEmpty) && bestWidth < column + pending.length then
        let mark := spaceMark (some c)
        pending.reverse ++ '\\' :: newLine indent ++ mark ++
          doubleChars split indent false (indent + mark.length) [c] rest
      else doubleChars split indent false column (c :: pending) rest

/-- The text in double quotes, from a column on. -/
def doubleQuoted (split : Bool) (indent column : Nat) (s : List Char) : List Char :=
  '"' :: doubleChars split indent true (column + 1) [] s ++ ['"']

/-- The text of a scalar, from a column on; a key on the line of its value is not folded. -/
def scalarText (asKey : Bool) (indent column : Nat) (s : String) : List Char :=
  let chars := s.toList
  match styleOf asKey s with
  | .plain => if asKey then chars else foldRuns false indent true column (runs chars)
  | .single => singleQuoted (!asKey) indent column chars
  | .double => doubleQuoted (!asKey) indent column chars

/-- The text of a number: it always has a point. -/
def numberText (x : Double) : String :=
  let text := x.textWith ⟨".inf", ".nan"⟩
  match Text.cutAt? ['e'] text.toList with
  | some (mantissa, exponent) =>
    if mantissa.contains '.' then text else String.ofList (mantissa ++ ".0e".toList ++ exponent)
  | none => text

/-! ## Writing values -/

/-- The longest text that is written as a key on the line of its value. -/
def longestKey : Nat := 122

/-- The text can be a key on the line of its value. -/
def isShortKey (s : String) : Bool := s.length ≤ longestKey && !s.isEmpty && !s.toList.contains '\n'

/-- The text of a value that stands on one line with what is before it: scalars and empty
containers. -/
def inlineText? (indent column : Nat) : Value → Option (List Char)
  | .null => some "null".toList
  | .bool b => some (if b then "true" else "false").toList
  | .int n => some (toString n).toList
  | .double x => some (numberText x).toList
  | .string s | .code s => some (scalarText false indent column s)
  | .list [] => some ['[', ']']
  | .map [] => some ['\x7b', '\x7d']
  | _ => none

/-- The lines put under each other at a column. -/
def stack (indent : Nat) (parts : List (List Char)) : List Char := (newLine indent).intercalate parts

mutual

/-- A value after a hyphen or a question mark at `column - 2`. -/
def afterMark (column : Nat) : Value → List Char
  | .list (v :: rest) => stack column (itemLines column (v :: rest))
  | .map (e :: rest) => stack column (entryLines column (e :: rest))
  | v => (inlineText? column column v).getD []

/-- A value after a key that ends at `column` in a map at `indent`. -/
def afterKey (indent column : Nat) : Value → List Char
  | .list (v :: rest) => newLine indent ++ stack indent (itemLines indent (v :: rest))
  | .map (e :: rest) => newLine (indent + 2) ++ stack (indent + 2) (entryLines (indent + 2) (e :: rest))
  | v => ' ' :: (inlineText? (indent + 2) (column + 1) v).getD []

/-- The items of a list at `indent`. -/
def itemLines (indent : Nat) : List Value → List (List Char)
  | [] => []
  | v :: rest => ('-' :: ' ' :: afterMark (indent + 2) v) :: itemLines indent rest

/-- The entries of a map at `indent`. -/
def entryLines (indent : Nat) : List (String × Value) → List (List Char)
  | [] => []
  | (key, v) :: rest =>
    let entry :=
      if isShortKey key then
        let text := scalarText true (indent + 2) indent key ++ [':']
        text ++ afterKey indent (indent + text.length) v
      else
        '?' :: ' ' :: scalarText false (indent + 2) (indent + 2) key ++ newLine indent ++
          ':' :: ' ' :: afterMark (indent + 2) v
    entry :: entryLines indent rest

end

/-- The YAML text of a document that is a map. -/
def documentText (entries : Table Value) : String :=
  if entries.isEmpty then "\x7b\x7d\n"
  else String.ofList (stack 0 (entryLines 0 entries) ++ ['\n'])

end StoryRegistry.Yaml
