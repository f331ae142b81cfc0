import StoryRegistry.Yaml.Place
import StoryRegistry.Yaml.Problem
import StoryRegistry.Text.Surrogate
import StoryRegistry.Value
import StoryRegistry.Text.Quoted

/-!
# YAML scalars

Four ways to write a text: plain, in single or double quotes, and as a block of lines. Inside a
scalar a single line break counts as a space, and of several the first one is dropped, except in a
literal block.
-/

set_option autoImplicit false

namespace StoryRegistry.Yaml

/-! ## Quoted scalars -/

/-- The character that a one-letter escape stands for. -/
def plainEscape? : Char → Option Char
  | '0' => some '\x00'
  | 'a' => some '\x07'
  | 'b' => some '\x08'
  | 't' => some '\t'
  | '\t' => some '\t'
  | 'n' => some '\n'
  | 'v' => some '\x0b'
  | 'f' => some '\x0c'
  | 'r' => some '\r'
  | 'e' => some '\x1b'
  | ' ' => some ' '
  | '"' => some '"'
  | '\\' => some '\\'
  | '/' => some '/'
  | 'N' => some '\x85'
  | '_' => some '\xa0'
  | 'L' => some '\u2028'
  | 'P' => some '\u2029'
  | _ => none

/-- The number of digits of an escape by code point. -/
def codeDigits? : Char → Option Nat
  | 'x' => some 2
  | 'u' => some 4
  | 'U' => some 8
  | _ => none

/-- The number that hexadecimal digits write. -/
def hexNumber? (digits : List Char) : Option Nat :=
  (digits.mapM Text.hexValue?).map fun ds => ds.foldl (fun n d => 16 * n + d) 0

/-- The character with a code point. -/
def charOfCode (code : Nat) : Except Problem Char :=
  if 0x7FFFFFFF < code then .error .tooLarge
  else
    match Text.charOfCode? code with
    | some c => .ok c
    | none => .error .badNumber

/-- The line breaks from here on, with the blanks before each dropped. -/
def quotedBreaks : Nat → Place → Except Problem (List Char × Place)
  | 0, p => .ok ([], p)
  | fuel + 1, p =>
    if p.isAnyMarker then .error .malformed
    else
      let p := p.skip fun c => c == ' ' || c == '\t'
      match p.lineBreak? with
      | some (c, after) => do
        let (more, stop) ← quotedBreaks fuel after
        return (c :: more, stop)
      | none => .ok ([], p)

/-- A break with the breaks after it: a lone one counts as a space. -/
def foldBreaks (first : Char) (more : List Char) : List Char :=
  if first != '\n' then first :: more
  else if more.isEmpty then [' ']
  else more

/-- The blanks inside a quoted scalar. -/
def quotedBlanks (p : Place) : Except Problem (List Char × Place) :=
  let (blanks, p) := p.span fun c => c == ' ' || c == '\t'
  match p.lineBreak? with
  | some (c, after) => do
    let (more, stop) ← quotedBreaks (after.rest.length + 1) after
    return (foldBreaks c more, stop)
  | none => if p.rest.isEmpty then .error .malformed else .ok (blanks, p)

/-- An escape, from after its backslash. -/
def escape (p : Place) : Except Problem (List Char × Place) :=
  match p.head? with
  | none => .error .malformed
  | some e =>
    match plainEscape? e, codeDigits? e with
    | some c, _ => .ok ([c], p.step)
    | none, some count =>
      let digits := p.step.rest.take count
      match hexNumber? digits with
      | some code =>
        if digits.length < count then .error .malformed
        else do
          let c ← charOfCode code
          return ([c], p.step.advance count)
      | none => .error .malformed
    | none, none =>
      match p.lineBreak? with
      | some (_, after) => quotedBreaks (after.rest.length + 1) after
      | none => .error .malformed

/-- A character that stands for itself inside quotes, whatever the quote. -/
def isQuotedPlain (c : Char) : Bool :=
  !(c == '\x27' || c == '"' || c == '\\' || c == ' ' || c == '\t' || isBreak c)

/-- The rest of a quoted scalar, up to and with its closing quote. -/
def quotedRest (double : Bool) : Nat → Place → Except Problem (List Char × Place)
  | 0, _ => .error .malformed
  | fuel + 1, p => do
    let (start, p) := p.span isQuotedPlain
    let go (chars : List Char) (p : Place) : Except Problem (List Char × Place) := do
      let (more, stop) ← quotedRest double fuel p
      return (start ++ chars ++ more, stop)
    match p.rest with
    | [] => throw .malformed
    | '\x27' :: rest =>
      if double then go ['\x27'] p.step
      else if rest.head? == some '\x27' then go ['\x27'] (p.advance 2)
      else return (start, p.step)
    | '"' :: _ => if double then return (start, p.step) else go ['"'] p.step
    | '\\' :: _ =>
      if double then
        let (chars, after) ← escape p.step
        go chars after
      else go ['\\'] p.step
    | _ =>
      let (blanks, after) ← quotedBlanks p
      go blanks after

/-- A quoted scalar, from its opening quote on. -/
def quotedScalar (double : Bool) (p : Place) : Except Problem (String × Place) := do
  let (chars, stop) ← quotedRest double (p.rest.length + 1) p.step
  return (String.ofList chars, stop)

/-! ## Plain scalars -/

/-- The character separates entries in a flow collection. -/
def isFlowMark (c : Char) : Bool :=
  c == ',' || c == '[' || c == ']' || c == '\x7b' || c == '\x7d'

/-- The characters up to a blank, a line end or a mark that ends a plain scalar. -/
def plainPart (flow : Bool) : List Char → List Char
  | [] => []
  | c :: rest =>
    let next := rest.head?
    if endsWord (some c) || (flow && (isFlowMark c || c == '?')) ||
        (c == ':' && (endsWord next || (flow && next.any isFlowMark))) then []
    else c :: plainPart flow rest

/-- The line breaks and spaces from here on; none where a document marker comes first. -/
def plainBreaks : Nat → Place → Option (List Char) × Place
  | 0, p => (some [], p)
  | fuel + 1, p =>
    if p.head? == some ' ' then plainBreaks fuel p.step
    else
      match p.lineBreak? with
      | some (c, after) =>
        if after.isAnyMarker then (none, after)
        else
          let (more, stop) := plainBreaks fuel after
          (more.map (c :: ·), stop)
      | none => (some [], p)

/-- What separates two parts of a plain scalar: nothing if the scalar ends here. The flag tells
whether a line was ended. -/
def plainSpaces (p : Place) : List Char × Bool × Place :=
  let (spaces, p) := p.span (· == ' ')
  match p.lineBreak? with
  | some (c, after) =>
    if after.isAnyMarker then ([], true, after)
    else
      let (more, stop) := plainBreaks (after.rest.length + 1) after
      match more with
      | some breaks => (foldBreaks c breaks, true, stop)
      | none => ([], true, stop)
  | none => (spaces, false, p)

/-- A plain scalar as it was read. -/
structure Plain where
  text : List Char
  /-- A line was ended after the last part. -/
  endedLine : Bool
  stop : Place

/-- The parts of a plain scalar from here on; `between` separates them from what was read before,
and lines have to be indented to `indent` outside flow collections. -/
def plainParts (flow : Bool) (indent : Int) : Nat → List Char → Bool → Place → Plain
  | 0, _, ended, p => ⟨[], ended, p⟩
  | fuel + 1, between, ended, p =>
    let part := if p.head? == some '#' then [] else plainPart flow p.rest
    if part.isEmpty then ⟨[], ended, p⟩
    else
      let (spaces, endedLine, after) := plainSpaces (p.advance part.length)
      let stops := spaces.isEmpty || after.head? == some '#' || (!flow && (after.column : Int) < indent)
      let more : Plain :=
        if stops then ⟨[], endedLine, after⟩ else plainParts flow indent fuel spaces endedLine after
      { more with text := between ++ part ++ more.text }

/-- A plain scalar. -/
def plainScalar (flow : Bool) (indent : Int) (p : Place) : Plain :=
  plainParts flow indent (p.rest.length + 1) [] false p

/-! ## Block scalars -/

/-- What becomes of the line breaks at the end of a block. -/
inductive Chomping where
  | strip
  | clip
  | keep
deriving DecidableEq

/-- The chomping mark, if there is one here. -/
def chomping? (p : Place) : Option Chomping × Place :=
  match p.head? with
  | some '+' => (some .keep, p.step)
  | some '-' => (some .strip, p.step)
  | _ => (none, p)

/-- The indentation mark, if there is one here; nought is refused. -/
def increment? (p : Place) : Except Problem (Option Nat × Place) :=
  match p.head? with
  | some c =>
    if c == '0' then .error .malformed
    else if c.isDigit then .ok (some (c.toNat - 48), p.step)
    else .ok (none, p)
  | none => .ok (none, p)

/-- The marks of a block, in either order. -/
def blockMarks (p : Place) : Except Problem (Chomping × Option Nat × Place) := do
  let (early, p) := chomping? p
  let (increment, p) ← increment? p
  let (late, p) := if early.isNone && increment.isSome then chomping? p else (none, p)
  if !endsEntry p.head? then throw .malformed
  return ((early <|> late).getD .clip, increment, p)

/-- The rest of a line that holds nothing but a comment. -/
def ignoredLine (p : Place) : Except Problem Place :=
  let p := p.skipSpaces
  let p := if p.head? == some '#' then p.skipLine else p
  if endsLine p.head? then .ok p.skipBreak else .error .malformed

/-- The empty lines at the start of a block, and the farthest column they reach. -/
def blockStart : Nat → Nat → Place → List Char × Nat × Place
  | 0, most, p => ([], most, p)
  | fuel + 1, most, p =>
    if p.head? == some ' ' then
      let p := p.step
      blockStart fuel (max most p.column) p
    else
      match p.lineBreak? with
      | some (c, after) =>
        let (more, most, stop) := blockStart fuel most after
        (c :: more, most, stop)
      | none => ([], most, p)

/-- The place after spaces up to a column. -/
def skipTo (indent : Nat) (p : Place) : Place :=
  p.advance (min (indent - p.column) (p.rest.takeWhile (· == ' ')).length)

/-- The line breaks from here on, with the indentation after each. -/
def blockBreaks (indent : Nat) : Nat → Place → List Char × Place
  | 0, p => ([], p)
  | fuel + 1, p =>
    let p := skipTo indent p
    match p.lineBreak? with
    | some (c, after) =>
      let (more, stop) := blockBreaks indent fuel after
      (c :: more, stop)
    | none => ([], p)

/-- A block as it was read: its lines, the break after the last one, and the breaks after that. -/
structure Block where
  text : List Char
  lastBreak : List Char
  breaks : List Char
  stop : Place

/-- The lines of a block from here on; `breaks` stand before the first of them. -/
def blockLines (folded : Bool) (indent : Nat) : Nat → List Char → Place → Block
  | 0, breaks, p => ⟨[], [], breaks, p⟩
  | fuel + 1, breaks, p =>
    if p.column != indent || p.rest.isEmpty then ⟨[], [], breaks, p⟩
    else
      let isSpaced (c : Option Char) : Bool := c == some ' ' || c == some '\t'
      let flush := !isSpaced p.head?
      let (line, p) := p.span fun c => !isBreak c
      let (lastBreak, p) :=
        match p.lineBreak? with
        | some (c, after) => ([c], after)
        | none => ([], p)
      let (more, p) := blockBreaks indent (p.rest.length + 1) p
      if p.column == indent && !p.rest.isEmpty then
        let joint :=
          if folded && lastBreak == ['\n'] && flush && !isSpaced p.head? then
            if more.isEmpty then [' '] else []
          else lastBreak
        let others := blockLines folded indent fuel more p
        { others with text := breaks ++ line ++ joint ++ others.text }
      else ⟨breaks ++ line, lastBreak, more, p⟩

/-- A block scalar, from its mark on; its lines are indented further than `parent`. -/
def blockScalar (folded : Bool) (parent : Int) (p : Place) : Except Problem (String × Place) := do
  let (chomping, increment, p) ← blockMarks p.step
  let p ← ignoredLine p
  let least := max 1 (parent + 1).toNat
  let (breaks, indent, p) :=
    match increment with
    | some n =>
      let indent := least + n - 1
      let (breaks, p) := blockBreaks indent (p.rest.length + 1) p
      (breaks, indent, p)
    | none =>
      let (breaks, most, p) := blockStart (p.rest.length + 1) 0 p
      (breaks, max least most, p)
  let block := blockLines folded indent (p.rest.length + 1) breaks p
  let finish :=
    match chomping with
    | .strip => []
    | .clip => block.lastBreak
    | .keep => block.lastBreak ++ block.breaks
  return (String.ofList (block.text ++ finish), block.stop)

end StoryRegistry.Yaml
