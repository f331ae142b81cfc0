import StoryRegistry.Yaml.Token.Tag

/-!
# Reading tokens

What a character means depends on the indentation of the blocks around it, on whether it stands in
a flow collection, and on whether a key may begin here. Something turns out to be a key only when
the colon after it is met; until then it is kept as a candidate, and its tokens are put in front of
it afterwards. A candidate has to be followed by its colon on the same line and within 1024
characters.
-/

set_option autoImplicit false

namespace StoryRegistry.Yaml

/-- Something that may turn out to be a key. -/
structure Candidate where
  /-- How many tokens come before it. -/
  position : Nat
  /-- Nothing but a key can stand here. -/
  required : Bool
  index : Nat
  line : Nat
  column : Nat

/-- How far the text has been read. -/
structure Reader where
  place : Place
  /-- The tokens, the last one first. -/
  tokens : List Token := []
  /-- How many flow collections are open. -/
  flow : Nat := 0
  /-- The column of the innermost block; -1 outside all blocks. -/
  indent : Int := -1
  /-- The columns of the blocks around it. -/
  indents : List Int := []
  /-- A key may begin here. -/
  keyAllowed : Bool := true
  /-- The candidates, by the number of flow collections around each. -/
  candidates : List (Nat × Candidate) := []

namespace Reader

/-- Adds a token. -/
def add (r : Reader) (token : Token) : Reader := { r with tokens := token :: r.tokens }

/-- Puts a token before the one at the given position. -/
def insert (r : Reader) (position : Nat) (token : Token) : Reader :=
  { r with tokens := r.tokens.insertIdx (r.tokens.length - position) token }

/-- Goes on after a character. -/
def advance (r : Reader) (n : Nat) : Reader := { r with place := r.place.advance n }

/-- Goes on at a place. -/
def goTo (r : Reader) (place : Place) : Reader := { r with place := place }

/-- Says whether a key may begin next. -/
def allowKey (r : Reader) (allowed : Bool) : Reader := { r with keyAllowed := allowed }

/-- The candidate at the present depth. -/
def candidate? (r : Reader) : Option Candidate :=
  (r.candidates.find? fun c => c.1 == r.flow).map Prod.snd

/-- Forgets the candidate at the present depth. -/
def forget (r : Reader) : Reader :=
  { r with candidates := r.candidates.filter fun c => c.1 != r.flow }

/-- Gives up the candidate at the present depth, which must not be a required one. -/
def giveUp (r : Reader) : Except Problem Reader :=
  match r.candidate? with
  | some c => if c.required then .error .malformed else .ok r.forget
  | none => .ok r

/-- The candidate can no longer be followed by its colon. -/
def isStale (r : Reader) (c : Candidate) : Bool :=
  c.line != r.place.line || c.index + 1024 < r.place.index

/-- Gives up the candidates that are stale. -/
def dropStale (r : Reader) : Except Problem Reader :=
  if r.candidates.any fun (_, c) => c.required && r.isStale c then .error .malformed
  else .ok { r with candidates := r.candidates.filter fun (_, c) => !r.isStale c }

/-- Makes what begins here a candidate, if a key may begin here. -/
def propose (r : Reader) : Except Problem Reader :=
  if r.keyAllowed then do
    let r ← r.giveUp
    let c : Candidate := {
      position := r.tokens.length
      required := r.flow == 0 && r.indent == r.place.column
      index := r.place.index
      line := r.place.line
      column := r.place.column }
    return { r with candidates := (r.flow, c) :: r.candidates }
  else .ok r

/-- Closes the blocks that are indented further than `column`. -/
def closeBlocks (column : Int) : Nat → Reader → Reader
  | 0, r => r
  | fuel + 1, r =>
    if column < r.indent then
      match r.indents with
      | outer :: rest =>
        closeBlocks column fuel ({ r with indent := outer, indents := rest }.add .blockEnd)
      | [] => r
    else r

/-- Outside flow collections, closes the blocks that are indented further than `column`. -/
def unwind (r : Reader) (column : Int) : Reader :=
  if r.flow != 0 then r else closeBlocks column r.indents.length r

/-- Opens a block at `column`, if it lies further in than the innermost one; `position` tells where
the block's token goes. -/
def openBlock (r : Reader) (column position : Nat) (token : Token) : Reader :=
  if r.indent < column then
    { r with indent := column, indents := r.indent :: r.indents }.insert position token
  else r

/-- Opens a block here, outside flow collections; a key has to be allowed here. -/
def openHere (r : Reader) (token : Token) : Except Problem Reader :=
  if r.flow != 0 then .ok r
  else if !r.keyAllowed then .error .malformed
  else .ok (r.openBlock r.place.column r.tokens.length token)

/-- Blanks, comments and line ends before the next token. -/
def skipIdle : Nat → Reader → Reader
  | 0, r => r
  | fuel + 1, r =>
    let p := r.place.skipSpaces
    let p := if p.head? == some '#' then p.skipLine else p
    match p.lineBreak? with
    | some (_, after) =>
      let r := r.goTo after
      skipIdle fuel (if r.flow == 0 then r.allowKey true else r)
    | none => r.goTo p

/-- Ends all blocks before a directive or a marker. -/
def endBlocks (r : Reader) : Except Problem Reader := do
  let r ← (r.unwind (-1)).giveUp
  return r.allowKey false

/-- A marker of three characters. -/
def marker (r : Reader) (token : Token) : Except Problem Reader := do
  return ((← r.endBlocks).advance 3).add token

/-- The start of a flow collection. -/
def openFlow (r : Reader) (token : Token) : Except Problem Reader := do
  let r ← r.propose
  return ({ r with flow := r.flow + 1 }.allowKey true |>.advance 1).add token

/-- The end of a flow collection. -/
def closeFlow (r : Reader) (token : Token) : Except Problem Reader := do
  let r ← r.giveUp
  return ({ r with flow := r.flow - 1 }.allowKey false |>.advance 1).add token

/-- A comma. -/
def comma (r : Reader) : Except Problem Reader := do
  let r ← (r.allowKey true).giveUp
  return (r.advance 1).add .comma

/-- The hyphen before an item. -/
def item (r : Reader) : Except Problem Reader := do
  let r ← r.openHere .blockSequence
  let r ← (r.allowKey true).giveUp
  return (r.advance 1).add .item

/-- The question mark before a key. -/
def key (r : Reader) : Except Problem Reader := do
  let r ← r.openHere .blockMapping
  let r ← (r.allowKey (r.flow == 0)).giveUp
  return (r.advance 1).add .key

/-- The colon before a value: what the candidate began is a key. -/
def value (r : Reader) : Except Problem Reader := do
  match r.candidate? with
  | some c =>
    let r := r.forget.insert c.position .key
    let r := if r.flow == 0 then r.openBlock c.column c.position .blockMapping else r
    return ((r.allowKey false).advance 1).add .value
  | none =>
    let r ← r.openHere .blockMapping
    let r ← (r.allowKey (r.flow == 0)).giveUp
    return (r.advance 1).add .value

/-- A token that may begin a key. -/
def simple (r : Reader) (read : Place → Except Problem (Token × Place)) : Except Problem Reader := do
  let r ← r.propose
  let (token, stop) ← read r.place
  return ((r.allowKey false).goTo stop).add token

/-- A block scalar. -/
def block (r : Reader) (folded : Bool) : Except Problem Reader := do
  let r ← (r.allowKey true).giveUp
  let (text, stop) ← blockScalar folded r.indent r.place
  return (r.goTo stop).add (.scalar text false)

/-- A plain scalar. -/
def plain (r : Reader) : Except Problem Reader := do
  let r ← r.propose
  let scalar := plainScalar (r.flow != 0) (r.indent + 1) r.place
  return ((r.allowKey scalar.endedLine).goTo scalar.stop).add (.scalar (String.ofList scalar.text) true)

/-- A plain scalar may begin with the character, whatever follows it. -/
def beginsPlain (c : Char) : Bool :=
  !(endsWord (some c) || "-?:,[]\x7b\x7d#&*!|>'\"%@\x60".toList.contains c)

/-- A plain scalar begins here. -/
def isPlain (r : Reader) (c : Char) : Bool :=
  beginsPlain c ||
    (!endsWord (r.place.peek? 1) && (c == '-' || (r.flow == 0 && (c == '?' || c == ':'))))

/-- Reads the next token, which begins with `c`. -/
def next (r : Reader) (c : Char) : Except Problem Reader :=
  let p := r.place
  let before := r.flow != 0 || endsWord (p.peek? 1)
  if c == '%' && p.column == 0 then do
    let r ← r.endBlocks
    let (token, stop) ← directive r.place
    return (r.goTo stop).add token
  else if p.column == 0 && p.isMarker '-' then r.marker .documentStart
  else if p.column == 0 && p.isMarker '.' then r.marker .documentEnd
  else
    match c with
    | '[' => r.openFlow .flowSequence
    | '\x7b' => r.openFlow .flowMapping
    | ']' => r.closeFlow .flowSequenceEnd
    | '\x7d' => r.closeFlow .flowMappingEnd
    | ',' => r.comma
    | '*' => r.simple fun p => (anchorName p).map fun (name, stop) => (.reference name, stop)
    | '&' => r.simple fun p => (anchorName p).map fun (name, stop) => (.anchor name, stop)
    | '!' => r.simple tag
    | '\x27' => r.simple fun p => (quotedScalar false p).map fun (text, stop) => (.scalar text false, stop)
    | '"' => r.simple fun p => (quotedScalar true p).map fun (text, stop) => (.scalar text false, stop)
    | c =>
      if c == '-' && endsWord (p.peek? 1) then r.item
      else if c == '?' && before then r.key
      else if c == ':' && before then r.value
      else if c == '|' && r.flow == 0 then r.block false
      else if c == '>' && r.flow == 0 then r.block true
      else if r.isPlain c then r.plain
      else .error .malformed

/-- Reads all tokens from here on. -/
def readAll : Nat → Reader → Except Problem Reader
  | 0, r => .ok r
  | fuel + 1, r => do
    let r ← (skipIdle (r.place.rest.length + 1) r).dropStale
    let r := r.unwind r.place.column
    match r.place.head? with
    | none => (r.unwind (-1)).giveUp
    | some c => readAll fuel (← r.next c)

end Reader

/-- The tokens of a text. -/
def Token.ofText (s : String) : Except Problem (List Token) :=
  let chars := s.toList
  if !chars.all isAllowed then .error .malformed
  else do
    let start : Place := ⟨chars, 0, 0, 0⟩
    let start := if start.head? == some '\uFEFF' then start.step else start
    let r ← Reader.readAll (chars.length + 1) { place := start }
    return r.tokens.reverse

end StoryRegistry.Yaml
