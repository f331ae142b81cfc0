import StoryRegistry.Yaml.Token
import StoryRegistry.Yaml.Token.Scalar
import StoryRegistry.Text.Utf8

/-!
# Tags, anchors and directives

The tokens that begin with `!`, `&`, `*` or, at the start of a line, with `%`.
-/

set_option autoImplicit false

namespace StoryRegistry.Yaml

/-- The character may stand in a tag as it is. -/
def isUriChar (c : Char) : Bool :=
  c.isAlphanum || "-;/?:@&=+$,_.!~*'()[]".toList.contains c

/-- The bytes of escapes `%41`, as many as follow. -/
def uriBytes : Nat → Place → Except Problem (List Nat × Place)
  | 0, p => .ok ([], p)
  | fuel + 1, p =>
    if p.head? != some '%' then .ok ([], p)
    else
      let digits := p.step.rest.take 2
      match hexNumber? digits with
      | some byte =>
        if digits.length < 2 then .error .malformed
        else do
          let (more, stop) ← uriBytes fuel (p.advance 3)
          return (byte :: more, stop)
      | none => .error .malformed

/-- The characters of a tag from here on. -/
def uriChars : Nat → Place → Except Problem (List Char × Place)
  | 0, p => .ok ([], p)
  | fuel + 1, p => do
    let (start, p) := p.span isUriChar
    if p.head? == some '%' then
      let (bytes, p) ← uriBytes (p.rest.length + 1) p
      match Text.Utf8.charsFrom bytes.length 0 bytes with
      | .ok chars =>
        let (more, stop) ← uriChars fuel p
        return (start ++ chars ++ more, stop)
      | .error _ => throw .malformed
    else return (start, p)

/-- The text of a tag, which is not empty. -/
def uri (p : Place) : Except Problem (String × Place) := do
  let (chars, stop) ← uriChars (p.rest.length + 1) p
  if stop.index == p.index then throw .malformed
  return (String.ofList chars, stop)

/-- A handle: an exclamation mark, or a name between two of them. -/
def handle (p : Place) : Except Problem (String × Place) :=
  if p.head? != some '!' then .error .malformed
  else if p.peek? 1 == some ' ' then .ok ("!", p.step)
  else
    let (name, after) := p.step.span isNameChar
    if after.head? == some '!' then .ok (String.ofList ('!' :: name ++ ['!']), after.step)
    else .error .malformed

/-- An exclamation mark comes before the next space or line end, from one character on. -/
def hasHandle (p : Place) : Bool :=
  (p.step.rest.takeWhile fun c => !endsEntry (some c)).contains '!'

/-- A tag, from its exclamation mark on. -/
def tag (p : Place) : Except Problem (Token × Place) := do
  let (token, stop) ←
    match p.peek? 1 with
    | some '<' => do
      let (text, after) ← uri (p.advance 2)
      if after.head? != some '>' then throw .malformed
      pure (Token.tag none text, after.step)
    | next =>
      if endsWord next then pure (Token.tag none "!", p.step)
      else do
        let (name, after) ← if hasHandle p then handle p else pure ("!", p.step)
        let (text, after) ← uri after
        pure (Token.tag (some name) text, after)
  if !endsEntry stop.head? then throw .malformed
  return (token, stop)

/-- What may follow the name of an anchor. -/
def endsAnchor (c : Option Char) : Bool :=
  endsWord c || c.any fun c => "?:,]\x7d%@\x60".toList.contains c

/-- The name of an anchor or alias, from its mark on. -/
def anchorName (p : Place) : Except Problem (String × Place) :=
  let (name, after) := p.step.span isNameChar
  if name.isEmpty || !endsAnchor after.head? then .error .malformed
  else .ok (String.ofList name, after)

/-- A number of a version. -/
def versionNumber (p : Place) : Except Problem (Nat × Place) :=
  let (digits, after) := p.span Char.isDigit
  if digits.isEmpty then .error .malformed
  else if Value.maxIntDigits < digits.length then .error .badNumber
  else .ok (digits.foldl (fun n c => 10 * n + (c.toNat - 48)) 0, after)

/-- A directive, from its percent sign on, with the rest of its line. -/
def directive (p : Place) : Except Problem (Token × Place) := do
  let (name, p) := p.step.span isNameChar
  if name.isEmpty || !endsEntry p.head? then throw .malformed
  let (token, p) ←
    match String.ofList name with
    | "YAML" => do
      let (major, p) ← versionNumber p.skipSpaces
      if p.head? != some '.' then throw .malformed
      let (_, p) ← versionNumber p.step
      if !endsEntry p.head? then throw .malformed
      pure (Token.version major, p)
    | "TAG" => do
      let (name, p) ← handle p.skipSpaces
      if p.head? != some ' ' then throw .malformed
      let (full, p) ← uri p.skipSpaces
      if !endsEntry p.head? then throw .malformed
      pure (Token.handle name full, p)
    | _ => pure (Token.directive, p.skipLine)
  let p ← ignoredLine p
  return (token, p)

end StoryRegistry.Yaml
