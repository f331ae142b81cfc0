import StoryRegistry.Value.Json
import StoryRegistry.Text.Split

/-!
# Reading JSON texts

What is read is JSON with the names `NaN`, `Infinity` and `-Infinity` as numbers; of two entries
with one name the later counts. A text that is none is refused at the first place where it cannot
go on.
-/

set_option autoImplicit false

namespace StoryRegistry

/-- What is wrong at a place of a text that is no JSON. -/
inductive JsonFault where
  | mark
  | value
  | name
  | colon
  | comma
  | openText
  | control
  | escape
  | unit
  | extra
deriving DecidableEq, Inhabited

/-- The words for a fault. -/
def JsonFault.text : JsonFault → String
  | mark => "Unexpected UTF-8 BOM (decode using utf-8-sig)"
  | value => "Expecting value"
  | name => "Expecting property name enclosed in double quotes"
  | colon => "Expecting ':' delimiter"
  | comma => "Expecting ',' delimiter"
  | openText => "Unterminated string starting at"
  | control => "Invalid control character at"
  | escape => "Invalid \\escape"
  | unit => "Invalid \\uXXXX escape"
  | extra => "Extra data"

/-- Why a text is no JSON. -/
inductive JsonProblem where
  /-- A fault at the place before which the given characters stand. -/
  | fault (kind : JsonFault) (before : List Char)
  /-- An integer has too many digits. -/
  | tooManyDigits (count : Nat)
deriving DecidableEq, Inhabited

/-- The message. -/
def JsonProblem.message : JsonProblem → String
  | .fault kind before =>
    let line := before.count '\n' + 1
    let column := (before.reverse.takeWhile (· != '\n')).length + 1
    kind.text ++ ": line " ++ toString line ++ " column " ++ toString column ++ " (char " ++
      toString before.length ++ ")"
  | tooManyDigits count =>
    "Exceeds the limit (" ++ toString Value.maxIntDigits ++
      " digits) for integer string conversion: value has " ++
      toString count ++ " digits; use sys.set_int_max_str_digits() to increase the limit"

namespace Value

/-- What stops reading: a fault, with the number of characters from it to the end of the text, or an
integer with too many digits. -/
inductive JsonStop where
  | fault (kind : JsonFault) (left : Nat)
  | tooManyDigits (count : Nat)
deriving DecidableEq, Inhabited

/-- What was read from the front of a text, and the rest. -/
abbrev Front (α : Type) := α × List Char

/-- The fault at the front of the text. -/
def faultAt {α : Type} (kind : JsonFault) (s : List Char) : Except JsonStop α :=
  .error (.fault kind s.length)

/-- The blanks that JSON allows between tokens. -/
def isJsonBlank (c : Char) : Bool := c == ' ' || c == '\t' || c == '\n' || c == '\r'

/-- The text after any blanks. -/
def skipJsonBlanks (s : List Char) : List Char := s.dropWhile isJsonBlank

/-- Four hexadecimal digits. -/
def readUnit? : List Char → Option (Nat × List Char)
  | a :: b :: c :: d :: rest => do
    let a ← Text.hexValue? a
    let b ← Text.hexValue? b
    let c ← Text.hexValue? c
    let d ← Text.hexValue? d
    some (((a * 16 + b) * 16 + c) * 16 + d, rest)
  | _ => none

/-- The character a one-letter escape stands for. -/
def plainEscape? : Char → Option Char
  | '"' => some '"'
  | '\\' => some '\\'
  | '/' => some '/'
  | 'b' => some '\x08'
  | 'f' => some '\x0c'
  | 'n' => some '\n'
  | 'r' => some '\r'
  | 't' => some '\t'
  | _ => none

/-- The character of a unit and, where the unit is the first half of a pair, of the second half. -/
def pairUnits (unit : Nat) (rest : List Char) : Char × List Char :=
  let alone := ((Text.charOfCode? unit).getD '\x00', rest)
  if 0xD800 ≤ unit && unit ≤ 0xDBFF then
    match rest with
    | '\\' :: 'u' :: more =>
      match readUnit? more with
      | some (low, after) =>
        if 0xDC00 ≤ low && low ≤ 0xDFFF then
          (Char.ofNat (0x10000 + (unit - 0xD800) * 0x400 + (low - 0xDC00)), after)
        else alone
      | none => alone
    | _ => alone
  else alone

/-- The characters up to the closing quote; `start` characters are left from the opening one on. -/
def readChars (start : Nat) : Nat → List Char → Except JsonStop (Front (List Char))
  | 0, _ | _ + 1, [] => .error (.fault .openText start)
  | _ + 1, '"' :: rest => .ok ([], rest)
  | fuel + 1, '\\' :: 'u' :: rest =>
    match readUnit? rest with
    | none | some (_, []) => .error (.fault .unit (rest.length + 1))
    | some (unit, after) => do
      let (c, rest) := pairUnits unit after
      let (cs, rest) ← readChars start fuel rest
      return (c :: cs, rest)
  | fuel + 1, '\\' :: e :: rest =>
    match plainEscape? e with
    | none => .error (.fault .escape (rest.length + 2))
    | some c => do
      let (cs, rest) ← readChars start fuel rest
      return (c :: cs, rest)
  | fuel + 1, c :: rest =>
    if c == '\\' then .error (.fault .openText start)
    else if c.toNat < 0x20 then faultAt .control (c :: rest)
    else do
      let (cs, rest) ← readChars start fuel rest
      return (c :: cs, rest)

/-- The text whose opening quote was read. -/
def readText (rest : List Char) : Except JsonStop (Front String) := do
  let (cs, rest) ← readChars (rest.length + 1) (rest.length + 1) rest
  return (String.ofList cs, rest)

/-- The value of an ASCII digit. -/
def asciiDigit? (c : Char) : Option Nat := if c.isDigit then some (c.toNat - 48) else none

/-- The digits at the front. -/
def spanDigits (s : List Char) : List Nat × List Char :=
  (s.takeWhile Char.isDigit |>.filterMap asciiDigit?, s.dropWhile Char.isDigit)

/-- An exponent part, if one is complete. -/
def readExponent (s : List Char) : Option Int × List Char :=
  match s with
  | e :: rest =>
    if e == 'e' || e == 'E' then
      let (negative, rest) :=
        match rest with
        | '-' :: more => (true, more)
        | '+' :: more => (false, more)
        | _ => (false, rest)
      match spanDigits rest with
      | ([], _) => (none, s)
      | (ds, after) =>
        let size : Int := Double.ofDigitValues ds
        (some (if negative then -size else size), after)
    else (none, s)
  | [] => (none, s)

/-- The digits before the point; a leading nought stands alone. -/
def readWhole (s : List Char) : List Nat × List Char :=
  match s with
  | '0' :: rest => ([0], rest)
  | _ => spanDigits s

/-- The digits after the point, if there is a point with a digit after it. -/
def readFraction (s : List Char) : List Nat × List Char :=
  match s with
  | '.' :: rest =>
    match spanDigits rest with
    | ([], _) => ([], s)
    | found => found
  | _ => ([], s)

/-- A number after its sign; without digits there is no value at the front of `whole`. -/
def readSize (negative : Bool) (whole s : List Char) : Except JsonStop (Front Value) :=
  match readWhole s with
  | ([], _) => faultAt .value whole
  | (ds, rest) =>
    let (fraction, rest) := readFraction rest
    let (exponent, rest) := readExponent rest
    if fraction.isEmpty && exponent.isNone then
      if maxIntDigits < ds.length then .error (.tooManyDigits ds.length)
      else
        let n : Int := Double.ofDigitValues ds
        .ok (int (if negative then -n else n), rest)
    else
      let digits := ds ++ fraction
      let e := Double.clampExponent digits.length (exponent.getD 0)
      .ok (double (Double.ofDecimal negative (Double.ofDigitValues digits) (e - fraction.length)), rest)

/-- The value that a word at the front denotes. -/
def readWord? (s : List Char) : Option (Value × List Char) :=
  let word (text : String) (v : Value) : Option (Value × List Char) :=
    (Text.dropStart? text.toList s).map fun rest => (v, rest)
  word "null" null <|> word "true" (bool true) <|> word "false" (bool false) <|>
    word "NaN" (double .nan) <|> word "Infinity" (double (.infinite false)) <|>
    word "-Infinity" (double (.infinite true))

/-- A value that is one word or one number. -/
def readScalar (s : List Char) : Except JsonStop (Front Value) :=
  match readWord? s with
  | some found => .ok found
  | none =>
    match s with
    | '-' :: rest => readSize true s rest
    | _ => readSize false s s

mutual

/-- One value at the front of the text. -/
def readValue : Nat → List Char → Except JsonStop (Front Value)
  | 0, s => faultAt .value s
  | _ + 1, '"' :: rest => do
    let (text, rest) ← readText rest
    return (string text, rest)
  | fuel + 1, '[' :: rest =>
    match skipJsonBlanks rest with
    | ']' :: rest => .ok (list [], rest)
    | rest => do
      let (items, rest) ← readItems fuel rest
      return (list items, rest)
  | fuel + 1, '\x7b' :: rest =>
    match skipJsonBlanks rest with
    | '\x7d' :: rest => .ok (map [], rest)
    | rest => do
      let (entries, rest) ← readEntries fuel [] rest
      return (map entries, rest)
  | _ + 1, s => readScalar s

/-- Items up to the closing bracket. -/
def readItems : Nat → List Char → Except JsonStop (Front (List Value))
  | 0, s => faultAt .value s
  | fuel + 1, s => do
    let (v, rest) ← readValue fuel (skipJsonBlanks s)
    match skipJsonBlanks rest with
    | ',' :: rest =>
      let (vs, rest) ← readItems fuel rest
      return (v :: vs, rest)
    | ']' :: rest => return ([v], rest)
    | rest => faultAt .comma rest

/-- Entries up to the closing brace. -/
def readEntries : Nat → Table Value → List Char → Except JsonStop (Front (Table Value))
  | 0, _, s => faultAt .value s
  | fuel + 1, found, s =>
    match skipJsonBlanks s with
    | '"' :: rest => do
      let (name, rest) ← readText rest
      match skipJsonBlanks rest with
      | ':' :: rest =>
        let (v, rest) ← readValue fuel (skipJsonBlanks rest)
        let found := Table.set name v found
        match skipJsonBlanks rest with
        | ',' :: rest => readEntries fuel found rest
        | '\x7d' :: rest => return (found, rest)
        | rest => faultAt .comma rest
      | rest => faultAt .colon rest
    | rest => faultAt .name rest

end

/-- The value that all characters of a text denote. -/
def readAll (s : List Char) : Except JsonStop Value := do
  if s.head? == some '\uFEFF' then faultAt .mark s
  let (v, rest) ← readValue (2 * s.length + 2) (skipJsonBlanks s)
  match skipJsonBlanks rest with
  | [] => return v
  | rest => faultAt .extra rest

/-- The value a JSON text denotes. -/
def ofJson (text : String) : Except JsonProblem Value :=
  let s := text.toList
  match readAll s with
  | .ok v => .ok v
  | .error (.fault kind left) => .error (.fault kind (s.take (s.length - left)))
  | .error (.tooManyDigits count) => .error (.tooManyDigits count)

end Value

end StoryRegistry
