import StoryRegistry.Text.Surrogate
import StoryRegistry.Value
import StoryRegistry.Text.Quoted
import StoryRegistry.Double.Decimal

/-!
# Literals

A text literal is a sequence of raw runs and escapes. Each escape is decoded by itself, so two
escapes for the halves of a surrogate pair stay two lone surrogates. A number literal is an integer
in one of four bases or a decimal number; underscores in it do not matter, and big-integer literals
are not read.
-/

set_option autoImplicit false

namespace StoryRegistry.Script

/-- A part of a text literal. -/
inductive Piece where
  | raw (text : List Char)
  /-- An escape, the backslash included. -/
  | escape (text : List Char)
deriving DecidableEq

/-- The control character that a one-letter escape stands for. -/
def controlEscape? : List Char → Option Char
  | ['n'] => some '\n'
  | ['t'] => some '\t'
  | ['r'] => some '\r'
  | ['b'] => some '\x08'
  | ['f'] => some '\x0c'
  | ['v'] => some '\x0b'
  | ['0'] => some '\x00'
  | _ => none

/-- The value of hexadecimal digits, if there is at least one and there are no others. -/
def hexNumber? (digits : List Char) : Option Nat :=
  if digits.isEmpty then none
  else
    digits.foldl
      (fun n c => do
        let n ← n
        let d ← Text.hexValue? c
        some (16 * n + d))
      (some 0)

/-- The code point that an escape names by number. -/
def escapeCode? : List Char → Option Nat
  | 'x' :: digits => if digits.length == 2 then hexNumber? digits else none
  | 'u' :: '\x7b' :: rest =>
    if rest.getLast? == some '\x7d' then hexNumber? rest.dropLast else none
  | 'u' :: digits => if digits.length == 4 then hexNumber? digits else none
  | _ => none

/-- The characters that an escape with the given body stands for. A line continuation stands for
nothing, a code point beyond Unicode for the escape itself, any other body for itself. -/
def decodeEscape (body : List Char) : List Char :=
  match controlEscape? body with
  | some c => [c]
  | none =>
    match escapeCode? body with
    | some code =>
      match Text.charOfCode? code with
      | some c => [c]
      | none => '\\' :: body
    | none =>
      match body with
      | '\n' :: _ | '\r' :: _ => []
      | _ => body

/-- The characters a part stands for. -/
def Piece.decode : Piece → List Char
  | raw text => text
  | escape text => decodeEscape (text.drop 1)

/-- The text a literal stands for. -/
def decodePieces (pieces : List Piece) : String := String.ofList (pieces.flatMap Piece.decode)

/-! ## Reading text literals -/

/-- A character that separates lines or paragraphs. -/
def isSeparator (c : Char) : Bool := c == '\u2028' || c == '\u2029'

/-- The number of characters of the escape body at the front of a text. A carriage return or a
question mark takes a line end after it along. -/
def escapeSize (s : List Char) : Nat :=
  match s with
  | 'x' :: _ => 3
  | 'u' :: '\x7b' :: rest => 3 + (rest.takeWhile (· != '\x7d')).length
  | 'u' :: _ => 5
  | c :: rest =>
    let isOctal (c : Char) : Bool := '0' ≤ c && c ≤ '7'
    if isOctal c then ((s.take 3).takeWhile isOctal).length
    else if (c == '\r' || c == '?') && rest.head?.any fun d => d == '\n' || isSeparator d then 2
    else 1
  | [] => 0

/-- Puts a raw character in front of the parts. -/
def consRaw (c : Char) : List Piece → List Piece
  | .raw text :: more => .raw (c :: text) :: more
  | pieces => .raw [c] :: pieces

/-- The parts of a text literal up to its closing quote, with the number of characters read, the
quote included. -/
def readQuoted (quote : Char) : Nat → List Char → Option (List Piece × Nat)
  | 0, _ => none
  | _ + 1, [] => none
  | fuel + 1, c :: rest =>
    if c == quote then some ([], 1)
    else if c == '\\' then
      let size := escapeSize rest
      (readQuoted quote fuel (rest.drop size)).map fun (pieces, n) =>
        (.escape ('\\' :: rest.take size) :: pieces, n + size + 1)
    else if c == '\n' || c == '\r' then none
    else (readQuoted quote fuel rest).map fun (pieces, n) => (consRaw c pieces, n + 1)

/-- The parts of a template up to its closing quote or its next substitution, with the number of
characters read before it. -/
def readTemplate : Nat → List Char → List Piece × Nat
  | 0, _ => ([], 0)
  | _ + 1, [] => ([], 0)
  | fuel + 1, c :: rest =>
    if c == '\x60' then ([], 0)
    else if c == '$' && rest.head? == some '\x7b' then ([], 0)
    else if c == '\\' then
      let size := escapeSize rest
      let (pieces, n) := readTemplate fuel (rest.drop size)
      (.escape ('\\' :: rest.take size) :: pieces, n + size + 1)
    else
      let (pieces, n) := readTemplate fuel rest
      (consRaw c pieces, n + 1)

/-! ## Numbers -/

/-- The value of a digit in a base of at most sixteen. -/
def digitIn? (base : Nat) (c : Char) : Option Nat :=
  (Text.hexValue? c).bind fun d => if d < base then some d else none

/-- The value of digits in a base, if there is at least one and there are no others. -/
def numberIn? (base : Nat) (digits : List Char) : Option Nat :=
  if digits.isEmpty then none
  else
    digits.foldl
      (fun n c => do
        let n ← n
        let d ← digitIn? base c
        some (base * n + d))
      (some 0)

/-- The value of a number literal, unless it is a big integer or too long to be read. -/
def numberValue? (literal : String) : Option Value :=
  let digits := literal.toList.filter (· != '_')
  if digits.getLast? == some 'n' then none
  else
    let ofBase (base : Nat) (rest : List Char) : Option Value :=
      (numberIn? base rest).map fun n => .int n
    match digits with
    | '0' :: 'x' :: rest | '0' :: 'X' :: rest => ofBase 16 rest
    | '0' :: 'o' :: rest | '0' :: 'O' :: rest => ofBase 8 rest
    | '0' :: 'b' :: rest | '0' :: 'B' :: rest => ofBase 2 rest
    | _ =>
      if digits.any fun c => c == '.' || c == 'e' || c == 'E' then
        (Double.ofText? (String.ofList digits)).map .double
      else if Value.maxIntDigits < digits.length then none
      else ofBase 10 digits

/-- The number of characters of the run of digits, letters and underscores at the front. -/
def alnumSize (s : List Char) : Nat :=
  (s.takeWhile fun c => c.isAlphanum || c == '_').length

/-- The number of characters of the run of digits and underscores at the front. -/
def digitsSize (s : List Char) : Nat := (s.takeWhile fun c => c.isDigit || c == '_').length

/-- The number of characters of an exponent at the front. -/
def exponentSize (s : List Char) : Nat :=
  match s with
  | e :: rest =>
    if e == 'e' || e == 'E' then
      let sign := if rest.head? == some '+' || rest.head? == some '-' then 1 else 0
      let digits := digitsSize (rest.drop sign)
      if digits == 0 then 0 else 1 + sign + digits
    else 0
  | [] => 0

/-- The number of characters of the number literal at the front; none means that there is none. -/
def numberSize (s : List Char) : Nat :=
  match s with
  | '0' :: b :: _ =>
    if "xXoObB".toList.contains b then alnumSize s else decimal s
  | _ => decimal s
where
  /-- The size of a decimal literal. -/
  decimal (s : List Char) : Nat :=
    let whole := digitsSize s
    let afterWhole := s.drop whole
    let fraction := if afterWhole.head? == some '.' then 1 + digitsSize (afterWhole.drop 1) else 0
    if whole == 0 && fraction ≤ 1 then 0
    else
      let size := whole + fraction
      let size := size + exponentSize (s.drop size)
      if (s.drop size).head? == some 'n' then size + 1 else size

/-- The number of characters of a regular expression after its opening slash, the closing one
included; `inClass` says that a bracketed class is open. -/
def regexSize : Bool → List Char → Option Nat
  | _, [] => none
  | inClass, '\\' :: _ :: rest => (regexSize inClass rest).map (· + 2)
  | inClass, c :: rest =>
    if c == '\n' then none
    else if c == '/' && !inClass then some 1
    else (regexSize ((inClass || c == '[') && c != ']') rest).map (· + 1)

end StoryRegistry.Script
