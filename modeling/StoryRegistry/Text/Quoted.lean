import StoryRegistry.Text.Printable
import StoryRegistry.Text.Surrogate

/-!
# Quoted texts

Two ways to put a text between quotes. In the JSON way the quote, the backslash and the controls
are escaped, and optionally everything beyond ASCII. In the literal way the quote is chosen so that
as little as possible needs escaping, and what does not print is shown by number.
-/

set_option autoImplicit false

namespace StoryRegistry.Text

/-- The last `count` hexadecimal digits of a number, in small letters. -/
def hexDigits (count n : Nat) : List Char :=
  let digits := Nat.toDigits 16 n
  List.replicate (count - digits.length) '0' ++ digits

/-- The value of a hexadecimal digit. -/
def hexValue? (c : Char) : Option Nat :=
  if '0' ≤ c && c ≤ '9' then some (c.toNat - 48)
  else if 'a' ≤ c && c ≤ 'f' then some (c.toNat - 87)
  else if 'A' ≤ c && c ≤ 'F' then some (c.toNat - 55)
  else none

/-- A 16-bit unit as a JSON escape. -/
def unitEscape (unit : Nat) : List Char := '\\' :: 'u' :: hexDigits 4 unit

/-- A character as JSON escapes of its 16-bit units. -/
def charEscape (c : Char) : List Char :=
  match surrogate? c with
  | some code => unitEscape code
  | none =>
    if c.toNat < 0x10000 then unitEscape c.toNat
    else
      let above := c.toNat - 0x10000
      unitEscape (0xD800 + above / 0x400) ++ unitEscape (0xDC00 + above % 0x400)

/-- A character inside a JSON text; `ascii` asks for escapes beyond ASCII. -/
def jsonChar (ascii : Bool) (c : Char) : List Char :=
  if c == '"' then ['\\', '"']
  else if c == '\\' then ['\\', '\\']
  else if c == '\n' then ['\\', 'n']
  else if c == '\r' then ['\\', 'r']
  else if c == '\t' then ['\\', 't']
  else if c == '\x08' then ['\\', 'b']
  else if c == '\x0c' then ['\\', 'f']
  else if c.toNat < 0x20 then charEscape c
  else if ascii && 0x7E < c.toNat then charEscape c
  else [c]

/-- The text between JSON quotes. -/
def jsonQuoted (ascii : Bool) (s : String) : String :=
  String.ofList ('"' :: s.toList.flatMap (jsonChar ascii) ++ ['"'])

/-- A character of a literal whose quote is `quote`. -/
def literalChar (quote : Char) (c : Char) : List Char :=
  if c == quote || c == '\\' then ['\\', c]
  else if c == '\n' then ['\\', 'n']
  else if c == '\r' then ['\\', 'r']
  else if c == '\t' then ['\\', 't']
  else
    match surrogate? c with
    | some code => unitEscape code
    | none =>
      if isPrintable c then [c]
      else if c.toNat < 0x100 then '\\' :: 'x' :: hexDigits 2 c.toNat
      else if c.toNat < 0x10000 then unitEscape c.toNat
      else '\\' :: 'U' :: hexDigits 8 c.toNat

/-- The text as a literal: in single quotes, unless it holds a single quote and no double one. -/
def literal (s : String) : String :=
  let chars := s.toList
  let quote := if chars.contains '\x27' && !chars.contains '"' then '"' else '\x27'
  String.ofList (quote :: chars.flatMap (literalChar quote) ++ [quote])

end StoryRegistry.Text
