import StoryRegistry.Text.Surrogate

/-!
# UTF-8

Bytes are read into a text, or refused at the first place where they begin no character: with the
number of bytes that could have belonged to one, and the reason. Texts are written as bytes, and a
text that holds a lone surrogate is refused.
-/

set_option autoImplicit false

namespace StoryRegistry.Text

/-- Why bytes begin no character. -/
inductive Malformed where
  | startByte
  | continuationByte
  | endOfData
deriving DecidableEq, Inhabited

/-- The text of a reason. -/
def Malformed.text : Malformed → String
  | startByte => "invalid start byte"
  | continuationByte => "invalid continuation byte"
  | endOfData => "unexpected end of data"

/-- A place in a run of bytes where no character begins. -/
structure BadBytes where
  /-- How many bytes come before. -/
  first : Nat
  /-- How many bytes are at fault. -/
  count : Nat
  /-- The first byte at fault. -/
  byte : Nat
  reason : Malformed
deriving DecidableEq, Inhabited

namespace Utf8

/-- The byte continues a character. -/
def isContinuation (b : Nat) : Bool := 0x80 ≤ b && b < 0xC0

/-- How the first byte of a character of several bytes is followed: the number of further bytes,
the least and the greatest second byte, and the bits of the code point that it gives. -/
structure Lead where
  more : Nat
  least : Nat
  most : Nat
  bits : Nat

/-- What a first byte beyond ASCII says; none if no character begins with it. -/
def lead? (b : Nat) : Option Lead :=
  if 0xC2 ≤ b && b ≤ 0xDF then some ⟨1, 0x80, 0xBF, b - 0xC0⟩
  else if b == 0xE0 then some ⟨2, 0xA0, 0xBF, 0⟩
  else if b == 0xED then some ⟨2, 0x80, 0x9F, 0xD⟩
  else if 0xE1 ≤ b && b ≤ 0xEF then some ⟨2, 0x80, 0xBF, b - 0xE0⟩
  else if b == 0xF0 then some ⟨3, 0x90, 0xBF, 0⟩
  else if b == 0xF4 then some ⟨3, 0x80, 0x8F, 4⟩
  else if 0xF1 ≤ b && b ≤ 0xF3 then some ⟨3, 0x80, 0xBF, b - 0xF0⟩
  else none

/-- Reads `more` continuation bytes into the code point; `done` bytes were read before. -/
def continue? : Nat → Nat → Nat → List Nat → Except (Nat × Malformed) (Nat × List Nat)
  | 0, _, code, bytes => .ok (code, bytes)
  | _ + 1, done, _, [] => .error (done, .endOfData)
  | more + 1, done, code, b :: bytes =>
    if isContinuation b then continue? more (done + 1) (code * 64 + (b - 0x80)) bytes
    else .error (done, .continuationByte)

/-- The code point at the front of the bytes, and what follows; or how many bytes are at fault. -/
def first? : List Nat → Except (Nat × Malformed) (Nat × List Nat)
  | [] => .error (0, .endOfData)
  | b :: bytes =>
    if b < 0x80 then .ok (b, bytes)
    else
      match lead? b with
      | none => .error (1, .startByte)
      | some lead =>
        match bytes with
        | [] => .error (1, .endOfData)
        | second :: _ =>
          if second < lead.least || lead.most < second then .error (1, .continuationByte)
          else continue? lead.more 1 lead.bits bytes

/-- The characters of the bytes; `done` bytes came before. -/
def charsFrom : Nat → Nat → List Nat → Except BadBytes (List Char)
  | 0, _, _ => .ok []
  | _ + 1, _, [] => .ok []
  | fuel + 1, done, b :: bytes =>
    match first? (b :: bytes) with
    | .error (count, reason) => .error ⟨done, count, b, reason⟩
    | .ok (code, rest) => do
      let more ← charsFrom fuel (done + ((b :: bytes).length - rest.length)) rest
      return Char.ofNat code :: more

/-- The text of the bytes. -/
def decode (bytes : List UInt8) : Except BadBytes String :=
  (charsFrom bytes.length 0 (bytes.map UInt8.toNat)).map String.ofList

/-- The bytes of a text, if it has a UTF-8 form. -/
def encode? (s : String) : Option (List UInt8) :=
  if isWritable s then some s.toUTF8.data.toList else none

end Utf8

end StoryRegistry.Text
