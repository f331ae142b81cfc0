import StoryRegistry.Double
import StoryRegistry.Text.Blank
import StoryRegistry.Text.Word

/-!
# Decimal texts of binary64 numbers

`Double.text` writes the fewest significant digits that read back as the same number, and of those
the digits nearest to it. `Double.ofText?` reads a decimal text with optional sign, point, exponent
and single underscores between digits.
-/

set_option autoImplicit false

namespace StoryRegistry.Double

/-- Significant digits and the power of ten of the last one: `digits · 10^exponent`. -/
structure Digits where
  digits : Nat
  exponent : Int
deriving DecidableEq

/-- The value of a size as numerator and denominator. -/
def Magnitude.ratio : Magnitude → Nat × Nat
  | ⟨m, e, _⟩ => if 0 ≤ e then (m * Nat.pow 2 e.toNat, 1) else (m, Nat.pow 2 (-e).toNat)

/-- All the digits of a size. -/
def Magnitude.digits : Magnitude → Digits
  | ⟨m, e, _⟩ => if 0 ≤ e then ⟨m * Nat.pow 2 e.toNat, 0⟩ else ⟨m * Nat.pow 5 (-e).toNat, e⟩

/-- The greatest `k` with `10^k ≤ num / den`, for a quotient of at least `10^-400`. -/
def decade (num den : Nat) : Int :=
  ((Nat.toDigits 10 (num * Nat.pow 10 400 / den)).length : Int) - 1 - 400

/-- The two neighbours of `num / den` among the multiples of `10^t`: the one below, with what is
left over in units of `10^t` as numerator and denominator. -/
def floorAt (num den : Nat) (t : Int) : Nat × Nat × Nat :=
  let (n, d) := if 0 ≤ t then (num, den * Nat.pow 10 t.toNat) else (num * Nat.pow 10 (-t).toNat, den)
  (n / d, n % d, d)

/-- The digits that read back as the number, from the two neighbours among the multiples of
`10^t`: the nearer one if both do, a tie going to the even digit. -/
def digitsAt? (size : Magnitude) (t : Int) : Option Digits :=
  let (num, den) := size.ratio
  let (low, rest, unit) := floorAt num den t
  let up := unit < 2 * rest || (unit == 2 * rest && low % 2 == 1)
  let neighbours := if up then [low + 1, low] else [low, low + 1]
  (neighbours.find? fun k => ofDecimal false k t == finite false size).map fun k => ⟨k, t⟩

/-- The first grid of powers of ten, from the coarsest, that holds digits reading back. -/
def searchDigits (size : Magnitude) (top : Int) : Nat → Nat → Option Digits
  | 0, _ => none
  | more + 1, count =>
    match digitsAt? size (top - count) with
    | some found => some found
    | none => searchDigits size top more (count + 1)

/-- Trailing noughts moved into the exponent. -/
def dropZeros : Nat → Digits → Digits
  | 0, d => d
  | fuel + 1, d =>
    if d.digits != 0 && d.digits % 10 == 0 then dropZeros fuel ⟨d.digits / 10, d.exponent + 1⟩
    else d

/-- The fewest digits that read back as a number above nought; seventeen always suffice. -/
def shortest (size : Magnitude) : Digits :=
  let (num, den) := size.ratio
  dropZeros 400 ((searchDigits size (decade num den) 17 0).getD size.digits)

/-- How numbers are written: from which decimal exponents on the exponent form is used. -/
structure Style where
  /-- The least decimal exponent written positionally. -/
  lowest : Int
  /-- The least decimal exponent above it that is no longer written positionally. -/
  highest : Int

/-- Positional from `10^-4` up to, but not including, `10^16`. -/
def plain : Style := ⟨-4, 16⟩

/-- Exponents have a sign and at least two digits. -/
def exponentText (k : Int) : String :=
  let size := toString k.natAbs
  (if k < 0 then "-" else "+") ++ (if k.natAbs < 10 then "0" ++ size else size)

/-- The digits with a point, in positional or exponent form. -/
def layOut (style : Style) (d : Digits) : String :=
  let text := Nat.toDigits 10 d.digits
  let top : Int := d.exponent + text.length - 1
  if top < style.lowest || style.highest ≤ top then
    let (first, more) := text.splitAt 1
    let mantissa := if more.isEmpty then first else first ++ '.' :: more
    String.ofList mantissa ++ "e" ++ exponentText top
  else if 0 ≤ d.exponent then
    String.ofList (text ++ List.replicate d.exponent.toNat '0') ++ ".0"
  else if top < 0 then
    String.ofList ('0' :: '.' :: List.replicate (-top - 1).toNat '0' ++ text)
  else
    let (whole, fraction) := text.splitAt (top + 1).toNat
    String.ofList (whole ++ '.' :: fraction)

/-- The texts of the two infinities and of NaN. -/
structure Names where
  infinity : String
  nan : String

/-- The number's text, `names` giving the texts of the numbers that have no digits. -/
def textWith (names : Names) : Double → String
  | finite negative size =>
    let digits := if size.mantissa == 0 then "0.0" else layOut plain (shortest size)
    if negative then "-" ++ digits else digits
  | infinite negative => if negative then "-" ++ names.infinity else names.infinity
  | nan => names.nan

/-- The number's text. -/
def text : Double → String := textWith ⟨"inf", "nan"⟩

/-- Digits with single underscores between them: their values, and what follows. `after` says that
a digit stands right before. -/
def takeDigits (value? : Char → Option Nat) : Bool → List Char → List Nat × List Char
  | _, [] => ([], [])
  | after, c :: rest =>
    match value? c with
    | some v =>
      let (vs, left) := takeDigits value? true rest
      (v :: vs, left)
    | none =>
      if after && c == '_' && (rest.head?.bind value?).isSome then takeDigits value? false rest
      else ([], c :: rest)

/-- The number whose digits, the first one first, are given. -/
def ofDigitValues (digits : List Nat) : Nat := digits.foldl (fun n d => 10 * n + d) 0

/-- An exponent part at the very end of a text, or nothing. -/
def exponentPart? (value? : Char → Option Nat) : List Char → Option Int
  | [] => some 0
  | e :: rest =>
    if e == 'e' || e == 'E' then
      let (negative, rest) :=
        match rest with
        | '-' :: more => (true, more)
        | '+' :: more => (false, more)
        | _ => (false, rest)
      match takeDigits value? false rest with
      | (d :: ds, []) =>
        let size : Int := ofDigitValues (d :: ds)
        some (if negative then -size else size)
      | _ => none
    else none

/-- Exponents beyond this size give nought or infinity whatever the digits, up to the given number
of them. -/
def clampExponent (count : Nat) (e : Int) : Int :=
  max (-(400 + count : Int)) (min e (400 + count))

/-- An unsigned decimal text. -/
def unsigned? (value? : Char → Option Nat) (negative : Bool) (s : List Char) : Option Double :=
  let (whole, rest) := takeDigits value? false s
  let (fraction, rest) :=
    match rest with
    | '.' :: more => takeDigits value? false more
    | _ => ([], rest)
  if whole.isEmpty && fraction.isEmpty then none
  else
    (exponentPart? value? rest).map fun e =>
      let digits := whole ++ fraction
      ofDecimal negative (ofDigitValues digits)
        (clampExponent digits.length e - fraction.length)

/-- The number a text denotes: blanks around it do not matter, `inf`, `infinity` and `nan` are read
in any case, and digits of every script count. -/
def ofText? (s : String) : Option Double :=
  let body := (Text.trim s.toList)
  let (negative, body) :=
    match body with
    | '-' :: more => (true, more)
    | '+' :: more => (false, more)
    | _ => (false, body)
  match String.ofList (body.map Char.toLower) with
  | "inf" | "infinity" => some (infinite negative)
  | "nan" => some nan
  | _ => unsigned? Text.digitValue? negative body

end StoryRegistry.Double
