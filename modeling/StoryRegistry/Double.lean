/-!
# Binary64 numbers

A finite number is `±m · 2^e`. Results are rounded once, from an exact quotient of natural numbers,
to the nearest number of the format, a tie going to the even mantissa. In normal form the mantissa
lies between `2^52` and `2^53`, or the exponent is the least one, `-1074`.
-/

set_option autoImplicit false

namespace StoryRegistry

namespace Double

/-- A mantissa and an exponent are in normal form. -/
def IsNormal (mantissa : Nat) (exponent : Int) : Prop :=
  mantissa < Nat.pow 2 53 ∧ -1074 ≤ exponent ∧ exponent ≤ 971 ∧
    (exponent = -1074 ∨ Nat.pow 2 52 ≤ mantissa)

instance (mantissa : Nat) (exponent : Int) : Decidable (IsNormal mantissa exponent) :=
  inferInstanceAs (Decidable (_ ∧ _))

/-- The size of a finite number, in normal form, so that different sizes are of different numbers. -/
structure Magnitude where
  mantissa : Nat
  exponent : Int
  isNormal : IsNormal mantissa exponent
deriving DecidableEq

/-- Nought. -/
def Magnitude.zero : Magnitude := ⟨0, -1074, by decide⟩

instance : Inhabited Magnitude := ⟨.zero⟩

end Double

/-- A number of the binary64 format. -/
inductive Double where
  | finite (negative : Bool) (size : Double.Magnitude)
  | infinite (negative : Bool)
  | nan
deriving DecidableEq, Inhabited

namespace Double

/-- The quotient rounded to the nearest natural number, a tie going to the even one. -/
def roundDiv (num den : Nat) : Nat :=
  let q := num / den
  let twice := 2 * (num % den)
  if twice < den then q
  else if den < twice then q + 1
  else if q % 2 == 0 then q else q + 1

/-- The quotient `num / den` in units of `2^e`, as numerator and denominator. -/
def scaled (num den : Nat) (e : Int) : Nat × Nat :=
  if 0 ≤ e then (num, den * Nat.pow 2 e.toNat) else (num * Nat.pow 2 (-e).toNat, den)

/-- A mantissa of at most `2^53` units of `2^e` as a number of the format; what is beyond the format
is infinite. -/
def pack (negative : Bool) (mantissa : Nat) (e : Int) : Double :=
  let (mantissa, e) := if mantissa == Nat.pow 2 53 then (Nat.pow 2 52, e + 1) else (mantissa, e)
  if h : IsNormal mantissa e then .finite negative ⟨mantissa, e, h⟩ else .infinite negative

/-- The number of the format nearest to `num / den`. -/
def ofRatio (negative : Bool) (num den : Nat) : Double :=
  if num == 0 then .finite negative .zero
  else
    let size : Int := (Nat.log2 num : Int) - Nat.log2 den
    let low := max (-1074) (size - 53)
    let (n, d) := scaled num den low
    let e := if Nat.pow 2 53 ≤ n / d then low + 1 else low
    let (n, d) := scaled num den e
    pack negative (roundDiv n d) e

/-- The number of the format nearest to `m · 10^e`. -/
def ofDecimal (negative : Bool) (m : Nat) (e : Int) : Double :=
  if 0 ≤ e then ofRatio negative (m * Nat.pow 10 e.toNat) 1
  else ofRatio negative m (Nat.pow 10 (-e).toNat)

/-- The number of the format nearest to an integer. -/
def ofInt (n : Int) : Double := ofRatio (n < 0) n.natAbs 1

/-- The number with the other sign. -/
def neg : Double → Double
  | finite negative size => finite (!negative) size
  | infinite negative => infinite (!negative)
  | nan => nan

/-- A finite number as a signed count of units of `2^-1074`, the least step of the format. -/
def units? : Double → Option Int
  | finite negative size =>
    let units : Int := size.mantissa * Nat.pow 2 (size.exponent + 1074).toNat
    some (if negative then -units else units)
  | _ => none

/-- The number of the format nearest to a signed count of units of `2^-k`. -/
def ofUnits (n : Int) (k : Nat) : Double := ofRatio (n < 0) n.natAbs (Nat.pow 2 k)

/-- The sum, rounded. -/
def add (x y : Double) : Double :=
  match x, y with
  | nan, _ | _, nan => nan
  | infinite a, infinite b => if a == b then infinite a else nan
  | infinite a, _ => infinite a
  | _, infinite b => infinite b
  | finite a m, finite b n =>
    match (finite a m).units?, (finite b n).units? with
    | some p, some q =>
      if p + q == 0 then finite (a && b) .zero else ofUnits (p + q) 1074
    | _, _ => nan

/-- The product with a natural number, rounded. -/
def scale (x : Double) (factor : Nat) : Double :=
  match x with
  | nan => nan
  | infinite a => if factor == 0 then nan else infinite a
  | finite a ⟨m, e, _⟩ =>
    if 0 ≤ e then ofRatio a (m * factor * Nat.pow 2 e.toNat) 1
    else ofRatio a (m * factor) (Nat.pow 2 (-e).toNat)

/-- The number is at most the integer `n`; a NaN is not. -/
def le (x : Double) (n : Int) : Bool :=
  match x with
  | nan => false
  | infinite negative => negative
  | finite negative size =>
    match (finite negative size).units? with
    | some units => units ≤ n * (Nat.pow 2 1074 : Nat)
    | none => false

/-- The number, or the integer if the number is not above it. -/
def atLeast (x : Double) (n : Int) : Double := if x.le n then ofInt n else x

/-- The number, or the integer if the number is not at most it. -/
def atMost (x : Double) (n : Int) : Double := if x.le n then x else ofInt n

/-- The greatest integer not above the number, if the number is finite. -/
def floor? (x : Double) : Option Int := x.units?.map fun units => units / (Nat.pow 2 1074 : Nat)

/-- The number is nought, of either sign. -/
def isZero : Double → Bool
  | finite _ size => size.mantissa == 0
  | _ => false

end Double

end StoryRegistry
