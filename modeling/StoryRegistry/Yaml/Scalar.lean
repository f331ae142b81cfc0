import StoryRegistry.Yaml.Problem
import StoryRegistry.Double.Decimal
import StoryRegistry.Value
import StoryRegistry.Text.Quoted
import StoryRegistry.Text.Split
import StoryRegistry.Text.Case

/-!
# What a plain scalar is taken for

The form of a plain scalar tells its kind: a truth value, a number, a point in time, null, the mark
of a merge or of a default, or else a text. A number may be written with underscores, in base two,
eight, ten or sixteen, or in parts of base sixty.
-/

set_option autoImplicit false

namespace StoryRegistry.Yaml

/-- A kind of scalar. -/
inductive ScalarKind where
  | null
  | bool
  | int
  | float
  | time
  | merge
  | default
  | text
deriving DecidableEq, Inhabited

/-! ## Forms -/

/-- The words for null. -/
def nullWords : List String := ["", "~", "null", "Null", "NULL"]

/-- The words for true, in small letters. -/
def trueWords : List String := ["yes", "true", "on"]

/-- The words for false, in small letters. -/
def falseWords : List String := ["no", "false", "off"]

/-- The word in small letters, with a capital, and in capitals. -/
def casings (word : String) : List String :=
  let chars := word.toList
  [word, String.ofList ((chars.take 1).map Char.toUpper ++ chars.drop 1),
    String.ofList (chars.map Char.toUpper)]

/-- The words for truth values as they may be written. -/
def truthWords : List String := (trueWords ++ falseWords).flatMap casings

/-- A digit or an underscore. -/
def isDigitMark (c : Char) : Bool := c.isDigit || c == '_'

/-- The text after an optional sign. -/
def unsigned : List Char → List Char
  | '-' :: rest => rest
  | '+' :: rest => rest
  | s => s

/-- The characters are there, and all of them pass the test. -/
def filledWith (test : Char → Bool) (s : List Char) : Bool := !s.isEmpty && s.all test

/-- Decimal digits that do not begin with nought, underscores among them. -/
def isCount : List Char → Bool
  | c :: rest => '1' ≤ c && c ≤ '9' && rest.all isDigitMark
  | [] => false

/-- One or more parts `:d` or `:dd` below sixty. -/
def isSixties : List (List Char) → Bool
  | [] => false
  | parts => parts.all fun part =>
      match part with
      | [c] => c.isDigit
      | [a, b] => '0' ≤ a && a ≤ '5' && b.isDigit
      | _ => false

/-- An integer. -/
def isInt (s : List Char) : Bool :=
  match unsigned s with
  | '0' :: 'b' :: rest => filledWith (fun c => c == '0' || c == '1' || c == '_') rest
  | '0' :: 'x' :: rest => filledWith (fun c => (Text.hexValue? c).isSome || c == '_') rest
  | ['0'] => true
  | '0' :: rest => filledWith (fun c => ('0' ≤ c && c ≤ '7') || c == '_') rest
  | body =>
    match Text.splitOn ':' body with
    | [whole] => isCount whole
    | whole :: parts => isCount whole && isSixties parts
    | [] => false

/-- Nothing, or an exponent with its sign. -/
def isExponent : List Char → Bool
  | [] => true
  | e :: sign :: rest =>
    (e == 'e' || e == 'E') && (sign == '-' || sign == '+') && filledWith Char.isDigit rest
  | _ => false

/-- Decimal digits, underscores among them but not in front. -/
def isDigits : List Char → Bool
  | c :: rest => c.isDigit && rest.all isDigitMark
  | [] => false

/-- A number with a point. -/
def isFloat (s : List Char) : Bool :=
  let body := unsigned s
  let signed := body.length != s.length
  let word := String.ofList body
  if [".inf", ".Inf", ".INF"].contains word then true
  else if [".nan", ".NaN", ".NAN"].contains word then !signed
  else
    let whole := body.takeWhile (· != '.')
    match body.dropWhile (· != '.') with
    | '.' :: fraction =>
      if whole.isEmpty then
        match fraction with
        | c :: rest => !signed && c.isDigit && isExponent (rest.dropWhile isDigitMark)
        | [] => false
      else
        (isDigits whole && isExponent (fraction.dropWhile isDigitMark)) ||
          match Text.splitOn ':' whole with
          | first :: parts => isDigits first && isSixties parts && fraction.all isDigitMark
          | [] => false
    | _ => false

/-! ## Points in time -/

/-- A date, perhaps with a time of day. -/
structure Moment where
  year : Nat
  month : Nat
  day : Nat
  time : Option (Nat × Nat × Nat × List Char) := none
  /-- The difference to the universal time in minutes, with its sign. -/
  zone : Option (Bool × Nat) := none
deriving Inhabited

/-- Up to `most` decimal digits at the front, at least `least` of them. -/
def digits? (least most : Nat) (s : List Char) : Option (List Char × List Char) :=
  let found := (s.take most).takeWhile Char.isDigit
  if found.length < least then none else some (found, s.drop found.length)

/-- The number that decimal digits write. -/
def numberOf (digits : List Char) : Nat := digits.foldl (fun n c => 10 * n + (c.toNat - 48)) 0

/-- What follows a character at the front. -/
def after? (c : Char) : List Char → Option (List Char)
  | d :: rest => if c == d then some rest else none
  | [] => none

/-- The zone at the end: nothing, `Z`, or a signed difference. -/
def zone? (s : List Char) : Option (Option (Bool × Nat)) :=
  if s.isEmpty then some none
  else
    match s.dropWhile fun c => c == ' ' || c == '\t' with
    | ['Z'] => some (some (false, 0))
    | sign :: rest =>
      if sign == '-' || sign == '+' then do
        let (hours, rest) ← digits? 1 2 rest
        if rest.isEmpty then return some (sign == '-', 60 * numberOf hours)
        let (minutes, rest) ← digits? 2 2 (← after? ':' rest)
        if rest.isEmpty then return some (sign == '-', 60 * numberOf hours + numberOf minutes)
        else none
      else none
    | [] => none

/-- The time of day and the zone, from after the date. -/
def timeOfDay? (s : List Char) : Option ((Nat × Nat × Nat × List Char) × Option (Bool × Nat)) := do
  let rest ←
    match s with
    | 'T' :: rest => some rest
    | 't' :: rest => some rest
    | c :: rest =>
      if c == ' ' || c == '\t' then some (rest.dropWhile fun c => c == ' ' || c == '\t') else none
    | [] => none
  let (hour, rest) ← digits? 1 2 rest
  let (minute, rest) ← digits? 2 2 (← after? ':' rest)
  let (second, rest) ← digits? 2 2 (← after? ':' rest)
  let (fraction, rest) :=
    match rest with
    | '.' :: more => (more.takeWhile Char.isDigit, more.dropWhile Char.isDigit)
    | _ => ([], rest)
  let zone ← zone? rest
  return ((numberOf hour, numberOf minute, numberOf second, fraction), zone)

/-- The point in time that a scalar is written like. Alone, a date has two digits for month and day
where `strict`; with a time of day one will do. -/
def moment? (strict : Bool) (s : List Char) : Option Moment := do
  let (year, rest) ← digits? 4 4 s
  let (month, rest) ← digits? 1 2 (← after? '-' rest)
  let (day, rest) ← digits? 1 2 (← after? '-' rest)
  if rest.isEmpty then
    if strict && (month.length != 2 || day.length != 2) then none
    else return { year := numberOf year, month := numberOf month, day := numberOf day }
  else
    let (time, zone) ← timeOfDay? rest
    return {
      year := numberOf year, month := numberOf month, day := numberOf day
      time := some time, zone := zone }

/-! ## The kind -/

/-- The kind of scalar that a plain text is taken for. -/
def kindOf (s : String) : ScalarKind :=
  let chars := s.toList
  if nullWords.contains s then .null
  else if truthWords.contains s then .bool
  else if s == "<<" then .merge
  else if s == "=" then .default
  else if isFloat chars then .float
  else if isInt chars then .int
  else if (moment? true chars).isSome then .time
  else .text

/-! ## Values -/

/-- The text without its underscores. -/
def withoutMarks (s : String) : List Char := s.toList.filter (· != '_')

/-- The value of a digit below `base`: of any script, or a letter. -/
def digitBelow? (base : Nat) (c : Char) : Option Nat :=
  (Text.digitValue? c <|> Text.hexValue? c).filter (· < base)

/-- An unsigned number in a base, which its usual mark may name again. -/
def numberIn? (base : Nat) (s : List Char) : Option Nat :=
  let marks : List Char :=
    match base with
    | 2 => ['b', 'B']
    | 8 => ['o', 'O']
    | 16 => ['x', 'X']
    | _ => []
  let body :=
    match s with
    | '0' :: m :: rest => if marks.contains m then rest else s
    | _ => s
  if body.isEmpty then none
  else (body.mapM (digitBelow? base)).map fun ds => ds.foldl (fun n d => base * n + d) 0

/-- A number in a base, with blanks around it and a sign. In base ten it must not have too many
digits. -/
def integer? (base : Nat) (s : List Char) : Except Problem Int :=
  let body := Text.trim s
  let negative := body.head? == some '-'
  let size := unsigned body
  if base == 10 && Value.maxIntDigits < size.length then .error .badNumber
  else
    match numberIn? base size with
    | some n => .ok (if negative then -(n : Int) else n)
    | none => .error .badNumber

/-- The sum of the parts, each counting sixty of the part after it. -/
def sumOfParts (parts : List Int) : Int := parts.foldl (fun n part => 60 * n + part) 0

/-- The integer that a scalar writes. -/
def intOf (s : String) : Except Problem Int := do
  let chars := withoutMarks s
  if chars.isEmpty then throw .noDigits
  let body := unsigned chars
  let signed (n : Int) : Int := if chars.head? == some '-' then -n else n
  match body with
  | [] => throw .noDigits
  | ['0'] => return 0
  | '0' :: 'b' :: rest => return signed (← integer? 2 rest)
  | '0' :: 'x' :: rest => return signed (← integer? 16 rest)
  | '0' :: _ => return signed (← integer? 8 body)
  | _ =>
    match Text.splitOn ':' body with
    | [whole] => return signed (← integer? 10 whole)
    | parts => return signed (sumOfParts (← parts.mapM (integer? 10)))

/-- The sum of the parts from the last one on, each counting sixty times as much as the one
before. -/
def sumFromLast (base : Nat) (total : Double) : List Double → Double
  | [] => total
  | part :: rest => sumFromLast (60 * base) (total.add (part.scale base)) rest

/-- The number with a point that a scalar writes. -/
def floatOf (s : String) : Except Problem Double := do
  let chars := (withoutMarks s).map Char.toLower
  if chars.isEmpty then throw .noDigits
  let body := unsigned chars
  let signed (x : Double) : Double := if chars.head? == some '-' then x.neg else x
  let read (part : List Char) : Except Problem Double :=
    match Double.ofText? (String.ofList part) with
    | some x => .ok x
    | none => .error .badNumber
  match String.ofList body with
  | ".inf" => return signed (.infinite false)
  | ".nan" => return .nan
  | _ =>
    match Text.splitOn ':' body with
    | [whole] => return signed (← read whole)
    | parts =>
      let numbers ← parts.mapM read
      return signed (sumFromLast 1 (.ofInt 0) numbers.reverse)

/-- The truth value that a scalar names. -/
def truthOf (s : String) : Except Problem Bool :=
  let word := Text.lower s
  if trueWords.contains word then .ok true
  else if falseWords.contains word then .ok false
  else .error .unknownTruth

/-- The number of days of a month. -/
def daysIn (year month : Nat) : Nat :=
  if month == 2 then
    if (year % 4 == 0 && year % 100 != 0) || year % 400 == 0 then 29 else 28
  else if [4, 6, 9, 11].contains month then 30
  else 31

/-- The last digits of a number, with noughts in front. -/
def padded (width n : Nat) : String :=
  let digits := Nat.toDigits 10 n
  String.ofList (List.replicate (width - digits.length) '0' ++ digits)

namespace Moment

/-- The millionths of a second. -/
def fractionOf (digits : List Char) : Nat :=
  numberOf ((digits ++ List.replicate 6 '0').take 6)

/-- The date exists, and so does the time of day. -/
def exists? (m : Moment) : Bool :=
  1 ≤ m.year && 1 ≤ m.month && m.month ≤ 12 && 1 ≤ m.day && m.day ≤ daysIn m.year m.month &&
    (m.time.all fun (hour, minute, second, _) => hour ≤ 23 && minute ≤ 59 && second ≤ 59) &&
    (m.zone.all fun (_, minutes) => minutes < 1440)

/-- The point in time as text. -/
def text (m : Moment) : String :=
  let date := padded 4 m.year ++ "-" ++ padded 2 m.month ++ "-" ++ padded 2 m.day
  match m.time with
  | none => date
  | some (hour, minute, second, digits) =>
    let fraction := fractionOf digits
    let zone :=
      match m.zone with
      | none => ""
      | some (negative, minutes) =>
        (if negative && minutes != 0 then "-" else "+") ++ padded 2 (minutes / 60) ++ ":" ++
          padded 2 (minutes % 60)
    date ++ " " ++ padded 2 hour ++ ":" ++ padded 2 minute ++ ":" ++ padded 2 second ++
      (if fraction == 0 then "" else "." ++ padded 6 fraction) ++ zone

end Moment

/-- The point in time that a scalar writes. -/
def timeOf (s : String) : Except Problem Moment :=
  match moment? false s.toList with
  | none => .error .noTime
  | some m => if m.exists? then .ok m else .error .badNumber

end StoryRegistry.Yaml
