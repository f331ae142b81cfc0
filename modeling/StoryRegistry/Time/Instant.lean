import StoryRegistry.Time.Calendar

/-!
# Points in time

A point in time is a date, a time of the day and, if it is known, the time zone. Without a zone it
is taken as universal time. It is read from the common forms of the international standard: dates
by month or by week, with or without hyphens, any character between date and time, and times cut
short after the hours or the minutes.
-/

set_option autoImplicit false

namespace StoryRegistry

/-- A point in time. -/
structure Instant where
  year : Nat
  month : Nat
  day : Nat
  hour : Nat
  minute : Nat
  second : Nat
  /-- Millionths of a second. -/
  micro : Nat
  /-- How far the clock is ahead of universal time, in millionths of a second. -/
  ahead : Option Int
deriving DecidableEq, Inhabited

namespace Instant

/-! ## Reading -/

/-- The number that the first `count` characters write, and what follows. -/
def digits? : Nat → Nat → List Char → Option (Nat × List Char)
  | 0, value, s => some (value, s)
  | _ + 1, _, [] => none
  | count + 1, value, c :: rest =>
    if c.isDigit then digits? count (value * 10 + (c.toNat - 48)) rest else none

/-- A number of the given length. -/
def number? (count : Nat) (s : List Char) : Option (Nat × List Char) := digits? count 0 s

/-- How many characters the date takes up. -/
def dateLength? (s : List Char) : Option Nat :=
  let at? (i : Nat) : Option Char := s[i]?
  if s.length == 7 then some 7
  else if at? 4 == some '-' then
    if at? 5 == some 'W' then
      if at? 8 == some '-' then
        if s.length == 9 then none
        else if (at? 10).any Char.isDigit then some 8
        else some 10
      else some 8
    else some 10
  else if at? 4 == some 'W' then
    let stop := 7 + ((s.drop 7).takeWhile Char.isDigit).length
    if stop < 9 then some stop else if stop % 2 == 0 then some 7 else some 8
  else some 8

/-- What follows a hyphen, if there has to be one. -/
def afterHyphen? (needed : Bool) (s : List Char) : Option (List Char) :=
  if needed then
    match s with
    | '-' :: rest => some rest
    | _ => none
  else some s

/-- The date in a text of that length. -/
def date? (length : Nat) (s : List Char) : Option (Nat × Nat × Nat) := do
  let (year, rest) ← number? 4 s
  let hyphens := rest.head? == some '-'
  let rest ← afterHyphen? hyphens rest
  match rest with
  | 'W' :: rest =>
    let (week, rest) ← number? 2 rest
    if s.length - rest.length < length then
      let (day, _) ← number? 1 (← afterHyphen? hyphens rest)
      Calendar.dateOfWeek? year week day
    else Calendar.dateOfWeek? year week 1
  | rest =>
    let (month, rest) ← number? 2 rest
    let (day, _) ← number? 2 (← afterHyphen? hyphens rest)
    some (year, month, day)

/-- A time of the day: hour, minute, second and millionths. -/
abbrev Clock := Nat × Nat × Nat × Nat

/-- The hour, minute or second of a time set to a number. -/
def setPart (time : Clock) (part value : Nat) : Clock :=
  let (hour, minute, second, micro) := time
  match part with
  | 0 => (value, minute, second, micro)
  | 1 => (hour, value, second, micro)
  | _ => (hour, minute, value, micro)

/-- The time with its fraction read from the `left` characters at the front; the second part tells
that something else follows. -/
def withFraction? (time : Clock) (left : Nat) (s : List Char) : Option (Clock × Bool) := do
  let count := min 6 left
  let (value, rest) ← number? count s
  let (hour, minute, second, _) := time
  let rest := rest.dropWhile Char.isDigit
  some ((hour, minute, second, value * Nat.pow 10 (6 - count)), rest.head?.any (· != '\x00'))

/-- Reads hours, minutes and seconds from part `part` on, of which `more` are left; `left` characters
belong to the time, and `colons` tells that colons stand between the parts. The second part of the
result tells that something else follows. -/
def clockFrom? : Nat → Nat → Bool → Clock → Int → List Char → Option (Clock × Bool)
  | 0, _, _, time, left, s => withFraction? time left.toNat s
  | more + 1, part, colons, time, left, s => do
    let (value, rest) ← number? 2 s
    let time := setPart time part value
    let c := rest.headD '\x00'
    let left := left - 3
    let colons := if part == 0 then c == ':' else colons
    if left ≤ 0 then some (time, c != '\x00')
    else if colons && c == ':' then clockFrom? more (part + 1) colons time left rest.tail
    else if c == '.' || c == ',' then withFraction? time left.toNat rest.tail
    else if colons then none
    else clockFrom? more (part + 1) colons time (left + 1) rest

/-- The time of the day in the first `length` characters; the second part of the result tells that
something else follows. -/
def clock? (length : Nat) (s : List Char) : Option (Clock × Bool) :=
  clockFrom? 3 0 true (0, 0, 0, 0) length s

/-- A character that begins a time zone. -/
def beginsZone (c : Char) : Bool := c == '+' || c == '-' || c == 'Z'

/-- The microseconds of a time of the day. -/
def microsOf (time : Clock) : Int :=
  let (hour, minute, second, micro) := time
  (((hour * 60 + minute) * 60 + second) * 1000000 + micro : Nat)

/-- The time zone in a text, as the time by which its clock is ahead. -/
def zone? (s : List Char) : Option Int :=
  match s with
  | ['Z'] => some 0
  | sign :: rest =>
    if sign == 'Z' then none
    else
      match clock? rest.length rest with
      | some (time, false) =>
        let (hour, minute, second, _) := time
        let size := if hour == 0 && minute == 0 && second == 0 then 0 else microsOf time
        some (if sign == '-' then -size else size)
      | _ => none
  | [] => none

/-- The time of the day and the time zone in a text. -/
def timeAndZone? (s : List Char) : Option (Clock × Option Int) := do
  let length := (s.takeWhile fun c => !beginsZone c).length
  let (time, more) ← clock? length s
  if length == s.length then
    if more then none else some (time, none)
  else
    let ahead ← zone? (s.drop length)
    some (time, some ahead)

/-- The millionths of a second in a day. -/
def dayMicros : Int := 86400000000

/-- There is such a point in time. -/
def isValid (i : Instant) : Bool :=
  Calendar.isDate i.year i.month i.day && i.hour < 24 && i.minute < 60 && i.second < 60 &&
    i.ahead.all fun ahead => -dayMicros < ahead && ahead < dayMicros

/-- The point in time that a text writes. -/
def ofString? (text : String) : Option Instant := do
  let s := text.toList
  if s.length < 7 then none
  let length ← dateLength? s
  let (year, month, day) ← date? length s
  let instant ←
    match s.drop length with
    | [] => some (⟨year, month, day, 0, 0, 0, 0, none⟩ : Instant)
    | _ :: rest => do
      let ((hour, minute, second, micro), ahead) ← timeAndZone? rest
      some ⟨year, month, day, hour, minute, second, micro, ahead⟩
  if instant.isValid then some instant else none

/-! ## Comparing and writing -/

/-- The number of the day on which time starts to be counted. -/
def epochDay : Int := Calendar.dayNumber 1970 1 1

/-- The millionths of a second since the beginning of 1970. A point in time without a zone needs a
day before it in the calendar; the very first day has none. -/
def micros? (i : Instant) : Option Int :=
  let day : Int := Calendar.dayNumber i.year i.month i.day
  if i.ahead.isNone && day ≤ 1 then none
  else
    some ((day - epochDay) * dayMicros + microsOf (i.hour, i.minute, i.second, i.micro)
      - i.ahead.getD 0)

/-- A number with at least `width` digits. -/
def padded (width n : Nat) : String :=
  let digits := toString n
  String.ofList (List.replicate (width - digits.length) '0') ++ digits

/-- The text of a number of millionths, nothing for nought. -/
def fractionText (micro : Nat) : String := if micro == 0 then "" else "." ++ padded 6 micro

/-- The text of a time zone. -/
def zoneText (ahead : Int) : String :=
  let size := ahead.natAbs
  let seconds := size / 1000000
  let rest := seconds % 60
  let fraction := fractionText (size % 1000000)
  (if ahead < 0 then "-" else "+") ++ padded 2 (seconds / 3600) ++ ":" ++ padded 2 (seconds / 60 % 60) ++
    (if rest == 0 && fraction.isEmpty then "" else ":" ++ padded 2 rest ++ fraction)

/-- The text of a point in time. -/
def text (i : Instant) : String :=
  padded 4 i.year ++ "-" ++ padded 2 i.month ++ "-" ++ padded 2 i.day ++ "T" ++ padded 2 i.hour ++ ":" ++
    padded 2 i.minute ++ ":" ++ padded 2 i.second ++ fractionText i.micro ++
    (i.ahead.map zoneText).getD ""

end Instant

end StoryRegistry
