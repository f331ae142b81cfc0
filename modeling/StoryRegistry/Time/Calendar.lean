/-!
# The calendar

Days are counted from the first day of the year one, which is day one and a Monday. Weeks begin on
Monday, and the first week of a year is the one that holds its first Thursday.
-/

set_option autoImplicit false

namespace StoryRegistry.Calendar

/-- The last year that dates can have. -/
def lastYear : Nat := 9999

/-- The year has a day more than others. -/
def isLeap (year : Nat) : Bool := year % 4 == 0 && (year % 100 != 0 || year % 400 == 0)

/-- The lengths of the months of a year. -/
def months (year : Nat) : List Nat :=
  [31, if isLeap year then 29 else 28, 31, 30, 31, 30, 31, 31, 30, 31, 30, 31]

/-- The number of days in a month. -/
def daysIn (year month : Nat) : Nat := (months year).getD (month - 1) 0

/-- The number of days before a year. -/
def daysBefore (year : Nat) : Nat :=
  let y := year - 1
  y * 365 + y / 4 - y / 100 + y / 400

/-- The number of a day. -/
def dayNumber (year month day : Nat) : Nat :=
  daysBefore year + ((months year).take (month - 1)).foldr (· + ·) 0 + day

/-- There is such a date. -/
def isDate (year month day : Nat) : Bool :=
  1 ≤ year && year ≤ lastYear && 1 ≤ month && month ≤ 12 && 1 ≤ day && day ≤ daysIn year month

/-- The month and the day of a month that a number of days into a year leads to; `month` is the
month that the first of the lengths belongs to. -/
def monthAndDay (month : Nat) : List Nat → Nat → Nat × Nat
  | [], day => (month, day)
  | length :: rest, day =>
    if day ≤ length || rest.isEmpty then (month, day) else monthAndDay (month + 1) rest (day - length)

/-- The date with a number, which lies in the given year or in the one before or after it. -/
def dateNear (year number : Nat) : Nat × Nat × Nat :=
  let year :=
    if number ≤ daysBefore year then year - 1
    else if daysBefore (year + 1) < number then year + 1
    else year
  (year, monthAndDay 1 (months year) (number - daysBefore year))

/-- The day of the week on which a year begins, Monday being nought. -/
def firstWeekday (year : Nat) : Nat := (dayNumber year 1 1 + 6) % 7

/-- The number of weeks of a year. -/
def weeksIn (year : Nat) : Nat :=
  if firstWeekday year == 3 || (firstWeekday year == 2 && isLeap year) then 53 else 52

/-- The day of a week of a year, Monday being one. -/
def dateOfWeek? (year week day : Nat) : Option (Nat × Nat × Nat) :=
  if 1 ≤ year && year ≤ lastYear && 1 ≤ week && week ≤ weeksIn year && 1 ≤ day && day ≤ 7 then
    let first := firstWeekday year
    let start := dayNumber year 1 1
    let monday := if first ≤ 3 then start - first else start + (7 - first)
    some (dateNear year (monday + (week - 1) * 7 + (day - 1)))
  else none

end StoryRegistry.Calendar
