import FormRules.Number.Shortest

/-!
# Days and moments

Days of the calendar from year 1 to year 9999, the ISO numbering of weeks, and moments: a day, a
time of day, and perhaps a distance from universal time.
-/

namespace FormRules

/-- A day of the calendar. -/
structure Date where
  year : Nat
  month : Nat
  day : Nat
deriving DecidableEq, Repr, Inhabited

/-- A time of day. -/
structure Clock where
  hour : Nat
  minute : Nat
  second : Nat
  micro : Nat
deriving DecidableEq, Repr, Inhabited

/-- A day with a time of day, and the seconds by which it is ahead of universal time where these are
given. -/
structure Moment where
  date : Date
  clock : Clock
  ahead : Option Int
deriving DecidableEq, Repr, Inhabited

namespace Date

/-- A year with a 29th of February. -/
def isLeap (year : Nat) : Bool := year % 4 == 0 && (year % 100 != 0 || year % 400 == 0)

/-- The days of a month. -/
def daysInMonth (year month : Nat) : Nat :=
  if month = 2 then if isLeap year then 29 else 28
  else if month = 4 || month = 6 || month = 9 || month = 11 then 30
  else 31

/-- The days of a year. -/
def daysInYear (year : Nat) : Nat := if isLeap year then 366 else 365

/-- A day that exists. -/
def Valid (d : Date) : Prop :=
  1 ≤ d.year ∧ d.year ≤ 9999 ∧ 1 ≤ d.month ∧ d.month ≤ 12 ∧ 1 ≤ d.day ∧
    d.day ≤ daysInMonth d.year d.month

instance (d : Date) : Decidable d.Valid := by unfold Valid; infer_instance

/-- The day with the given numbers, if it exists. -/
def of? (year month day : Nat) : Option Date :=
  let d : Date := ⟨year, month, day⟩
  if d.Valid then some d else none

/-- The order of days. -/
def lt (a b : Date) : Bool :=
  a.year < b.year ||
    (a.year == b.year && (a.month < b.month || (a.month == b.month && a.day < b.day)))

/-- The days before the first of January of a year, counted from year 1. -/
def daysBefore (year : Nat) : Nat :=
  let y := year - 1
  y * 365 + y / 4 - y / 100 + y / 400

/-- The weekday of the first of January, Monday being 0. -/
def firstWeekday (year : Nat) : Nat := daysBefore year % 7

/-- A year with an ISO week 53. -/
def hasWeek53 (year : Nat) : Bool :=
  firstWeekday year == 3 || (firstWeekday year == 2 && isLeap year)

/-- Month and day of the `n`-th day of a year, counted from 0; the list holds the months left. -/
def monthDay (year n : Nat) : List Nat → Nat × Nat
  | [] => (12, n + 1)
  | m :: ms =>
    if n < daysInMonth year m then (m, n + 1) else monthDay year (n - daysInMonth year m) ms

/-- The `n`-th day of a year, counted from 0. -/
def ofDayOfYear? (year n : Nat) : Option Date :=
  let (month, day) := monthDay year n [1, 2, 3, 4, 5, 6, 7, 8, 9, 10, 11]
  of? year month day

/-- The given day, Monday being 1, of an ISO week. Week 1 is the week of the first Thursday, so a
week may begin in the year before and end in the year after. -/
def ofIsoWeek? (year week day : Nat) : Option Date :=
  if year = 0 || week = 0 || 53 < week || (week = 53 && !hasWeek53 year) || day = 0 || 7 < day then
    none
  else
    let first := firstWeekday year
    let ahead := (week - 1) * 7 + (day - 1) + if first ≤ 3 then 0 else 7
    if ahead < first then ofDayOfYear? (year - 1) (daysInYear (year - 1) + ahead - first)
    else if ahead - first < daysInYear year then ofDayOfYear? year (ahead - first)
    else ofDayOfYear? (year + 1) (ahead - first - daysInYear year)

open Double (padded)

/-- The day as `YYYY-MM-DD`. -/
def iso (d : Date) : List Char :=
  padded 4 d.year ++ '-' :: padded 2 d.month ++ '-' :: padded 2 d.day

end Date

open Double (padded)

namespace Clock

/-- A time of day that exists. -/
def Valid (t : Clock) : Prop := t.hour < 24 ∧ t.minute < 60 ∧ t.second < 60 ∧ t.micro < 1000000

instance (t : Clock) : Decidable t.Valid := by unfold Valid; infer_instance

/-- The time as `HH:MM:SS`, with six digits of a fraction if there is one. -/
def iso (t : Clock) : List Char :=
  padded 2 t.hour ++ ':' :: padded 2 t.minute ++ ':' :: padded 2 t.second ++
    if t.micro = 0 then [] else '.' :: padded 6 t.micro

end Clock

namespace Moment

/-- A distance from universal time as `+HH:MM`, with seconds if there are any. -/
def aheadText (seconds : Int) : List Char :=
  let n := seconds.natAbs
  (if seconds < 0 then '-' else '+') :: padded 2 (n / 3600) ++ ':' :: padded 2 (n / 60 % 60) ++
    if n % 60 = 0 then [] else ':' :: padded 2 (n % 60)

/-- The moment as day, separator, time and distance. -/
def iso (separator : Char) (m : Moment) : List Char :=
  m.date.iso ++ separator :: m.clock.iso ++ match m.ahead with
    | some seconds => aheadText seconds
    | none => []

/-- The microseconds of a moment from the start of the calendar, in universal time if the distance
is known. -/
def instant (m : Moment) : Int :=
  let days := Date.daysBefore m.date.year + m.date.day +
    ((List.range m.date.month).drop 1).foldl (fun n k => n + Date.daysInMonth m.date.year k) 0
  let seconds : Int :=
    days * 86400 + m.clock.hour * 3600 + m.clock.minute * 60 + m.clock.second - m.ahead.getD 0
  seconds * 1000000 + m.clock.micro

end Moment

end FormRules
