import FormRules.Calendar.Date
import FormRules.Number.Reader

/-!
# Timestamps

A timestamp is a day, perhaps with a time after it, and then perhaps with a distance from universal
time. Unlike an ISO text it may leave out leading zeros, and any spaces and tabs may stand before
the time and the distance.
-/

namespace FormRules.Yaml

open Text

/-- The parts of a timestamp, as numbers. -/
structure Timestamp where
  year : Nat
  month : Nat
  day : Nat
  /-- month and day have two digits each -/
  padded : Bool
  /-- the time, and the seconds ahead of universal time -/
  time : Option (Clock × Option Int)
deriving Repr

namespace Timestamp

/-- The digits at the start of a text, which must be between `least` and `most` in number, and the
rest. -/
def digits? (least most : Nat) (s : List Char) : Option (List Nat × List Char) :=
  let (digits, rest) := spanDigits s
  if least ≤ digits.length && digits.length ≤ most then some (digits, rest) else none

/-- The rest of a text that starts with a character. -/
def after? (c : Char) : List Char → Option (List Char)
  | d :: s => if c = d then some s else none
  | [] => none

/-- A space or a tab. -/
def isSeparator (c : Char) : Bool := c == ' ' || c == '\t'

/-- The microseconds that the digits of a fraction write; six digits count. -/
def micro (digits : List Nat) : Nat :=
  valueOf 10 ((digits ++ List.replicate 6 0).take 6)

/-- The distance from universal time that fills a text. -/
def ahead? (s : List Char) : Option Int :=
  match s with
  | ['Z'] => some 0
  | sign :: s =>
    if sign = '+' || sign = '-' then do
      let (hours, s) ← digits? 1 2 s
      let minutes ←
        if s.isEmpty then some 0
        else do
          let (minutes, s) ← digits? 2 2 (← after? ':' s)
          if s.isEmpty then some (valueOf 10 minutes) else none
      let seconds : Int := ((valueOf 10 hours * 60 + minutes) * 60 : Nat)
      return if sign = '-' then -seconds else seconds
    else none
  | [] => none

/-- The time that fills a text, and the distance from universal time. -/
def time? (s : List Char) : Option (Clock × Option Int) := do
  let (hour, s) ← digits? 1 2 s
  let (minute, s) ← digits? 2 2 (← after? ':' s)
  let (second, s) ← digits? 2 2 (← after? ':' s)
  let (fraction, s) := match s with
    | '.' :: s => spanDigits s
    | s => ([], s)
  let clock : Clock :=
    ⟨valueOf 10 hour, valueOf 10 minute, valueOf 10 second, micro fraction⟩
  if s.isEmpty then return (clock, none)
  else return (clock, some (← ahead? (s.dropWhile isSeparator)))

/-- The timestamp that fills a text. -/
def read? (s : List Char) : Option Timestamp := do
  let (year, s) ← digits? 4 4 s
  let (month, s) ← digits? 1 2 (← after? '-' s)
  let (day, s) ← digits? 1 2 (← after? '-' s)
  let padded := month.length = 2 && day.length = 2
  let stamp (time : Option (Clock × Option Int)) : Timestamp :=
    ⟨valueOf 10 year, valueOf 10 month, valueOf 10 day, padded, time⟩
  match s with
  | [] => return stamp none
  | c :: r =>
    if c = 'T' || c = 't' then return stamp (some (← time? r))
    else if isSeparator c then return stamp (some (← time? (r.dropWhile isSeparator)))
    else none

end Timestamp

end FormRules.Yaml
