import FormRules.Calendar.Date
import FormRules.Text.Digit
import FormRules.Text.Utf8

/-!
# Reading ISO texts

A day is written `YYYY-MM-DD`, `YYYYMMDD`, or by its ISO week, with or without dashes; a moment is a
day, any one character, and a time with an optional distance from universal time. The readers work
on the bytes of the text, and a byte past the end reads as 0, as does a NUL.

The reader of times is deliberately lax in three places: a fraction may follow any field, a colon
may stand for the point of the fraction, and one stray character is passed over before the distance
from universal time.
-/

namespace FormRules.Iso

open Text

/-- An ASCII digit. -/
def isDigitByte (b : Nat) : Bool := 48 ≤ b && b ≤ 57

/-- The number that exactly `n` digits write, and the bytes after them. -/
def number? (n : Nat) (b : List Nat) : Option (Nat × List Nat) :=
  let digits := b.take n
  if digits.length = n && digits.all isDigitByte then
    some (valueOf 10 (digits.map (· - 48)), b.drop n)
  else none

/-- The bytes after a dash, which must be there if dashes are used at all. -/
def dash? (used : Bool) (b : List Nat) : Option (List Nat) :=
  if used then if b.headD 0 == 45 then some (b.drop 1) else none else some b

/-- The day at the start of the bytes, whose text is `len` bytes long. -/
def day? (len : Nat) (b : List Nat) : Option Date := do
  let (year, b) ← number? 4 b
  let dashed := b.headD 0 == 45
  let b := if dashed then b.drop 1 else b
  if b.headD 0 == 87 then
    let (week, b) ← number? 2 (b.drop 1)
    if (if dashed then 8 else 7) < len then
      let (day, _) ← number? 1 (← dash? dashed b)
      Date.ofIsoWeek? year week day
    else Date.ofIsoWeek? year week 1
  else
    let (month, b) ← number? 2 b
    let (day, _) ← number? 2 (← dash? dashed b)
    Date.of? year month day

/-- The day that a text writes; its length in bytes must be that of one of the forms. -/
def date? (b : List Nat) : Option Date :=
  if b.length = 7 || b.length = 8 || b.length = 10 then day? b.length b else none

/-- The length of the day in front of a moment. After a week, a digit two places after a dash shows
that the dash separates; without dashes, times come in pairs of digits, so the number of digits
tells a week from a week with its day. -/
def dayLength? (b : List Nat) : Option Nat :=
  let at? (i : Nat) : Nat := b.getD i 0
  if b.length = 7 then some 7
  else if at? 4 == 45 then
    if at? 5 == 87 then
      if b.length < 8 then none
      else if 8 < b.length && at? 8 == 45 then
        if b.length = 9 then none
        else if 10 < b.length && isDigitByte (at? 10) then some 8
        else some 10
      else some 8
    else some 10
  else if at? 4 == 87 then
    let stop := 7 + ((b.drop 7).takeWhile isDigitByte).length
    if stop < 9 then some stop else if stop % 2 == 0 then some 7 else some 8
  else some 8

/-- The number of bytes of the character that starts with a byte. -/
def charLength (b : Nat) : Nat :=
  if b < 128 then 1 else if 0xe0 ≤ b && b < 0xf0 then 3 else if 0xf0 ≤ b then 4 else 2

/-- What follows the fields of a time: nothing that matters, and then whether the text ended there,
or a fraction. -/
inductive Ending where
  /-- the fields reach to the end of the time -/
  | stop (clean : Bool)
  /-- a fraction begins -/
  | fraction (rest : List Nat)

/-- Up to `n` fields of two digits, of which the last `tail` bytes are no part. The first field
settles whether colons separate the fields. -/
def fields? (tail : Nat) : Nat → Option Bool → List Nat → Option (List Nat × Ending)
  | 0, _, b => some ([], .fraction b)
  | n + 1, colons, b => do
    let (v, b) ← number? 2 b
    let c := b.headD 0
    let colons := colons.getD (c == 58)
    if b.length ≤ tail + 1 then return ([v], .stop (c == 0))
    else if colons && c == 58 then
      let (vs, ending) ← fields? tail n (some colons) (b.drop 1)
      return (v :: vs, ending)
    else if c == 46 || c == 44 then return ([v], .fraction (b.drop 1))
    else if !colons then
      let (vs, ending) ← fields? tail n (some colons) b
      return (v :: vs, ending)
    else none

/-- A time, of which the last `tail` bytes are no part, and whether the text ends with it. Of a
fraction six digits count. -/
def clock? (tail : Nat) (b : List Nat) : Option (Clock × Bool) := do
  let (vs, ending) ← fields? tail 3 none b
  let (micro, clean) ← match ending with
    | .stop clean => some (0, clean)
    | .fraction rest => do
      let width := min 6 (rest.length - tail)
      let (n, rest) ← number? width rest
      pure (n * Nat.pow 10 (6 - width), (rest.dropWhile isDigitByte).headD 0 == 0)
  return (⟨vs.getD 0 0, vs.getD 1 0, vs.getD 2 0, micro⟩, clean)

/-- A sign or letter that begins a distance from universal time. -/
def isZoneStart (b : Nat) : Bool := b == 43 || b == 45 || b == 90

/-- A time with an optional distance from universal time, which is below a day. -/
def zoned? (b : List Nat) : Option (Clock × Option Int) := do
  let zone := b.dropWhile fun x => !isZoneStart x
  let (time, clean) ← clock? zone.length b
  match zone with
  | [] => if clean then some (time, none) else none
  | z :: rest =>
    if z == 90 then if rest.headD 0 == 0 then some (time, some 0) else none
    else
      let (far, clean) ← clock? 0 rest
      let seconds := far.hour * 3600 + far.minute * 60 + far.second
      if clean && seconds < 86400 then
        some (time, some (if z == 45 then -(seconds : Int) else seconds))
      else none

/-- The moment that a text writes: a day, and then nothing, or one character and a time. -/
def moment? (b : List Nat) : Option Moment := do
  let len ← dayLength? b
  let date ← day? len b
  if b.length ≤ len then return ⟨date, ⟨0, 0, 0, 0⟩, none⟩
  else
    let (clock, ahead) ← zoned? (b.drop (len + charLength (b.getD len 0)))
    if clock.Valid then some ⟨date, clock, ahead⟩ else none

/-- The day of a text that writes a day or a moment. -/
def dayOf? (s : List Char) : Option Date :=
  let b := utf8 s
  match date? b with
  | some d => some d
  | none => (moment? b).map Moment.date

end FormRules.Iso
