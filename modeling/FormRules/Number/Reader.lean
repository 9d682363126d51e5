import FormRules.Number.Double
import FormRules.Text.Blank
import FormRules.Text.Digit

/-!
# Reading numbers

Two readers. `Double.ofText?` reads a decimal number: surrounding white space, a sign, digits of any
script with single underscores between them, a fraction, an exponent, or the name of an infinity or
of `nan` in any case. `readInt?` reads a whole number in a given base.
-/

namespace FormRules

open Text

/-- The ASCII digit of a decimal digit of any script; other characters as they are. -/
def plainDigit (c : Char) : Char :=
  match decimalValue? c with
  | some d => Char.ofNat (48 + d)
  | none => c

/-- The text without its underscores, each of which must stand between two ASCII digits; the first
argument tells whether a digit comes just before. -/
def dropUnderscores : Bool → List Char → Option (List Char)
  | _, [] => some []
  | digit, '_' :: c :: s =>
    if digit && isAsciiDigit c then (dropUnderscores true s).map (c :: ·) else none
  | _, c :: s =>
    if c = '_' then none else (dropUnderscores (isAsciiDigit c) s).map (c :: ·)

/-- The place values of the leading ASCII digits, and the rest. -/
def spanDigits (s : List Char) : List Nat × List Char :=
  ((s.takeWhile isAsciiDigit).map fun c => c.toNat - 48, s.dropWhile isAsciiDigit)

/-- A sign that may be missing: whether it is a minus, and the rest. -/
def spanSign : List Char → Bool × List Char
  | '-' :: s => (true, s)
  | '+' :: s => (false, s)
  | s => (false, s)

/-- The exponent part of a number, which has to fill the text: its value, or nothing if the text is
no exponent. -/
def exponent? : List Char → Option Int
  | [] => some 0
  | c :: s =>
    if c = 'e' || c = 'E' then
      let (negative, s) := spanSign s
      match spanDigits s with
      | (d :: ds, []) =>
        let n := valueOf 10 (d :: ds)
        some (if negative then -n else n)
      | _ => none
    else none

/-- An unsigned decimal: digits, perhaps a point and digits, at least one digit in all, and perhaps
an exponent. -/
def unsigned? (negative : Bool) (s : List Char) : Option Double :=
  let (whole, rest) := spanDigits s
  let (fraction, rest) :=
    match rest with
    | '.' :: r => spanDigits r
    | r => ([], r)
  let digits := whole ++ fraction
  if digits.isEmpty then none
  else (exponent? rest).map fun e =>
    Double.ofDecimal negative (valueOf 10 digits) digits.length (e - fraction.length)

/-- The number that a text of ASCII characters spells. -/
def Double.ofPlain? (s : List Char) : Option Double :=
  let (negative, s) := spanSign s
  let name := s.map Char.toLower
  if name = ['i', 'n', 'f'] || name = ['i', 'n', 'f', 'i', 'n', 'i', 't', 'y'] then
    some (.infinite negative)
  else if name = ['n', 'a', 'n'] then some .nan
  else unsigned? negative s

/-- The number that a text spells. -/
def Double.ofText? (s : List Char) : Option Double :=
  (dropUnderscores false ((trim s).map plainDigit)).bind Double.ofPlain?

/-- The greatest number of digits with which a whole number is read or written in a base that is no
power of two. -/
def maxDigits : Nat := 4300

/-- The place value of a digit or letter. -/
def digitValue? (c : Char) : Option Nat :=
  match decimalValue? c with
  | some d => some d
  | none =>
    if 'a' ≤ c && c ≤ 'z' then some (c.toNat - 87)
    else if 'A' ≤ c && c ≤ 'Z' then some (c.toNat - 55)
    else none

/-- The letter that may announce a base after a zero. -/
def baseMark (base : Nat) : Option Char :=
  if base = 2 then some 'b' else if base = 8 then some 'o' else if base = 16 then some 'x' else none

/-- The text without the zero and letter that announce its base. -/
def dropBaseMark (base : Nat) : List Char → List Char
  | '0' :: m :: s => if baseMark base = some m.toLower then s else '0' :: m :: s
  | s => s

/-- The whole number that a text spells in base 2, 8, 10 or 16: white space around it, a sign, the
mark of the base, and at least one digit. -/
def readInt? (base : Nat) (s : List Char) : Option Int :=
  let (negative, s) := spanSign (trim s)
  match (dropBaseMark base s).mapM digitValue? with
  | none => none
  | some digits =>
    if digits.isEmpty || digits.any (base ≤ ·) || (base = 10 && maxDigits < digits.length) then none
    else
      let n := valueOf base digits
      some (if negative then -n else n)

end FormRules
