import FormRules.Number.Double

/-!
# The shortest decimal text of a double

A double is written with the fewest digits that read back as the same double, and with the nearest
such digits where several are equally few. `Layout` fixes what remains to be chosen: from which
exponents on the text is in scientific form.
-/

namespace FormRules.Double

/-- How many decimal digits a positive number has; the first argument bounds the count. -/
def digitCount : Nat → Nat → Nat
  | 0, _ => 0
  | fuel + 1, n => if n = 0 then 0 else digitCount fuel (n / 10) + 1

/-- The decimal digits of a number, the last one first. -/
def digitsRev : Nat → Nat → List Nat
  | 0, _ => []
  | fuel + 1, n => if n = 0 then [] else n % 10 :: digitsRev fuel (n / 10)

/-- The exponent of the leading decimal digit of a positive count of steps. -/
def leading (steps : Nat) : Int :=
  (digitCount 800 (steps * Nat.pow 10 400 / one) : Int) - 401

/-- The distance from a count of steps to the next double below it: half the spacing at a power of
two. -/
def spacingBelow (steps : Nat) : Nat :=
  let gap := spacing steps
  if gap != 1 && steps == Nat.pow 2 52 * gap then gap / 2 else gap

/-- The grid point with last digit at `10 ^ unit` that reads back as the count of steps and is
nearest to it, if there is one. -/
def onGrid? (steps : Nat) (unit : Int) : Option Nat :=
  let a := one * Nat.pow 10 unit.toNat
  let b := Nat.pow 10 (-unit).toNat
  let low := steps * b / a
  let down := steps * b - low * a
  let up := (low + 1) * a - steps * b
  let even := steps / spacing steps % 2 == 0
  let inside (distance gap : Nat) : Bool :=
    2 * distance < gap * b || (even && 2 * distance == gap * b)
  match inside down (spacingBelow steps), inside up (spacing steps) with
  | true, true =>
    if down < up then some low
    else if up < down then some (low + 1)
    else some (low + low % 2)
  | true, false => some low
  | false, true => some (low + 1)
  | false, false => none

/-- The first of the grids with ever more digits that has a point reading back as the count of
steps. The result is the point and the exponent of its last digit. -/
def shortestFrom (steps : Nat) (lead : Int) : Nat → Nat → Nat × Int
  | 0, width => (steps * Nat.pow 10 (width - lead - 1).toNat / one, lead - width + 1)
  | fuel + 1, width =>
    let unit := lead - width + 1
    match onGrid? steps unit with
    | some n => (n, unit)
    | none => shortestFrom steps lead fuel (width + 1)

/-- The fewest digits of a positive count of steps, without trailing zeros, and the exponent of the
first of them. -/
def shortest (steps : Nat) : List Nat × Int :=
  let (n, unit) := shortestFrom steps (leading steps) 17 1
  let rev := digitsRev 400 n
  ((rev.dropWhile (· == 0)).reverse, unit + rev.length - 1)

/-- The choices of a decimal text: scientific form is used below the exponent `low` and from the
exponent `high` on, and its exponent has at least `width` digits. -/
structure Layout where
  low : Int
  high : Int
  width : Nat

/-- Numbers are positional from `0.0001` to below `10 ^ 16`, and an exponent has two digits. -/
def layout : Layout := ⟨-4, 16, 2⟩

/-- The character of a digit. -/
def digitChar (d : Nat) : Char := Char.ofNat (48 + d)

/-- A number in decimal with at least `width` digits. -/
def padded (width n : Nat) : List Char :=
  let s := (toString n).toList
  List.replicate (width - s.length) '0' ++ s

/-- Positional form: the point after the digit of exponent zero, and a digit on both sides of it. -/
def positional (digits : List Char) (lead : Int) : List Char :=
  if lead < 0 then '0' :: '.' :: (List.replicate (-lead - 1).toNat '0' ++ digits)
  else
    let whole := digits.take (lead.toNat + 1)
    let rest := digits.drop (lead.toNat + 1)
    whole ++ List.replicate (lead.toNat + 1 - digits.length) '0' ++
      '.' :: if rest.isEmpty then ['0'] else rest

/-- Scientific form: one digit, a point if more follow, and the signed exponent. -/
def scientific (width : Nat) (digits : List Char) (lead : Int) : List Char :=
  digits.take 1 ++ (if digits.length ≤ 1 then [] else '.' :: digits.drop 1) ++
    'e' :: (if lead < 0 then '-' else '+') :: padded width lead.natAbs

/-- The text of a count of steps. -/
def textOfSteps (l : Layout) (steps : Nat) : List Char :=
  if steps = 0 then positional ['0'] 0
  else
    let (digits, lead) := shortest steps
    let digits := digits.map digitChar
    if lead < l.low || l.high ≤ lead then scientific l.width digits lead else positional digits lead

/-- The text of a double. -/
def text : Double → String
  | nan => "nan"
  | infinite negative => if negative then "-inf" else "inf"
  | finite negative steps =>
    String.ofList ((if negative then ['-'] else []) ++ textOfSteps layout steps)

end FormRules.Double
