/-!
# Double-precision numbers, exactly

A finite double is a whole number of the smallest step `2 ^ -1074`, so the order and equality of
doubles are those of integers, and a whole number of any size can be compared with a double without
rounding either. Rounding happens in one place only, `Double.nearest`: to 53 significant bits, a tie
to the even neighbour, and to infinity from `2 ^ 1024` on.
-/

namespace FormRules

/-- A number in double precision. -/
inductive Double where
  /-- not a number -/
  | nan
  /-- an infinity and its sign -/
  | infinite (negative : Bool)
  /-- a sign and a count of steps of `2 ^ -1074` -/
  | finite (negative : Bool) (steps : Nat)
deriving DecidableEq, Repr, Inhabited

namespace Double

/-- The number of steps in one. -/
def one : Nat := Nat.pow 2 1074

/-- The number of steps at which infinity begins. -/
def limit : Nat := Nat.pow 2 2098

/-- The quotient rounded to a whole number, a tie to the even one. -/
def roundDiv (num den : Nat) : Nat :=
  let q := num / den
  let r := num % den
  if 2 * r < den then q else if den < 2 * r then q + 1 else q + q % 2

/-- The distance of neighbouring doubles near a count of steps: more than 53 bits cannot be told
apart. -/
def spacing (steps : Nat) : Nat := Nat.pow 2 (steps.log2 - 52)

/-- The double nearest to `num / den`, where `den` is positive. -/
def nearest (negative : Bool) (num den : Nat) : Double :=
  let scaled := num * one
  let gap := spacing (scaled / den)
  let steps := roundDiv scaled (den * gap) * gap
  if limit ≤ steps then infinite negative else finite negative steps

/-- The whole number `i` as it is, without rounding: for comparisons. -/
def exactly (i : Int) : Double := finite (i < 0) (i.natAbs * one)

/-- The double nearest to a whole number, if it is finite. -/
def ofInt? (i : Int) : Option Double :=
  match nearest (i < 0) i.natAbs 1 with
  | finite negative steps => some (finite negative steps)
  | _ => none

/-- The double nearest to `digits * 10 ^ exponent`, where `digits < 10 ^ width`. Exponents far out
of range are settled without computing the power. -/
def ofDecimal (negative : Bool) (digits width : Nat) (exponent : Int) : Double :=
  if digits = 0 then finite negative 0
  else if 400 < exponent then infinite negative
  else if exponent < -400 - width then finite negative 0
  else nearest negative (digits * Nat.pow 10 exponent.toNat) (Nat.pow 10 (-exponent).toNat)

/-- The signed count of steps of a finite number. -/
def signed (negative : Bool) (steps : Nat) : Int := if negative then -steps else steps

/-- The order of numbers; nothing is comparable with `nan`. -/
def le : Double → Double → Bool
  | nan, _ => false
  | _, nan => false
  | infinite true, _ => true
  | _, infinite false => true
  | infinite false, _ => false
  | _, infinite true => false
  | finite a m, finite b n => signed a m ≤ signed b n

/-- Equality as numbers: both zeros are equal, and `nan` is equal to nothing. -/
def equal (x y : Double) : Bool := le x y && le y x

/-- The sign turned round. -/
def neg : Double → Double
  | nan => nan
  | infinite s => infinite !s
  | finite s m => finite (!s) m

/-- The sign bit. -/
def isNegative : Double → Bool
  | nan => false
  | infinite s => s
  | finite s _ => s

/-- One of the two zeros. -/
def isZero : Double → Bool
  | finite _ m => m == 0
  | _ => false

/-- The sum, rounded. -/
def add : Double → Double → Double
  | nan, _ => nan
  | _, nan => nan
  | infinite s, infinite t => if s = t then infinite s else nan
  | infinite s, _ => infinite s
  | _, infinite t => infinite t
  | finite a m, finite b n =>
    let total := signed a m + signed b n
    if total = 0 then finite (a && b) 0 else nearest (total < 0) total.natAbs one

/-- The product, rounded. -/
def mul : Double → Double → Double
  | nan, _ => nan
  | _, nan => nan
  | infinite s, y => if y.isZero then nan else infinite (s != y.isNegative)
  | x, infinite t => if x.isZero then nan else infinite (x.isNegative != t)
  | finite a m, finite b n => nearest (a != b) (m * n) (one * one)

/-- The whole part of a finite number. -/
def truncated (negative : Bool) (steps : Nat) : Int := signed negative (steps / one)

@[simp] theorem le_nan_left (x : Double) : le nan x = false := by cases x <;> rfl

theorem finite_le_finite (a b : Bool) (m n : Nat) :
    le (finite a m) (finite b n) = decide (signed a m ≤ signed b n) := rfl

end Double

end FormRules
