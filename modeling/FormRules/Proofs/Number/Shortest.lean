import FormRules.Proofs.Number.Interval
import FormRules.Text.Digit
import Mathlib.Algebra.Order.Field.Power
import Mathlib.Data.Nat.Digits.Lemmas

/-!
# The shortest decimal text of a double

The digits of a double are those of a point in its interval (`Double.shortest_roundsTo`): seventeen
digits are always enough, so the search for the fewest ends at such a point
(`Double.roundsTo_of_shortestFrom`).
-/

namespace FormRules.Double

/-! ## Points of a grid -/

/-- A power of ten as a fraction of natural numbers. -/
theorem ten_zpow_eq (e : Int) :
    (10 : ℚ) ^ e = (Nat.pow 10 e.toNat : Nat) / (Nat.pow 10 (-e).toNat : Nat) := by
  rcases le_total 0 e with he | he
  · obtain ⟨n, rfl⟩ := Int.eq_ofNat_of_zero_le he
    simp
  · obtain ⟨n, hn⟩ := Int.eq_ofNat_of_zero_le (neg_nonneg.mpr he)
    obtain rfl : e = -n := by omega
    simp

/-- The distance of the points of a grid, in parts of a step (`Double.parts`). -/
def gridGap (unit : Int) : Nat := one * Nat.pow 10 unit.toNat

/-- The parts that a step is divided into, so that the points of a grid are at whole parts. -/
def parts (unit : Int) : Nat := Nat.pow 10 (-unit).toNat

/-- A point at a distance from a count of steps is in the interval, half of which is wide as a
gap. -/
def Inside (steps : Nat) (unit : Int) (distance gap : Nat) : Prop :=
  2 * distance < gap * parts unit ∨ steps / spacing steps % 2 = 0 ∧ 2 * distance = gap * parts unit

section

variable {steps n : Nat} {unit : Int}

theorem parts_pos (unit : Int) : 0 < parts unit := Nat.pow_pos (by decide)

theorem gridGap_pos (unit : Int) : 0 < gridGap unit := Nat.mul_pos one_pos (Nat.pow_pos (by decide))

/-- The grid is made of multiples of a power of ten. -/
theorem gridGap_div_parts (unit : Int) : (gridGap unit / parts unit : ℚ) = 10 ^ unit * one := by
  rw [ten_zpow_eq, gridGap, parts]
  push_cast
  ring

/-- The point of a grid below a count of steps. -/
def gridBelow (steps : Nat) (unit : Int) : Nat := steps * parts unit / gridGap unit

/-- The distance of a count of steps from the point below. -/
def gridRest (steps : Nat) (unit : Int) : Nat := steps * parts unit % gridGap unit

/-- The test for a point of the grid in the interval. -/
def inside (steps : Nat) (unit : Int) (distance gap : Nat) : Bool :=
  2 * distance < gap * parts unit ||
    (steps / spacing steps % 2 == 0 && 2 * distance == gap * parts unit)

/-- Whether a point of the grid is inside can be computed. -/
theorem inside_iff {distance gap : Nat} :
    inside steps unit distance gap = true ↔ Inside steps unit distance gap := by
  simp [inside, Inside]

/-- The rest is the distance from the point of the grid below. -/
theorem gridRest_eq (steps : Nat) (unit : Int) :
    steps * parts unit - gridBelow steps unit * gridGap unit = gridRest steps unit :=
  Nat.sub_eq_of_eq_add (Nat.mod_add_div' _ _).symm

theorem gridRest_lt (steps : Nat) (unit : Int) : gridRest steps unit < gridGap unit :=
  Nat.mod_lt _ (gridGap_pos unit)

/-- What is missing from the rest is the distance from the next point of the grid. -/
theorem gridNext_eq (steps : Nat) (unit : Int) :
    (gridBelow steps unit + 1) * gridGap unit - steps * parts unit =
      gridGap unit - gridRest steps unit := by
  have hdown : gridRest steps unit + gridBelow steps unit * gridGap unit = steps * parts unit :=
    Nat.mod_add_div' _ _
  rw [Nat.succ_mul]
  omega

/-- A point of the grid is found if one of the two around the count of steps is inside, and it is
one of those. -/
theorem onGrid?_cases (steps : Nat) (unit : Int) :
    (onGrid? steps unit = none ∧ ¬Inside steps unit (gridRest steps unit) (spacingBelow steps) ∧
      ¬Inside steps unit (gridGap unit - gridRest steps unit) (spacing steps)) ∨
    (onGrid? steps unit = some (gridBelow steps unit) ∧
      Inside steps unit (gridRest steps unit) (spacingBelow steps)) ∨
    (onGrid? steps unit = some (gridBelow steps unit + 1) ∧
      Inside steps unit (gridGap unit - gridRest steps unit) (spacing steps)) := by
  have hbelow {b : Bool}
      (h : inside steps unit (steps * parts unit - gridBelow steps unit * gridGap unit)
      (spacingBelow steps) = b) : inside steps unit (gridRest steps unit) (spacingBelow steps) =
        b := by
    rwa [gridRest_eq] at h
  have habove {b : Bool}
      (h : inside steps unit ((gridBelow steps unit + 1) * gridGap unit - steps * parts unit)
      (spacing steps) = b) :
        inside steps unit (gridGap unit - gridRest steps unit) (spacing steps) = b := by
    rwa [gridNext_eq] at h
  rw [← inside_iff, ← inside_iff]
  unfold onGrid?
  dsimp only
  split
  · next h h' =>
    split_ifs
    · exact .inr (.inl ⟨rfl, hbelow h⟩)
    · exact .inr (.inr ⟨rfl, habove h'⟩)
    · -- halfway between the two the even one is taken
      rcases Nat.mod_two_eq_zero_or_one (gridBelow steps unit) with hmod | hmod
      · exact .inr (.inl ⟨congrArg (fun n => some (gridBelow steps unit + n)) hmod, hbelow h⟩)
      · exact .inr (.inr ⟨congrArg (fun n => some (gridBelow steps unit + n)) hmod, habove h'⟩)
  · next h _ => exact .inr (.inl ⟨rfl, hbelow h⟩)
  · next _ h => exact .inr (.inr ⟨rfl, habove h⟩)
  · next h h' => exact .inl ⟨rfl, by simp [hbelow h], by simp [habove h']⟩

/-- Being inside, told of the numbers themselves. -/
theorem Inside.scaled {distance gap : Nat} (h : Inside steps unit distance gap) {z : ℚ}
    (hz : z * parts unit = distance) :
    2 * z < gap ∨ steps / spacing steps % 2 = 0 ∧ 2 * z = gap := by
  have hparts : (0 : ℚ) < parts unit := by exact_mod_cast parts_pos unit
  refine h.imp (fun h => ?_) (And.imp_right fun h => ?_)
  · refine lt_of_mul_lt_mul_right ?_ hparts.le
    rw [mul_assoc, hz]
    exact_mod_cast h
  · refine mul_right_cancel₀ hparts.ne' ?_
    rw [mul_assoc, hz]
    exact_mod_cast h

/-- Whatever is found on a grid is in the interval. -/
theorem roundsTo_of_onGrid? (h : onGrid? steps unit = some n) :
    RoundsTo (n * (10 ^ unit * one)) steps ∧ n ≤ gridBelow steps unit + 1 := by
  have hparts : (0 : ℚ) < parts unit := by exact_mod_cast parts_pos unit
  have hspacing : (0 : ℚ) < spacing steps := by exact_mod_cast spacing_pos steps
  have hside : (0 : ℚ) < spacingBelow steps := by exact_mod_cast spacingBelow_pos steps
  have hgap : (10 ^ unit * one : ℚ) * parts unit = gridGap unit := by
    rw [← gridGap_div_parts, div_mul_cancel₀ _ hparts.ne']
  have hdown : (steps : ℚ) * parts unit = gridRest steps unit +
      gridBelow steps unit * gridGap unit := by
    exact_mod_cast (Nat.mod_add_div' (steps * parts unit) (gridGap unit)).symm
  have hup : ((gridGap unit - gridRest steps unit : Nat) : ℚ) =
      gridGap unit - gridRest steps unit :=
    Nat.cast_sub (gridRest_lt steps unit).le
  have hrest : (0 : ℚ) ≤ gridRest steps unit := Nat.cast_nonneg _
  have hrest' : (gridRest steps unit : ℚ) < gridGap unit := by exact_mod_cast gridRest_lt steps unit
  generalize (10 ^ unit * one : ℚ) = g at hgap ⊢
  rcases onGrid?_cases steps unit with ⟨hnone, -, -⟩ | ⟨hsome, hinside⟩ | ⟨hsome, hinside⟩
  · rw [hnone] at h
    cases h
  · obtain rfl := Option.some.inj (hsome.symm.trans h)
    have hz : (steps - gridBelow steps unit * g) * parts unit = gridRest steps unit := by
      rw [sub_mul, mul_assoc, hgap, hdown]
      ring
    refine ⟨⟨hinside.scaled hz, .inl ?_⟩, Nat.le_succ _⟩
    have hle : 0 ≤ steps - gridBelow steps unit * g := nonneg_of_mul_nonneg_left (hz ▸ hrest) hparts
    linarith
  · obtain rfl := Option.some.inj (hsome.symm.trans h)
    have hz : ((gridBelow steps unit + 1 : Nat) * g - steps) * parts unit =
        (gridGap unit - gridRest steps unit : Nat) := by
      rw [sub_mul, mul_assoc, hgap, hdown, hup]
      push_cast
      ring
    refine ⟨⟨.inl ?_, hinside.scaled hz⟩, le_rfl⟩
    have hle : 0 ≤ (gridBelow steps unit + 1 : Nat) * g - steps :=
      nonneg_of_mul_nonneg_left (by rw [hz, hup]; linarith) hparts
    linarith

/-- Seventeen digits are always enough. -/
theorem exists_onGrid? (h : (10 ^ 16 * (10 ^ unit * one) : ℚ) ≤ steps) :
    ∃ n, onGrid? steps unit = some n := by
  have hscale : 10 ^ 16 * gridGap unit ≤ steps * parts unit := by
    have hparts : (0 : ℚ) < parts unit := by exact_mod_cast parts_pos unit
    rw [← gridGap_div_parts, ← mul_div_assoc, div_le_iff₀ hparts] at h
    exact_mod_cast h
  rcases onGrid?_cases steps unit with ⟨-, hbelow, habove⟩ | ⟨h, -⟩ | ⟨h, -⟩
  · exfalso
    have hrest := gridRest_lt steps unit
    have hpos : 0 < spacingBelow steps * parts unit :=
      Nat.mul_pos (spacingBelow_pos steps) (parts_pos unit)
    simp only [Inside, not_or, Nat.not_lt] at hbelow habove
    rcases spacingBelow_cases steps with ⟨hsame, -⟩ | ⟨hhalf, hsteps⟩
    · have hlt : steps * parts unit < 2 ^ 53 * spacing steps * parts unit :=
        Nat.mul_lt_mul_of_pos_right (lt_spacing_mul steps) (parts_pos unit)
      rw [Nat.mul_assoc] at hlt
      rw [hsame] at hbelow hpos
      omega
    · have hdouble : spacing steps * parts unit = 2 * (spacingBelow steps * parts unit) := by
        rw [← hhalf, Nat.mul_assoc]
      rw [hsteps, Nat.mul_assoc] at hscale
      omega
  · exact ⟨_, h⟩
  · exact ⟨_, h⟩

end

/-! ## The leading digit -/

section

variable {steps fuel n : Nat}

/-- The digits in reverse order, given enough fuel. -/
theorem digitsRev_eq (h : n < 10 ^ fuel) : digitsRev fuel n = Nat.digits 10 n := by
  induction fuel generalizing n with
  | zero =>
    obtain rfl : n = 0 := by omega
    rfl
  | succ fuel ih =>
    rw [digitsRev]
    split_ifs with hzero
    · rw [hzero, Nat.digits_zero]
    · rw [Nat.digits_def' (by decide) (Nat.pos_of_ne_zero hzero), ih]
      rw [Nat.pow_succ] at h
      omega

/-- The number of digits, given enough fuel. -/
theorem digitCount_eq (h : n < 10 ^ fuel) : digitCount fuel n = (Nat.digits 10 n).length := by
  induction fuel generalizing n with
  | zero =>
    obtain rfl : n = 0 := by omega
    rfl
  | succ fuel ih =>
    rw [digitCount]
    split_ifs with hzero
    · rw [hzero, Nat.digits_zero]
      rfl
    · rw [Nat.digits_def' (by decide) (Nat.pos_of_ne_zero hzero), ih, List.length_cons]
      rw [Nat.pow_succ] at h
      omega

/-- A number from `10 ^ first` on has more than `first` digits, and it is between two powers of
ten. -/
theorem digitCount_spec {first : Nat} (hlow : 10 ^ first ≤ n) (hhigh : n < 10 ^ fuel) :
    ∃ c, digitCount fuel n = c ∧ first < c ∧ c ≤ fuel ∧ 10 ^ c ≤ 10 * n ∧ n < 10 ^ c := by
  have hpos : n ≠ 0 := (Nat.lt_of_lt_of_le (Nat.pow_pos (by decide)) hlow).ne'
  have hiff {k : Nat} : (Nat.digits 10 n).length ≤ k ↔ n < 10 ^ k :=
    Nat.digits_length_le_iff (by decide) n
  refine ⟨_, digitCount_eq hhigh, ?_, hiff.mpr hhigh, ?_, Nat.lt_base_pow_length_digits (by decide)⟩
  · exact Nat.not_le.mp fun h => absurd (hiff.mp h) (Nat.not_lt.mpr hlow)
  · exact Nat.base_pow_length_digits_le 10 n (by decide) hpos

/-- A positive number of parts, of which there are `o` in one, is between two powers of ten. They
are found by counting the digits of the number of parts of a smaller size. -/
theorem leading_of_digitCount {o l k first : Nat} (ho : 0 < o) (hfirst : o * 10 ^ first ≤ 10 ^ k)
    (hlast : l * 10 ^ k ≤ o * 10 ^ fuel) (hpos : 0 < steps) (hlt : steps < l) {lead : Int}
    (hlead : lead = digitCount fuel (steps * 10 ^ k / o) - (k + 1)) :
    first ≤ lead + k ∧ lead + k < fuel ∧ (10 ^ lead * o : ℚ) ≤ steps ∧
      (steps : ℚ) < 10 ^ (lead + 1) * o := by
  obtain ⟨scaled, hscaled⟩ : ∃ scaled, scaled = steps * 10 ^ k / o := ⟨_, rfl⟩
  have hle : scaled * o ≤ steps * 10 ^ k := hscaled ▸ Nat.div_mul_le_self _ _
  have hgt : steps * 10 ^ k < (scaled + 1) * o := by
    rw [hscaled, Nat.mul_comm _ o]
    exact Nat.lt_mul_div_succ _ ho
  have hlow : 10 ^ first ≤ scaled := by
    rw [hscaled, Nat.le_div_iff_mul_le ho, Nat.mul_comm]
    exact hfirst.trans (Nat.le_mul_of_pos_left _ hpos)
  have hhigh : scaled < 10 ^ fuel := by
    rw [hscaled, Nat.div_lt_iff_lt_mul ho, Nat.mul_comm _ o]
    exact (Nat.mul_lt_mul_of_pos_right hlt (Nat.pow_pos (by decide))).trans_le hlast
  obtain ⟨c, hc, hdigits, hfuel, hbelow, habove⟩ := digitCount_spec hlow hhigh
  rw [← hscaled, hc] at hlead
  have hpow : (10 : ℚ) ^ (lead + 1) * 10 ^ k = 10 ^ c := by
    rw [← zpow_natCast, ← zpow_natCast, ← zpow_add₀ (by norm_num), hlead]
    congr 1
    omega
  have hnext : (10 : ℚ) ^ (lead + 1) = 10 ^ lead * 10 := zpow_add_one₀ (by norm_num) lead
  have hten : (0 : ℚ) < 10 ^ k := by positivity
  refine ⟨by omega, by omega, ?_, ?_⟩
  · refine le_of_mul_le_mul_right ?_ (mul_pos hten (by norm_num : (0 : ℚ) < 10))
    have hbelow' : (10 ^ c * o : ℚ) ≤ 10 * (steps * 10 ^ k) := by
      have hscaled : 10 * scaled * o ≤ 10 * (steps * 10 ^ k) := by
        rw [Nat.mul_assoc]
        exact Nat.mul_le_mul_left 10 hle
      exact_mod_cast (Nat.mul_le_mul_right o hbelow).trans hscaled
    rw [← hpow, hnext] at hbelow'
    linarith
  · refine lt_of_mul_lt_mul_right ?_ hten.le
    have habove' : (steps * 10 ^ k : ℚ) < 10 ^ c * o := by
      exact_mod_cast hgt.trans_le (Nat.mul_le_mul_right o habove)
    rw [← hpow] at habove'
    linarith

/-- The exponent of the leading digit is that of the greatest power of ten below the number. -/
theorem leading_spec (hpos : 0 < steps) (hlt : steps < limit) :
    -330 ≤ leading steps ∧ leading steps < 400 ∧
    (10 ^ leading steps * one : ℚ) ≤ steps ∧ (steps : ℚ) < 10 ^ (leading steps + 1) * one := by
  obtain ⟨k, hk⟩ : ∃ k, k = 400 := ⟨_, rfl⟩
  have hfirst : one * 10 ^ 76 ≤ 10 ^ k := by
    rw [hk]
    decide +kernel
  have hlast : limit * 10 ^ k ≤ one * 10 ^ 800 := by
    rw [hk]
    decide +kernel
  have hlead : leading steps = digitCount 800 (steps * 10 ^ k / one) - (k + 1) := by
    rw [leading, ← hk, Nat.pow_eq]
    omega
  obtain ⟨hlow, hhigh, hbounds⟩ := leading_of_digitCount one_pos hfirst hlast hpos hlt hlead
  clear hfirst hlast
  exact ⟨by omega, by omega, hbounds⟩

end

/-! ## The search for the fewest digits -/

section

variable {steps n : Nat} {lead : Int}

/-- The point of the grid below has no more digits than asked for. -/
theorem gridBelow_lt {width : Nat} (hlt : (steps : ℚ) < 10 ^ (lead + 1) * one) :
    gridBelow steps (lead - width + 1) < 10 ^ width := by
  have hparts : (0 : ℚ) < parts (lead - width + 1) := by exact_mod_cast parts_pos _
  have hgap : (10 ^ (lead - width + 1) * one : ℚ) * parts (lead - width + 1) =
      gridGap (lead - width + 1) := by
    rw [← gridGap_div_parts, div_mul_cancel₀ _ hparts.ne']
  have hpow : (10 : ℚ) ^ (lead + 1) = 10 ^ width * 10 ^ (lead - width + 1) := by
    rw [← zpow_natCast, ← zpow_add₀ (by norm_num)]
    congr 1
    omega
  rw [gridBelow, Nat.div_lt_iff_lt_mul (gridGap_pos _)]
  have hscaled := mul_lt_mul_of_pos_right hlt hparts
  rw [hpow, mul_assoc, mul_assoc, ← mul_assoc (10 ^ (lead - width + 1) : ℚ), hgap] at hscaled
  exact_mod_cast hscaled

/-- The search ends with at most seventeen digits, at a point in the interval. -/
theorem shortestFrom_spec (hle : (10 ^ lead * one : ℚ) ≤ steps)
    (hlt : (steps : ℚ) < 10 ^ (lead + 1) * one) :
    ∀ fuel width, width + fuel = 18 → 0 < fuel → ∃ w n : Nat, w ≤ 17 ∧ n ≤ 10 ^ w ∧
      shortestFrom steps lead fuel width = (n, lead - w + 1) ∧
      RoundsTo ((n : ℚ) * (10 ^ (lead - w + 1) * one)) steps := by
  intro fuel
  induction fuel with
  | zero => exact fun _ _ hfuel => absurd hfuel (Nat.lt_irrefl 0)
  | succ fuel ih =>
    intro width hwidth _
    rcases hgrid : onGrid? steps (lead - width + 1) with _ | n
    · have hfew : 0 < fuel := by
        by_contra hfuel
        obtain rfl : width = 17 := by omega
        have hscale : (10 ^ 16 * (10 ^ (lead - (17 : Nat) + 1) * one) : ℚ) = 10 ^ lead * one := by
          rw [← mul_assoc, ← zpow_natCast, ← zpow_add₀ (by norm_num)]
          congr 2
          omega
        obtain ⟨n, hn⟩ := exists_onGrid? (hscale.trans_le hle)
        rw [hgrid] at hn
        cases hn
      obtain ⟨w, n, hw, hn, hsearch, h⟩ := ih (width + 1) (by omega) hfew
      exact ⟨w, n, hw, hn, by rw [shortestFrom, hgrid]; exact hsearch, h⟩
    · obtain ⟨h, hn⟩ := roundsTo_of_onGrid? hgrid
      exact ⟨width, n, by omega, hn.trans (gridBelow_lt hlt), by rw [shortestFrom, hgrid], h⟩

/-- What is rounded to a positive double is positive. -/
theorem RoundsTo.pos {x : ℚ} (h : RoundsTo x steps) (hpos : 0 < steps)
    (hdvd : spacing steps ∣ steps) :
    0 < x := by
  have hbelow := h.le_below
  have hpos' : (0 : ℚ) < steps := by exact_mod_cast hpos
  have hside : (spacingBelow steps : ℚ) ≤ steps := by
    exact_mod_cast (spacingBelow_le steps).trans (Nat.le_of_dvd hpos hdvd)
  linarith

theorem valueOf_reverse (l : List Nat) : Text.valueOf 10 l.reverse = Nat.ofDigits 10 l := by
  rw [Text.valueOf, List.foldl_reverse, Nat.ofDigits_eq_foldr]
  congr
  funext d n
  simp
  omega

/-- Trailing zeros are a power of ten. -/
theorem ofDigits_dropWhile (rev : List Nat) : Nat.ofDigits 10 rev =
    Text.valueOf 10 (rev.dropWhile (· == 0)).reverse * 10 ^
      (rev.length - (rev.dropWhile (· == 0)).length) := by
  induction rev with
  | nil => rfl
  | cons d rev ih =>
    by_cases hd : d = 0
    · have hle : (rev.dropWhile (· == 0)).length ≤ rev.length :=
        (List.dropWhile_sublist _).length_le
      rw [List.dropWhile_cons_of_pos (by simpa using hd), Nat.ofDigits_cons, hd, ih,
        List.length_cons, Nat.succ_sub hle, Nat.pow_succ]
      ring
    · rw [List.dropWhile_cons_of_neg (by simpa using hd), Nat.sub_self, Nat.pow_zero, Nat.mul_one,
        valueOf_reverse]

/-- The digits of a number without trailing zeros. -/
def significant (n : Nat) : List Nat := ((Nat.digits 10 n).dropWhile (· == 0)).reverse

theorem length_significant_le (n : Nat) : (significant n).length ≤ (Nat.digits 10 n).length := by
  rw [significant, List.length_reverse]
  exact (List.dropWhile_sublist _).length_le

/-- The significant digits are digits. -/
theorem lt_ten_of_mem_significant {n d : Nat} (hd : d ∈ significant n) : d < 10 :=
  Nat.digits_lt_base (by decide) ((List.dropWhile_sublist _).subset (List.mem_reverse.mp hd))

/-- A number is worth its significant digits with zeros behind them. -/
theorem valueOf_significant (n : Nat) :
    n = Text.valueOf 10 (significant n) * 10 ^
      ((Nat.digits 10 n).length - (significant n).length) := by
  have hvalue := ofDigits_dropWhile (Nat.digits 10 n)
  rw [Nat.ofDigits_digits] at hvalue
  rwa [significant, List.length_reverse]

/-- Without trailing zeros the digits of a number make up the same number. -/
theorem mul_zpow_significant (n : Nat) (unit : Int) :
    n * 10 ^ unit = (Text.valueOf 10 (significant n) *
      10 ^ (unit + (Nat.digits 10 n).length - 1 + 1 - (significant n).length) : ℚ) := by
  have hlength := length_significant_le n
  have hpow : (10 : ℚ) ^ (unit + (Nat.digits 10 n).length - 1 + 1 - (significant n).length) =
      10 ^ ((Nat.digits 10 n).length - (significant n).length) * 10 ^ unit := by
    rw [← zpow_natCast, ← zpow_add₀ (by norm_num), Nat.cast_sub hlength]
    congr 1
    omega
  rw [hpow, ← mul_assoc]
  congr 1
  exact_mod_cast valueOf_significant n

/-- Digits and the exponent of the first of them make up a number in the interval of a count of
steps. -/
structure Spells (steps : Nat) (digits : List Nat) (lead : Int) : Prop where
  lt_ten : ∀ d ∈ digits, d < 10
  pos : 0 < Text.valueOf 10 digits
  low : -350 ≤ lead + 1 - digits.length
  high : lead ≤ 400
  roundsTo : RoundsTo (Text.valueOf 10 digits * (10 ^ (lead + 1 - digits.length) * one)) steps

/-- The definition as an equation of functions. Applied to a number it would be checked by computing
the search for that number, which is a variable. -/
theorem shortest_def : shortest = fun steps =>
    let (n, unit) := shortestFrom steps (leading steps) 17 1
    let rev := digitsRev 400 n
    ((rev.dropWhile (· == 0)).reverse, unit + rev.length - 1) := rfl

/-- The shortest digits are the significant digits of the point of the grid. -/
theorem shortest_eq {unit : Int} (h : shortestFrom steps (leading steps) 17 1 = (n, unit))
    (hn : (Nat.digits 10 n).length ≤ 400) :
    shortest steps = (significant n, unit + (Nat.digits 10 n).length - 1) := by
  rw [significant, ← digitsRev_eq ((Nat.digits_length_le_iff (by decide) n).mp hn), shortest_def]
  beta_reduce
  rw [h]

/-- **The digits of a double make up a number in its interval.** -/
theorem spells_shortest (hpos : 0 < steps) (hsteps : IsCount steps) :
    Spells steps (shortest steps).1 (shortest steps).2 := by
  obtain ⟨hlow, hhigh, hle, hlt⟩ := leading_spec hpos hsteps.2
  obtain ⟨w, n, hw, hn, hsearch, h⟩ := shortestFrom_spec hle hlt 17 1 rfl (by decide)
  have hlt' : n < 10 ^ (w + 1) :=
    hn.trans_lt (Nat.pow_lt_pow_right (by decide) (Nat.lt_succ_self w))
  have hlength : (Nat.digits 10 n).length ≤ w + 1 :=
    (Nat.digits_length_le_iff (by decide) n).mpr hlt'
  rw [shortest_eq hsearch (hlength.trans (by omega))]
  have hsignificant := length_significant_le n
  rw [← mul_assoc, mul_zpow_significant, mul_assoc] at h
  have hpositive := h.pos hpos hsteps.1
  refine ⟨fun d => lt_ten_of_mem_significant, ?_, ?_, ?_, h⟩
  · refine Nat.pos_of_ne_zero fun hzero => ?_
    rw [hzero, Nat.cast_zero, zero_mul] at hpositive
    exact absurd hpositive (lt_irrefl 0)
  · dsimp only
    omega
  · dsimp only
    omega

end

end FormRules.Double
