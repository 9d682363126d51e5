import FormRules.Number.Reader
import FormRules.Number.Shortest
import FormRules.Proofs.Number.Nearest
import Mathlib.Data.Nat.Cast.Order.Field
import Mathlib.Data.Rat.Cast.Order
import Mathlib.Tactic.Linarith

/-!
# The interval of a double

The numbers that are rounded to a double make up an interval around it, which reaches half the way
to either neighbour and to the ends just if the double is even (`Double.RoundsTo`). Below a power of
two the neighbour is only half as far away. A quotient in the interval is rounded to the double
(`Double.nearest_of_roundsTo`), and whatever is rounded is a double (`Double.exact_nearest`).
-/

namespace FormRules.Double

/-- A count of steps is that of a finite double. -/
def IsCount (steps : Nat) : Prop := spacing steps ∣ steps ∧ steps < limit

/-- If the double is finite, it has the steps of one. -/
def Exact (d : Double) : Prop := ∀ negative steps, d = finite negative steps → IsCount steps

/-- A double with a count of steps that doubles can have is exact. -/
theorem exact_finite {negative : Bool} {steps : Nat} (h : IsCount steps) :
    (finite negative steps).Exact := by
  rintro _ _ ⟨⟩
  exact h

/-! ## Spacing -/

section

variable {steps n k d : Nat}

/-- The spacing of the doubles around a count is a power of two. -/
theorem spacing_eq (steps : Nat) : spacing steps = 2 ^ (steps.log2 - 52) := rfl

/-- Small counts are all counts of doubles. -/
theorem spacing_of_log2_le (h : steps.log2 ≤ 52) : spacing steps = 1 := by
  rw [spacing_eq, Nat.sub_eq_zero_of_le h, Nat.pow_zero]

/-- A count has at most 53 bits of its spacing. -/
theorem lt_spacing_mul (steps : Nat) : steps < 2 ^ 53 * spacing steps := by
  rw [spacing_eq, ← Nat.pow_add]
  calc steps < 2 ^ (steps.log2 + 1) := Nat.lt_log2_self
    _ ≤ 2 ^ (53 + (steps.log2 - 52)) := Nat.pow_le_pow_right Nat.two_pos (by omega)

/-- The double below is as far away as the one above, except below a power of two that has more than
53 bits. -/
theorem spacingBelow_cases (steps : Nat) :
    spacingBelow steps = spacing steps ∧ (spacing steps = 1 ∨ steps ≠ 2 ^ 52 * spacing steps) ∨
      2 * spacingBelow steps = spacing steps ∧ steps = 2 ^ 52 * spacing steps := by
  have hbelow : spacingBelow steps = if spacing steps ≠ 1 ∧ steps = 2 ^ 52 * spacing steps then
      spacing steps / 2 else spacing steps := by
    simp [spacingBelow]
  rw [hbelow]
  split_ifs with h
  · obtain ⟨j, hj⟩ : ∃ j, steps.log2 - 52 = j + 1 := by
      refine Nat.exists_eq_succ_of_ne_zero fun hzero => h.1 ?_
      rw [spacing_eq, hzero, Nat.pow_zero]
    have heven : spacing steps = 2 * 2 ^ j := by rw [spacing_eq, hj, Nat.pow_succ, Nat.mul_comm]
    exact .inr ⟨by omega, h.2⟩
  · exact .inl ⟨rfl, by tauto⟩

theorem spacingBelow_pos (steps : Nat) : 0 < spacingBelow steps := by
  have hgap := spacing_pos steps
  have hcases := spacingBelow_cases steps
  omega

/-- Below a double the doubles are not farther apart than above it. -/
theorem spacingBelow_le (steps : Nat) : spacingBelow steps ≤ spacing steps := by
  have hcases := spacingBelow_cases steps
  omega

/-! ## Rounding in an interval -/

/-- A quotient is rounded to the number that it is within a half of; to the ends if the number is
even. -/
theorem roundDiv_eq (hd : 0 < d)
    (hbelow : 2 * (k * d) < 2 * n + d ∨ k % 2 = 0 ∧ 2 * (k * d) = 2 * n + d)
    (habove : 2 * n < 2 * (k * d) + d ∨ k % 2 = 0 ∧ 2 * n = 2 * (k * d) + d) :
    roundDiv n d = k := by
  have hn : n / d * d + n % d = n := Nat.div_add_mod' n d
  have hr : n % d < d := Nat.mod_lt n hd
  have hquotient : n / d = k ∨ n / d + 1 = k := by
    rcases lt_trichotomy k (n / d) with hlt | heq | hgt
    · have hmul := Nat.mul_le_mul_right d hlt
      rw [Nat.succ_mul] at hmul
      omega
    · exact .inl heq.symm
    · rcases Nat.lt_or_eq_of_le hgt with hlt | heq
      · have hmul := Nat.mul_le_mul_right d hlt
        rw [Nat.succ_mul, Nat.succ_mul] at hmul
        omega
      · exact .inr heq
  simp only [roundDiv]
  rcases hquotient with rfl | rfl
  · split_ifs <;> omega
  · have hsucc : (n / d + 1) * d = n / d * d + d := Nat.succ_mul _ _
    split_ifs <;> omega

end

/-- A number of steps is in the interval of a count: it is within half the way to the double below,
and within half the way to the double above. The ends belong to it if the count is even. -/
structure RoundsTo (x : ℚ) (steps : Nat) : Prop where
  below : 2 * (steps - x) < spacingBelow steps ∨
    steps / spacing steps % 2 = 0 ∧ 2 * (steps - x) = spacingBelow steps
  above : 2 * (x - steps) < spacing steps ∨
    steps / spacing steps % 2 = 0 ∧ 2 * (x - steps) = spacing steps

section

variable {x : ℚ} {steps y : Nat}

/-- What is rounded up is at most half a gap away. -/
theorem RoundsTo.le_below (h : RoundsTo x steps) : 2 * (steps - x) ≤ spacingBelow steps :=
  h.below.elim le_of_lt fun h => h.2.le

/-- What is rounded down is at most half a gap away. -/
theorem RoundsTo.le_above (h : RoundsTo x steps) : 2 * (x - steps) ≤ spacing steps :=
  h.above.elim le_of_lt fun h => h.2.le

/-- Half a spacing of the doubles around `y` is as far as a number may be from a multiple that it is
rounded to; exactly half of it if the multiple is even. -/
def Within (x : ℚ) (y k : Nat) : Prop :=
  (2 * (k * spacing y - x) < spacing y ∨ k % 2 = 0 ∧ 2 * (k * spacing y - x) = spacing y) ∧
    (2 * (x - k * spacing y) < spacing y ∨ k % 2 = 0 ∧ 2 * (x - k * spacing y) = spacing y)

/-- The bounds of a count tell its spacing. -/
theorem spacing_of_bounds {j : Nat} (hlow : 2 ^ 52 * 2 ^ j ≤ y) (hhigh : y < 2 ^ 53 * 2 ^ j) :
    spacing y = 2 ^ j := by
  have hpos : y ≠ 0 := (Nat.lt_of_lt_of_le (by positivity) hlow).ne'
  have hlog : y.log2 = 52 + j := by
    refine (Nat.log2_eq_iff hpos).mpr ⟨?_, ?_⟩
    · rwa [Nat.pow_add]
    · rwa [Nat.add_right_comm, Nat.pow_add]
  rw [spacing_eq, hlog, Nat.add_sub_cancel_left]

variable (h : RoundsTo x steps)
include h

/-- Up to 53 bits every whole number is a double. -/
theorem RoundsTo.within_of_log2_le (hy : (y : ℚ) ≤ x) (hsteps : steps.log2 ≤ 52) :
    ∃ k, steps = k * spacing y ∧ Within x y k := by
  have hgap : spacing steps = 1 := spacing_of_log2_le hsteps
  have hbelow : spacingBelow steps = 1 := by
    have hpos := spacingBelow_pos steps
    have hle := spacingBelow_le steps
    omega
  have hle : y ≤ steps := by
    have habove := h.le_above
    rw [hgap, Nat.cast_one] at habove
    refine Nat.lt_succ_iff.mp (Nat.cast_lt (α := ℚ).mp ?_)
    push_cast
    linarith
  have hlog : y.log2 ≤ steps.log2 := by
    rw [Nat.log2_eq_log_two, Nat.log2_eq_log_two]
    exact Nat.log_mono_right hle
  have hy : spacing y = 1 := spacing_of_log2_le (hlog.trans hsteps)
  obtain ⟨hb, ha⟩ := h
  rw [hgap, Nat.div_one] at *
  rw [hbelow] at hb
  exact ⟨steps, by rw [hy, Nat.mul_one], by simpa [Within, hy] using ⟨hb, ha⟩⟩

variable {m : Nat} (hm : steps = m * spacing steps)
include hm

/-- From the power of two on, the spacing is that of the count itself. -/
theorem RoundsTo.within_of_le (hy : (y : ℚ) ≤ x) (hhigh : m < 2 ^ 53)
    (hge : 2 ^ 52 * spacing steps ≤ y) :
    ∃ k, steps = k * spacing y ∧ Within x y k := by
  have hpos : (0 : ℚ) < spacing steps := by exact_mod_cast spacing_pos steps
  have hsteps : (steps : ℚ) = m * spacing steps := by exact_mod_cast hm
  have hnext : (m * spacing steps + spacing steps : ℚ) ≤ 2 ^ 53 * spacing steps := by
    have hmul := Nat.mul_le_mul_right (spacing steps) hhigh
    rw [Nat.succ_mul] at hmul
    exact_mod_cast hmul
  have hlast : y < 2 ^ 53 * spacing steps := by
    have habove := h.le_above
    refine Nat.cast_lt (α := ℚ).mp ?_
    push_cast
    linarith
  have hspacing : spacing y = spacing steps := by
    rw [spacing_eq steps] at hge hlast ⊢
    exact spacing_of_bounds hge hlast
  have hquotient : steps / spacing steps = m := Nat.div_eq_of_eq_mul_left (spacing_pos steps) hm
  refine ⟨m, by rw [hspacing, ← hm], ?_⟩
  unfold Within
  rw [hspacing, ← hsteps, ← hquotient]
  refine ⟨?_, h.above⟩
  rcases spacingBelow_cases steps with ⟨hsame, -⟩ | ⟨hhalf, -⟩
  · exact hsame ▸ h.below
  · have hbelow := h.le_below
    have hhalf' : (2 * spacingBelow steps : ℚ) = spacing steps := by exact_mod_cast hhalf
    exact .inl (by linarith)

/-- A count with numbers in its interval that are below the power of two is that power. -/
theorem RoundsTo.eq_two_pow (hx : x < 2 ^ 52 * spacing steps) (hlow : 2 ^ 52 ≤ m) : m = 2 ^ 52 := by
  have hpos : (0 : ℚ) < spacing steps := by exact_mod_cast spacing_pos steps
  have hsteps : (steps : ℚ) = m * spacing steps := by exact_mod_cast hm
  have hbelow := h.le_below
  by_contra hne
  have hnext : (2 ^ 52 + 1 : ℚ) ≤ m := by exact_mod_cast (by omega : 2 ^ 52 + 1 ≤ m)
  have hmul := mul_le_mul_of_nonneg_right hnext hpos.le
  have hside : (spacingBelow steps : ℚ) ≤ spacing steps := by exact_mod_cast spacingBelow_le steps
  rw [← hsteps] at hmul
  linarith

/-- Below the power of two the spacing is half as much. -/
theorem RoundsTo.within_of_lt (hy' : x < y + 1) (hlow : 2 ^ 52 ≤ m) (hgap : spacing steps ≠ 1)
    (hlt : y < 2 ^ 52 * spacing steps) : ∃ k, steps = k * spacing y ∧ Within x y k := by
  have hpos : (0 : ℚ) < spacing steps := by exact_mod_cast spacing_pos steps
  have hsteps : (steps : ℚ) = m * spacing steps := by exact_mod_cast hm
  have hbelow := h.le_below
  have hx : x < 2 ^ 52 * spacing steps := lt_of_lt_of_le hy' (by exact_mod_cast hlt)
  obtain rfl := h.eq_two_pow hm hx hlow
  obtain ⟨-, hone | hother⟩ | ⟨hhalf, -⟩ := spacingBelow_cases steps
  · exact absurd hone hgap
  · exact absurd hm hother
  obtain ⟨j, hj⟩ : ∃ j, steps.log2 - 52 = j + 1 := by
    refine Nat.exists_eq_succ_of_ne_zero fun hzero => hgap ?_
    rw [spacing_eq, hzero, Nat.pow_zero]
  have hside : spacingBelow steps = 2 ^ j := by
    rw [spacing_eq, hj, Nat.pow_succ] at hhalf
    omega
  have hhalf' : (spacing steps : ℚ) = 2 * 2 ^ j := by exact_mod_cast hside ▸ hhalf.symm
  rw [hside] at hhalf
  rw [hside] at hbelow
  push_cast at hbelow hsteps
  have hspacing : spacing y = 2 ^ j := by
    refine spacing_of_bounds ?_ (by omega)
    refine Nat.lt_succ_iff.mp (Nat.cast_lt (α := ℚ).mp ?_)
    push_cast
    linarith
  refine ⟨2 ^ 53, by omega, ?_⟩
  unfold Within
  rw [hspacing]
  push_cast
  refine ⟨?_, .inl (by linarith)⟩
  rcases hbelow.lt_or_eq with hlt | heq
  · exact .inl (by linarith)
  · exact .inr ⟨by decide, by linarith⟩

omit hm

/-- A number in the interval of a double is within half a spacing of it. -/
theorem RoundsTo.within (hy : (y : ℚ) ≤ x) (hy' : x < y + 1) (hdvd : spacing steps ∣ steps) :
    ∃ k, steps = k * spacing y ∧ Within x y k := by
  obtain ⟨m, hm⟩ := hdvd
  rw [Nat.mul_comm] at hm
  rcases Nat.lt_or_ge 52 steps.log2 with hmany | hfew
  · obtain ⟨j, hj⟩ : ∃ j, steps.log2 = 52 + (j + 1) := ⟨steps.log2 - 53, by omega⟩
    have hpos := spacing_pos steps
    have hgap : spacing steps = 2 ^ (j + 1) := by rw [spacing_eq, hj, Nat.add_sub_cancel_left]
    have hlow : 2 ^ 52 ≤ m := by
      refine Nat.le_of_mul_le_mul_right ?_ hpos
      rw [← hm, hgap, ← Nat.pow_add, ← hj]
      exact two_pow_log2_le hmany
    have hhigh : m < 2 ^ 53 := by
      refine Nat.lt_of_mul_lt_mul_right (a := spacing steps) ?_
      rw [← hm]
      exact lt_spacing_mul steps
    rcases Nat.lt_or_ge y (2 ^ 52 * spacing steps) with hlt | hge
    · refine h.within_of_lt hm hy' hlow ?_ hlt
      rw [hgap]
      exact (Nat.one_lt_two_pow (Nat.succ_ne_zero j)).ne'
    · exact h.within_of_le hm hy hhigh hge
  · exact h.within_of_log2_le hy hfew

end

/-! ## The nearest double -/

section

variable {steps num den y : Nat} (negative : Bool)

/-- The nearest double to a fraction, in steps of the spacing around it. -/
theorem nearest_eq (num den : Nat) : nearest negative num den = ofSteps negative
    (roundDiv (num * one) (den * spacing (num * one / den)) * spacing (num * one / den)) := rfl

/-- Distances in parts of one are distances of whole numbers once they are multiplied. -/
theorem half_of_scaled {a b c : ℚ} {m n d : Nat} {even : Prop} (hden : 0 < den) (ha : a * den = m)
    (hb : b * den = n) (hc : c * den = d) (h : 2 * (a - b) < c ∨ even ∧ 2 * (a - b) = c) :
    2 * m < 2 * n + d ∨ even ∧ 2 * m = 2 * n + d := by
  have hpos : (0 : ℚ) < den := by exact_mod_cast hden
  refine h.imp (fun h => ?_) (And.imp_right fun h => ?_)
  · have hscaled := mul_lt_mul_of_pos_right h hpos
    refine Nat.cast_lt (α := ℚ).mp ?_
    push_cast
    linarith
  · have hscaled := congrArg (· * (den : ℚ)) h
    refine Nat.cast_inj (R := ℚ).mp ?_
    push_cast
    linarith

/-- A fraction that is near enough to a count is rounded to it. -/
theorem roundDiv_of_within {n k : Nat} (hden : 0 < den) (h : Within (n / den) y k) :
    roundDiv n (den * spacing y) = k := by
  have hpos : (0 : ℚ) < den := by exact_mod_cast hden
  have hquotient : (n / den : ℚ) * den = n := div_mul_cancel₀ _ hpos.ne'
  have hmultiple : (k * spacing y : ℚ) * den = (k * (den * spacing y) : Nat) := by
    push_cast
    rw [mul_assoc, mul_comm (den : ℚ)]
  have hgap : (spacing y : ℚ) * den = (den * spacing y : Nat) := by
    push_cast
    rw [mul_comm]
  refine roundDiv_eq (Nat.mul_pos hden (spacing_pos y)) ?_ ?_
  · exact half_of_scaled hden hmultiple hquotient hgap h.1
  · exact half_of_scaled hden hquotient hmultiple hgap h.2

/-- **A quotient in the interval of a double is rounded to that double.** -/
theorem nearest_of_roundsTo (hsteps : IsCount steps) (hden : 0 < den)
    (h : RoundsTo ((num * one : Nat) / den) steps) :
    nearest negative num den = finite negative steps := by
  have hpos : (0 : ℚ) < den := by exact_mod_cast hden
  rw [nearest_eq]
  generalize num * one = n at *
  have hy' : (n / den : ℚ) < (n / den : Nat) + 1 := by
    rw [div_lt_iff₀ hpos, mul_comm]
    exact_mod_cast Nat.lt_mul_div_succ n hden
  obtain ⟨k, hk, hwithin⟩ := h.within Nat.cast_div_le hy' hsteps.1
  rw [roundDiv_of_within hden hwithin, ← hk]
  exact if_neg (Nat.not_le.mpr hsteps.2)

/-- A multiple of the spacing around a smaller number is one of its own, up to the next power of
two. -/
theorem spacing_dvd_of_le (hdvd : spacing y ∣ steps) (hle : steps ≤ 2 ^ (y.log2 + 1)) :
    spacing steps ∣ steps := by
  rcases Nat.lt_or_ge y.log2 steps.log2 with hlt | hge
  · have hpow : 2 ^ (y.log2 + 1) ≤ steps :=
      (Nat.pow_le_pow_right Nat.two_pos hlt).trans (two_pow_log2_le hlt)
    obtain rfl := Nat.le_antisymm hle hpow
    exact spacing_dvd_two_pow Nat.log2_two_pow.le
  · exact Nat.dvd_trans (Nat.pow_dvd_pow 2 (Nat.sub_le_sub_right hge 52)) hdvd

/-- A multiple of its own spacing makes an exact double. -/
theorem exact_ofSteps (h : spacing steps ∣ steps) : (ofSteps negative steps).Exact := by
  unfold ofSteps
  by_cases hlimit : limit ≤ steps
  · rw [if_pos hlimit]
    exact nofun
  · rw [if_neg hlimit]
    exact exact_finite ⟨h, Nat.not_le.mp hlimit⟩

/-- What is rounded is a double. -/
theorem exact_nearest (num den : Nat) : (nearest negative num den).Exact := by
  rw [nearest_eq]
  generalize num * one = n
  generalize hy : n / den = y
  have hquotient : n / (den * spacing y) = y / spacing y := by rw [← Nat.div_div_eq_div_mul, hy]
  have hlast : y / spacing y < 2 ^ (y.log2 + 1) / spacing y :=
    Nat.div_lt_div_of_lt_of_dvd (spacing_dvd_two_pow (Nat.le_succ _)) Nat.lt_log2_self
  have hle : roundDiv n (den * spacing y) * spacing y ≤ 2 ^ (y.log2 + 1) := by
    calc roundDiv n (den * spacing y) * spacing y ≤ (y / spacing y + 1) * spacing y :=
          Nat.mul_le_mul_right _ (hquotient ▸ roundDiv_le_succ n (den * spacing y))
      _ ≤ 2 ^ (y.log2 + 1) / spacing y * spacing y := Nat.mul_le_mul_right _ hlast
      _ ≤ 2 ^ (y.log2 + 1) := Nat.div_mul_le_self _ _
  exact exact_ofSteps negative (spacing_dvd_of_le (Nat.dvd_mul_left _ _) hle)

end

/-! ## What is calculated or read -/

theorem isCount_zero : IsCount 0 := ⟨Nat.dvd_zero _, limit_pos⟩

theorem Exact.neg {d : Double} (hd : d.Exact) : d.neg.Exact := by
  cases d with
  | nan => exact nofun
  | infinite _ => exact nofun
  | finite negative steps => exact exact_finite (hd negative steps rfl)

/-- Whatever is added, the sum is a double. -/
theorem exact_add (x y : Double) : (x.add y).Exact := by
  unfold add
  split
  · exact nofun
  · exact nofun
  · split <;> exact nofun
  · exact nofun
  · exact nofun
  · dsimp only
    split
    · exact exact_finite isCount_zero
    · exact exact_nearest _ _ _

/-- Every decimal is read as an exact double. -/
theorem exact_ofDecimal (negative : Bool) (digits width : Nat) (exponent : Int) :
    (ofDecimal negative digits width exponent).Exact := by
  unfold ofDecimal
  split_ifs
  · exact exact_finite isCount_zero
  · exact nofun
  · exact exact_finite isCount_zero
  · exact exact_nearest _ _ _

/-- What is read as a number without sign is exact. -/
theorem exact_of_unsigned? {negative : Bool} {s : List Char} {d : Double}
    (h : unsigned? negative s = some d) :
    d.Exact := by
  unfold unsigned? at h
  dsimp only at h
  split at h <;> split_ifs at h <;> obtain ⟨e, -, rfl⟩ := Option.map_eq_some_iff.mp h <;>
    exact exact_ofDecimal _ _ _ _

/-- What a text is read as is a double. -/
theorem exact_of_ofText? {s : List Char} {d : Double} (h : ofText? s = some d) : d.Exact := by
  obtain ⟨t, -, h⟩ := Option.bind_eq_some_iff.mp h
  unfold ofPlain? at h
  dsimp only at h
  split_ifs at h
  · cases h
    exact nofun
  · cases h
    exact nofun
  · exact exact_of_unsigned? h

end FormRules.Double
