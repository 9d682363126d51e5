import FormRules.Proofs.Value.Equality
import Mathlib.Algebra.Group.Nat.Defs
import Mathlib.Data.Nat.Log

/-!
# Rounding to a double

A count of steps is rounded to a multiple of the spacing of the doubles around it
(`Double.rounded`). No count that is a multiple of its own spacing is closer
(`Double.rounded_nearest`), and rounding keeps the order (`Double.rounded_mono`).

So the doubles nearest to whole numbers are in the order of the numbers (`Double.le_ofInt_iff`),
only numbers of more than 53 bits share a double (`Double.eq_of_ofInt_eq`), and the numbers without
a finite double are those from `Double.overflow` on (`Double.rounded_lt_limit_iff`).
-/

namespace FormRules.Double

/-! ## Rounded quotients -/

section

variable {m n gap : Nat}

/-- Rounding does not go below the quotient. -/
theorem div_le_roundDiv (n gap : Nat) : n / gap ≤ roundDiv n gap := by
  simp only [roundDiv]
  split_ifs <;> omega

/-- Rounding goes up by one at most. -/
theorem roundDiv_le_succ (n gap : Nat) : roundDiv n gap ≤ n / gap + 1 := by
  simp only [roundDiv]
  split_ifs <;> omega

/-- Rounding keeps the order. -/
theorem roundDiv_mono (h : m ≤ n) : roundDiv m gap ≤ roundDiv n gap := by
  rcases (Nat.div_le_div_right (c := gap) h).lt_or_eq with hlt | heq
  · calc roundDiv m gap ≤ m / gap + 1 := roundDiv_le_succ m gap
      _ ≤ n / gap := hlt
      _ ≤ roundDiv n gap := div_le_roundDiv n gap
  · -- within one gap the remainders have the order of the numbers
    have hm := Nat.div_add_mod m gap
    have hn := Nat.div_add_mod n gap
    rw [heq] at hm
    simp only [roundDiv, heq]
    split_ifs <;> omega

/-- A multiple is not rounded. -/
theorem roundDiv_mul (hgap : 0 < gap) (k : Nat) : roundDiv (k * gap) gap = k := by
  simp only [roundDiv, Nat.mul_div_cancel k hgap, Nat.mul_mod_left, Nat.mul_zero, if_pos hgap]

/-- No multiple is closer to the number than the rounded quotient. -/
theorem roundDiv_nearest (hgap : 0 < gap) (n k : Nat) :
    ((roundDiv n gap * gap : Nat) - n : Int).natAbs ≤ ((k * gap : Nat) - n : Int).natAbs := by
  have hn : n / gap * gap + n % gap = n := Nat.div_add_mod' n gap
  have hr : n % gap < gap := Nat.mod_lt n hgap
  have hsucc : (n / gap + 1) * gap = n / gap * gap + gap := Nat.succ_mul _ _
  have hside : k * gap ≤ n / gap * gap ∨ n / gap * gap + gap ≤ k * gap := by
    rw [← hsucc]
    exact (le_or_gt k (n / gap)).imp (Nat.mul_le_mul_right gap) (Nat.mul_le_mul_right gap)
  have hround : 2 * (n % gap) ≤ gap ∧ roundDiv n gap = n / gap ∨
      gap ≤ 2 * (n % gap) ∧ roundDiv n gap = n / gap + 1 := by
    simp only [roundDiv]
    split_ifs <;> omega
  rcases hround with ⟨hr, hround⟩ | ⟨hr, hround⟩ <;> rw [hround] <;> omega

end

/-! ## Counts of steps -/

/-- A count of steps, rounded to the spacing of the doubles around it. -/
def rounded (steps : Nat) : Nat := roundDiv steps (spacing steps) * spacing steps

theorem spacing_pos (n : Nat) : 0 < spacing n := Nat.two_pow_pos _

variable {m n : Nat}

/-- The spacing divides the powers of two that are not below the count. -/
theorem spacing_dvd_two_pow {k : Nat} (h : n.log2 ≤ k) : spacing n ∣ 2 ^ k :=
  Nat.pow_dvd_pow 2 ((Nat.sub_le _ 52).trans h)

theorem two_pow_log2_le {k : Nat} (h : k < n.log2) : 2 ^ n.log2 ≤ n := by
  refine Nat.log2_self_le ?_
  rintro rfl
  exact absurd h (Nat.not_lt_zero _)

/-- Rounding does not go below a multiple of the spacing. -/
theorem le_rounded (hdvd : spacing n ∣ m) (h : m ≤ n) : m ≤ rounded n := by
  obtain ⟨k, rfl⟩ := hdvd
  rw [Nat.mul_comm] at h ⊢
  refine Nat.mul_le_mul_right _ ?_
  rw [← roundDiv_mul (spacing_pos n) k]
  exact roundDiv_mono h

/-- Rounding does not go above a multiple of the spacing. -/
theorem rounded_le (hdvd : spacing n ∣ m) (h : n ≤ m) : rounded n ≤ m := by
  obtain ⟨k, rfl⟩ := hdvd
  rw [Nat.mul_comm] at h ⊢
  refine Nat.mul_le_mul_right _ ?_
  rw [← roundDiv_mul (spacing_pos n) k]
  exact roundDiv_mono h

/-- A multiple of its spacing is not changed. -/
theorem rounded_of_dvd (h : spacing n ∣ n) : rounded n = n :=
  Nat.le_antisymm (rounded_le h le_rfl) (le_rounded h le_rfl)

/-- Rounding keeps the order. -/
theorem rounded_mono (h : m ≤ n) : rounded m ≤ rounded n := by
  have hlog : m.log2 ≤ n.log2 := by
    rw [Nat.log2_eq_log_two, Nat.log2_eq_log_two]
    exact Nat.log_mono_right h
  rcases hlog.lt_or_eq with hlt | heq
  · -- the power of two between the numbers is a multiple of either spacing
    have hm : m ≤ 2 ^ n.log2 := Nat.lt_log2_self.le.trans (Nat.pow_le_pow_right Nat.two_pos hlt)
    calc rounded m ≤ 2 ^ n.log2 := rounded_le (spacing_dvd_two_pow hlt.le) hm
      _ ≤ rounded n := le_rounded (spacing_dvd_two_pow le_rfl) (two_pow_log2_le hlt)
  · have hspacing : spacing m = spacing n := by rw [spacing, spacing, heq]
    rw [rounded, rounded, hspacing]
    exact Nat.mul_le_mul_right _ (roundDiv_mono h)

/-- Rounding gives the nearest of the counts that are multiples of their spacing. -/
theorem rounded_nearest (hdvd : spacing m ∣ m) (n : Nat) :
    ((rounded n : Int) - n).natAbs ≤ ((m : Int) - n).natAbs := by
  have hnearest {p : Nat} (hp : spacing n ∣ p) :
      ((rounded n : Int) - n).natAbs ≤ ((p : Int) - n).natAbs := by
    obtain ⟨k, rfl⟩ := hp
    rw [Nat.mul_comm]
    exact roundDiv_nearest (spacing_pos n) n k
  rcases Nat.lt_or_ge m.log2 n.log2 with hlt | hge
  · -- the power of two below the number is a multiple of the spacing, and closer
    have hm : m < 2 ^ (m.log2 + 1) := Nat.lt_log2_self
    have hpow : 2 ^ (m.log2 + 1) ≤ 2 ^ n.log2 := Nat.pow_le_pow_right Nat.two_pos hlt
    have hbelow : 2 ^ n.log2 ≤ n := two_pow_log2_le hlt
    have hcloser := hnearest (spacing_dvd_two_pow le_rfl)
    omega
  · exact hnearest (Nat.dvd_trans (Nat.pow_dvd_pow 2 (Nat.sub_le_sub_right hge 52)) hdvd)

/-- Up to 53 bits, followed by zeros, are kept. -/
theorem rounded_mul_pow (h : n ≤ 2 ^ 53) (k : Nat) :
    rounded (n * Nat.pow 2 k) = n * Nat.pow 2 k := by
  rw [Nat.pow_eq]
  refine rounded_of_dvd ?_
  rcases h.lt_or_eq with hlt | rfl
  · have hlog : (n * 2 ^ k).log2 < k + 53 := by
      rw [Nat.log2_eq_log_two]
      refine Nat.log_lt_of_lt_pow' (by omega) ?_
      rw [Nat.pow_add, Nat.mul_comm]
      exact Nat.mul_lt_mul_of_pos_left hlt (Nat.two_pow_pos k)
    exact Nat.dvd_trans (Nat.pow_dvd_pow 2 (by omega)) (Nat.dvd_mul_left (2 ^ k) n)
  · rw [← Nat.pow_add]
    exact spacing_dvd_two_pow Nat.log2_two_pow.le

/-! ## Whole numbers -/

/-- The number one is a power of two in steps. -/
theorem one_eq_pow : ∃ k, one = Nat.pow 2 k := by
  delta one
  exact ⟨1074, by with_reducible rfl⟩

theorem one_pos : 0 < one := by
  obtain ⟨k, hk⟩ := one_eq_pow
  exact hk ▸ Nat.two_pow_pos k

/-- Whole numbers of up to 53 bits are not rounded. -/
theorem rounded_mul_one (h : n ≤ 2 ^ 53) : rounded (n * one) = n * one := by
  obtain ⟨k, hk⟩ := one_eq_pow
  rw [hk, rounded_mul_pow h]

/-- Rounding whole numbers keeps their order. -/
theorem rounded_mul_one_mono (h : m ≤ n) : rounded (m * one) ≤ rounded (n * one) :=
  rounded_mono (Nat.mul_le_mul_right one h)

theorem limit_pos : 0 < limit := by
  delta limit
  generalize 2098 = k
  exact Nat.two_pow_pos k

/-- The double with a sign and a count of steps, which may be too large. -/
def ofSteps (negative : Bool) (steps : Nat) : Double :=
  if limit ≤ steps then infinite negative else finite negative steps

/-- Doubles are in the order of their steps. -/
theorem le_ofSteps {a b : Bool} (h : signed a m ≤ signed b n) :
    (ofSteps a m).le (ofSteps b n) = true := by
  have hlimit := limit_pos
  unfold ofSteps
  generalize limit = l at *
  split_ifs <;> cases a <;> cases b <;> simp [le, signed] at h ⊢ <;> omega

/-- The double nearest to a whole number, which may be infinite. -/
def ofInt (i : Int) : Double := nearest (i < 0) i.natAbs 1

/-- The signed count of steps that a whole number is rounded to. -/
def stepsOf (i : Int) : Int := signed (i < 0) (rounded (i.natAbs * one))

/-- An integer is rounded to a count of steps. -/
theorem ofInt_eq (i : Int) : ofInt i = ofSteps (i < 0) (rounded (i.natAbs * one)) := by
  simp only [ofInt, nearest, Nat.div_one, Nat.one_mul]
  unfold ofSteps rounded
  congr

/-- Larger integers have no fewer steps. -/
theorem stepsOf_mono {i j : Int} (h : i ≤ j) : stepsOf i ≤ stepsOf j := by
  unfold stepsOf signed
  rcases lt_or_ge i 0 with hi | hi <;> rcases lt_or_ge j 0 with hj | hj
  · have hround := rounded_mul_one_mono (by omega : j.natAbs ≤ i.natAbs)
    simp only [hi, hj, decide_true, if_true]
    omega
  · simp only [hi, hj.not_gt, decide_true, decide_false, if_true, Bool.false_eq_true, if_false]
    omega
  · omega
  · have hround := rounded_mul_one_mono (by omega : i.natAbs ≤ j.natAbs)
    simp only [hi.not_gt, hj.not_gt, decide_false, Bool.false_eq_true, if_false]
    omega

/-- The doubles nearest to whole numbers are in the order of the numbers. -/
theorem ofInt_le {i j : Int} (h : i ≤ j) : (ofInt i).le (ofInt j) = true := by
  rw [ofInt_eq, ofInt_eq]
  exact le_ofSteps (stepsOf_mono h)

/-- A whole number that is not zero is not rounded to zero. -/
theorem rounded_pos (hn : 0 < n) : 0 < rounded (n * one) := by
  have hone : rounded (1 * one) = 1 * one := rounded_mul_one (by decide)
  calc 0 < one := one_pos
    _ = rounded (1 * one) := by rw [hone, Nat.one_mul]
    _ ≤ rounded (n * one) := rounded_mul_one_mono hn

/-- There is no negative zero among these doubles, so equal ones are the same. -/
theorem ofSteps_antisymm {a b : Bool} (ha : a = true → 0 < m) (hb : b = true → 0 < n)
    (h : (ofSteps a m).le (ofSteps b n) = true) (h' : (ofSteps b n).le (ofSteps a m) = true) :
    ofSteps a m = ofSteps b n := by
  unfold ofSteps at *
  generalize limit = l at *
  split_ifs at * <;> cases a <;> cases b <;> simp [le, signed] at ha hb h h' ⊢ <;> omega

/-- Doubles of integers are in the order of the integers, or equal. -/
theorem le_ofInt_iff {i j : Int} : (ofInt i).le (ofInt j) = true ↔ i ≤ j ∨ ofInt i = ofInt j := by
  have hsteps (i : Int) : decide (i < 0) = true → 0 < rounded (i.natAbs * one) :=
    fun hi => rounded_pos (by simpa using (of_decide_eq_true hi).ne)
  constructor
  · intro h
    rcases le_or_gt i j with hij | hji
    · exact .inl hij
    · have h' := ofInt_le hji.le
      rw [ofInt_eq i, ofInt_eq j] at h h' ⊢
      exact .inr (ofSteps_antisymm (hsteps i) (hsteps j) h h')
  · rintro (h | h)
    · exact ofInt_le h
    · rw [h]
      exact ofInt_le le_rfl

/-! ## Exact numbers -/

theorem signed_mul_one (i : Int) : signed (i < 0) (i.natAbs * one) = i * one := by
  unfold signed
  rcases lt_or_ge i 0 with hi | hi
  · rw [if_pos (decide_eq_true hi), Int.natCast_mul, Int.ofNat_natAbs_of_nonpos hi.le, Int.neg_mul,
      Int.neg_neg]
  · rw [if_neg (by simpa using hi), Int.natCast_mul, Int.natAbs_of_nonneg hi]

/-- Exact numbers are in the order of the integers. -/
theorem exactly_le_iff {i j : Int} : (exactly i).le (exactly j) = true ↔ i ≤ j := by
  rw [exactly, exactly, finite_le_finite, signed_mul_one, signed_mul_one, decide_eq_true_iff]
  exact Int.mul_le_mul_right (by exact_mod_cast one_pos)

/-- Integers of up to 53 bits are doubles. -/
theorem ofInt_eq_exactly {i : Int} (h : i.natAbs ≤ 2 ^ 53) : ofInt i = exactly i := by
  have hlimit : ¬limit ≤ i.natAbs * one := by
    have hbound : 2 ^ 53 * one < limit := by decide +kernel
    exact Nat.not_le.mpr ((Nat.mul_le_mul_right one h).trans_lt hbound)
  rw [ofInt_eq, rounded_mul_one h, ofSteps, if_neg hlimit, exactly]

/-- A number of less than 54 bits shares its double with no other whole number. -/
theorem eq_of_ofInt_eq {i j : Int} (hsmall : i.natAbs < 2 ^ 53 ∨ j.natAbs < 2 ^ 53)
    (h : ofInt i = ofInt j) : i = j := by
  have hnext {i j : Int} (hi : i.natAbs < 2 ^ 53) (h : ofInt i = ofInt j) : j ≤ i := by
    by_contra hij
    have hle : (ofInt (i + 1)).le (ofInt j) = true := ofInt_le (by omega)
    rw [← h, ofInt_eq_exactly hi.le, ofInt_eq_exactly (by omega : (i + 1).natAbs ≤ 2 ^ 53),
      exactly_le_iff] at hle
    omega
  have hprevious {i j : Int} (hi : i.natAbs < 2 ^ 53) (h : ofInt i = ofInt j) : i ≤ j := by
    by_contra hij
    have hle : (ofInt j).le (ofInt (i - 1)) = true := ofInt_le (by omega)
    rw [← h, ofInt_eq_exactly hi.le, ofInt_eq_exactly (by omega : (i - 1).natAbs ≤ 2 ^ 53),
      exactly_le_iff] at hle
    omega
  rcases hsmall with hi | hj
  · exact Int.le_antisymm (hprevious hi h) (hnext hi h)
  · exact Int.le_antisymm (hnext hj h.symm) (hprevious hj h.symm)

/-! ## Numbers beyond the doubles -/

/-- The least whole number that is too large for a double, halfway between the greatest and the
power of two that follows. -/
def overflow : Nat := Nat.pow 2 1024 - Nat.pow 2 970

/-- A whole number is rounded to a double just below the overflow. -/
theorem rounded_lt_limit_iff : rounded (n * one) < limit ↔ n < overflow := by
  have hbelow : rounded ((overflow - 1) * one) < limit := by decide +kernel
  have habove : limit ≤ rounded (overflow * one) := by decide +kernel
  constructor
  · intro h
    by_contra hn
    exact absurd (habove.trans (rounded_mul_one_mono (Nat.not_lt.mp hn))) (Nat.not_le.mpr h)
  · intro h
    exact (rounded_mul_one_mono (Nat.le_sub_one_of_lt h)).trans_lt hbelow

theorem ofInt?_eq (i : Int) : ofInt? i = match ofInt i with
    | finite negative steps => some (finite negative steps)
    | _ => none := by
  have hround : ofInt i = nearest (i < 0) i.natAbs 1 := rfl
  -- neither function may be there to be unfolded, for then the rounding of a variable is evaluated
  obtain ⟨f, hf⟩ : ∃ f, f = ofInt? := ⟨_, rfl⟩
  rw [← hf]
  unfold ofInt? at hf
  obtain ⟨round, hnearest⟩ : ∃ round, round = nearest := ⟨_, rfl⟩
  rw [← hnearest] at hf hround
  rw [hround]
  exact congrFun hf i

/-- An integer below the overflow has a double. -/
theorem ofInt?_eq_some {i : Int} (h : i.natAbs < overflow) : ofInt? i = some (ofInt i) := by
  have hnot : ¬limit ≤ rounded (i.natAbs * one) := Nat.not_le.mpr (rounded_lt_limit_iff.mpr h)
  rw [ofInt?_eq, ofInt_eq, ofSteps, if_neg hnot]

/-- All others have none. -/
theorem ofInt?_eq_none {i : Int} (h : overflow ≤ i.natAbs) : ofInt? i = none := by
  have hlimit : limit ≤ rounded (i.natAbs * one) :=
    Nat.not_lt.mp (mt rounded_lt_limit_iff.mp (Nat.not_lt.mpr h))
  rw [ofInt?_eq, ofInt_eq, ofSteps, if_pos hlimit]

end FormRules.Double
