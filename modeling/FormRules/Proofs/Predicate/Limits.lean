import FormRules.Proofs.Number.Decimal
import FormRules.Proofs.Predicate.Ranges

/-!
# Limits that are whole numbers

The predicates for limits compare doubles. So a whole number that is compared with whole limits is
compared exactly, but that numbers with the same nearest double count as equal
(`Catalog.limits_iff_nearest`), which can only be where both have more than 53 bits.
-/

namespace FormRules

open Predicate

/-- A whole number, as it is or as a text, that can be compared with doubles. -/
inductive Value.WholeNumber (i : Int) : Value → Prop
  | text : WholeNumber i (.text (toString i))
  | int (h : i.natAbs < Double.overflow) : WholeNumber i (.int i)

theorem Check.liftM_ok {α : Type} (a : α) : (liftM (Except.ok a : Attempt α) : Check α) = pure a :=
  rfl

namespace Value.WholeNumber

variable {i : Int} {v : Value}

/-- A whole number is taken for its double. -/
theorem toNumber (h : WholeNumber i v) : v.toNumber = .ok (some (Double.ofInt i)) := by
  cases h with
  | text => exact congrArg Except.ok (Double.ofText?_toString i)
  | int h =>
    rw [toNumber_int, Double.ofInt?_eq_some h]
    rfl

theorem isEmpty (h : WholeNumber i v) : v.isEmpty = false := by
  cases h with
  | text => exact isBlankText_toString i
  | int h => rfl

end Value.WholeNumber

namespace Predicate

variable {value lo hi : Value} {d low high : Double}

theorem numericParameter_eq (hlow : lo.toNumber = .ok (some low)) (validation : String) :
    numericParameter validation lo = pure (some low) := by
  rw [numericParameter, hlow]
  rfl

/-- Where both are numbers, the number is compared with the limit. -/
theorem comparedNumber_eq (hvalue : value.isEmpty = false) (hd : value.toNumber = .ok (some d))
    (hlow : lo.toNumber = .ok (some low)) (validation : String) (holds : Double → Double → Bool) :
    comparedNumber validation holds value [lo] = pure (holds d low) := by
  simp only [comparedNumber, upToOne, Check.liftM_ok, Check.pure_bind, hvalue, Bool.false_eq_true,
    if_false, numericParameter_eq hlow, hd]

/-- A range compares with both of its ends. -/
theorem between_eq (hvalue : value.isEmpty = false) (hd : value.toNumber = .ok (some d))
    (hlow : lo.toNumber = .ok (some low)) (hhigh : hi.toNumber = .ok (some high)) :
    between value [lo, hi] = pure (low.le d && d.le high) := by
  simp only [between, bounds, Check.liftM_ok, Check.pure_bind, hvalue, Bool.false_eq_true, if_false,
    numericParameter_eq hlow, numericParameter_eq hhigh, hd]

end Predicate

namespace Catalog

section

variable {i : Int} {v : Value} (hv : v.WholeNumber i) (context : Option Context) (a b : Int)
include hv

/-- A lower limit compares the doubles of whole numbers. -/
theorem min_whole : callBuiltin "min" v [.text (toString a)] context =
    pure ((Double.ofInt a).le (Double.ofInt i)) :=
  (callBuiltin_plain rfl v _ context).trans
    (comparedNumber_eq hv.isEmpty hv.toNumber Value.WholeNumber.text.toNumber "min" fun d bound =>
      bound.le d)

/-- So does an upper limit. -/
theorem max_whole : callBuiltin "max" v [.text (toString b)] context =
    pure ((Double.ofInt i).le (Double.ofInt b)) :=
  (callBuiltin_plain rfl v _ context).trans
    (comparedNumber_eq hv.isEmpty hv.toNumber Value.WholeNumber.text.toNumber "max" fun d bound =>
      d.le bound)

/-- So does a range. -/
theorem between_whole : callBuiltin "between" v [.text (toString a), .text (toString b)] context =
    pure ((Double.ofInt a).le (Double.ofInt i) && (Double.ofInt i).le (Double.ofInt b)) :=
  (callBuiltin_plain rfl v _ context).trans
    (between_eq hv.isEmpty hv.toNumber Value.WholeNumber.text.toNumber
      Value.WholeNumber.text.toNumber)

/-- **Whole limits are compared through the nearest doubles.** A whole number, given as such or by
its text, meets a limit just if it lies on the right side or has the same nearest double as the
limit. If one of the two has no more than 53 bits, they have the same double only if they are the
same number. -/
theorem limits_iff_nearest :
    callBuiltin "min" v [.text (toString a)] context =
      pure (decide (a ≤ i ∨ Double.ofInt a = Double.ofInt i)) ∧
    callBuiltin "max" v [.text (toString b)] context =
      pure (decide (i ≤ b ∨ Double.ofInt i = Double.ofInt b)) ∧
    callBuiltin "between" v [.text (toString a), .text (toString b)] context =
      pure (decide ((a ≤ i ∨ Double.ofInt a = Double.ofInt i) ∧
        (i ≤ b ∨ Double.ofInt i = Double.ofInt b))) ∧
    ∀ j : Int, i.natAbs < 2 ^ 53 ∨ j.natAbs < 2 ^ 53 →
      (Double.ofInt i = Double.ofInt j ↔ i = j) := by
  have hle (i j : Int) : (Double.ofInt i).le (Double.ofInt j) =
      decide (i ≤ j ∨ Double.ofInt i = Double.ofInt j) := by
    rw [Bool.eq_iff_iff, Double.le_ofInt_iff, decide_eq_true_iff]
  rw [min_whole hv, max_whole hv, between_whole hv, hle, hle, Bool.decide_and]
  exact ⟨rfl, rfl, rfl, fun j hsmall => ⟨Double.eq_of_ofInt_eq hsmall, congrArg Double.ofInt⟩⟩

end

end Catalog

namespace WholeLimits

/-- Five lies between one and nine, and is more than four. -/
theorem five_between :
    Catalog.callBuiltin "between" (.int 5)
      [.text (toString (1 : Int)), .text (toString (9 : Int))] none =
      pure true ∧
    Catalog.callBuiltin "max" (.int 5) [.text (toString (4 : Int))] none = pure false := by
  have hfive : (Value.int 5).WholeNumber 5 := .int (by decide +kernel)
  obtain ⟨-, hmax, -, hexact⟩ := Catalog.limits_iff_nearest hfive none 1 4
  obtain ⟨-, -, hbetween, -⟩ := Catalog.limits_iff_nearest hfive none 1 9
  have hfour : ¬Double.ofInt 5 = Double.ofInt 4 :=
    fun h => absurd ((hexact 4 (.inl (by decide))).mp h) (by decide)
  refine ⟨hbetween.trans ?_, hmax.trans ?_⟩
  · rw [decide_eq_true ⟨.inl (by decide), .inl (by decide)⟩]
  · rw [decide_eq_false (not_or.mpr ⟨by decide, hfour⟩)]

/-- The least odd number with 54 bits has no double of its own, so the number before it meets it as
a limit. And the least number beyond the doubles cannot be compared unless it is given by its
text. -/
theorem previous_passes :
    (¬∀ i a : Int, Catalog.callBuiltin "min" (.int i) [.text (toString a)] none =
      pure (decide (a ≤ i))) ∧
    Catalog.verdict (fun _ => .error .noContext) none "min" (.int Double.overflow) [.text "5"] =
      .error .beyondDoubles := by
  refine ⟨fun h => ?_, ?_⟩
  · have hnumber : (Value.int (2 ^ 53)).WholeNumber (2 ^ 53) := .int (by decide +kernel)
    have hle : (Double.ofInt (2 ^ 53 + 1)).le (Double.ofInt (2 ^ 53)) = true := by decide +kernel
    have hpasses := Catalog.min_whole hnumber none (2 ^ 53 + 1)
    rw [h, hle] at hpasses
    have hdecided := congrArg (fun c => (Check.outcome (fun _ => .error .noContext) c).1) hpasses
    exact absurd hdecided (by decide)
  · have hnone : Double.ofInt? Double.overflow = none := by decide +kernel
    have hnumber : (Value.int Double.overflow).toNumber = .error .beyondDoubles := by
      rw [Value.toNumber_int, hnone]
      rfl
    have hlimit : (Value.text "5").toNumber = .ok (Double.ofText? "5".toList) := rfl
    rw [Catalog.verdict, Catalog.callBuiltin_plain rfl]
    exact (comparedNumber_error_iff rfl hlimit "min" fun d bound => bound.le d).mpr hnumber

end WholeLimits

end FormRules
