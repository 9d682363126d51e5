import FormRules.Proofs.Number.Nearest
import FormRules.Proofs.Predicate.Optional
import FormRules.Proofs.Predicate.Ranges

/-!
# Numbers and limits

What is accepted as a number should be comparable with what is accepted as a number. All doubles but
`nan` are in one order (`Double.le_total`), infinities and both zeros included, so the number of a
value is not below a limit or not above it (`Catalog.number_meets_a_limit`). Two texts are accepted
as numbers and still are no limits to compare with: a blank one, which passes because there is
nothing in it to check, and one that spells `nan` (`Incomparable.accepted_without_order`).
-/

namespace FormRules

open Text

namespace Double

/-- Of two doubles that are not `nan`, one is not above the other. -/
theorem le_total {x y : Double} (hx : x ≠ nan) (hy : y ≠ nan) : x.le y = true ∨ y.le x = true := by
  rcases x with _ | (_ | _) | ⟨a, m⟩
  · exact absurd rfl hx
  · -- infinity is above everything
    rcases y with _ | (_ | _) | ⟨b, n⟩
    · exact absurd rfl hy
    · exact .inl rfl
    · exact .inr rfl
    · exact .inr rfl
  · -- and its negative below
    rcases y with _ | _ | _
    · exact absurd rfl hy
    · exact .inl rfl
    · exact .inl rfl
  · rcases y with _ | (_ | _) | ⟨b, n⟩
    · exact absurd rfl hy
    · exact .inl rfl
    · exact .inr rfl
    · rw [finite_le_finite, finite_le_finite, decide_eq_true_iff, decide_eq_true_iff]
      exact Int.le_total _ _

end Double

/-- The value is read as `nan`. -/
def Value.IsNan (v : Value) : Prop := v.toNumber = .ok (some .nan)

/-- Nothing is read from a blank text. -/
theorem Value.toNumber_of_isBlankText {s : String} (h : isBlankText s.toList = true) :
    (Value.text s).toNumber = .ok none := by
  have htrim : trim s.toList = [] := trim_eq_nil_iff.mpr h
  have hnone : Double.ofText? s.toList = none := by
    rw [Double.ofText?, htrim]
    rfl
  exact congrArg Except.ok hnone

namespace Predicate

variable {answer : (q : Request) → Attempt q.Reply} {value : Value}

/-- A value that is not empty and passes as a number has one. -/
theorem exists_number (hvalue : value.isEmpty = false)
    (h : ((number value []).outcome answer).1 = .ok true) : ∃ d, value.toNumber = .ok (some d) := by
  rw [outcome_number hvalue] at h
  rcases hd : value.toNumber with fault | _ | d
  · rw [hd] at h
    cases h
  · rw [hd] at h
    cases h
  · exact ⟨d, rfl⟩

/-- The comparison of two numbers. -/
theorem comparedNumber_numbers (hvalue : value.isEmpty = false) {limit : Value} {d bound : Double}
    (hd : value.toNumber = .ok (some d)) (hbound : limit.toNumber = .ok (some bound))
    (validation : String) (holds : Double → Double → Bool) :
    ((comparedNumber validation holds value [limit]).outcome answer).1 = .ok (holds d bound) := by
  rw [outcome_comparedNumber hvalue rfl, hd, hbound]
  rfl

/-- Without a number as the limit the comparison fails. -/
theorem comparedNumber_malformed (hvalue : value.isEmpty = false) {limit : Value} {d : Double}
    (hd : value.toNumber = .ok (some d)) (hlimit : limit.toNumber = .ok none) (validation : String)
    (holds : Double → Double → Bool) :
    ((comparedNumber validation holds value [limit]).outcome answer).1 = .ok false := by
  rw [outcome_comparedNumber hvalue rfl, hd, hlimit]
  rfl

end Predicate

namespace Catalog

open Predicate

variable (answer : (q : Request) → Attempt q.Reply) (context : Option Context)

/-- **What is accepted as a number meets a limit from one side or the other**, if the text of the
limit is accepted as a number as well, is not blank, and neither of the two is `nan`. A blank limit
is none, and is met from neither side. -/
theorem number_meets_a_limit {value : Value} {limit : String} (hvalue : value.isEmpty = false)
    (hnumber : verdict answer context "number" value [] = .ok true)
    (hlimit : verdict answer context "number" (.text limit) [] = .ok true) :
    (isBlankText limit.toList = false → ¬value.IsNan → ¬(Value.text limit).IsNan →
      verdict answer context "min" value [.text limit] = .ok true ∨
        verdict answer context "max" value [.text limit] = .ok true) ∧
    (isBlankText limit.toList = true →
      verdict answer context "min" value [.text limit] = .ok false ∧
        verdict answer context "max" value [.text limit] = .ok false) := by
  have hmin : verdict answer context "min" value [.text limit] = _ :=
    verdict_plain answer context rfl value [.text limit]
  have hmax : verdict answer context "max" value [.text limit] = _ :=
    verdict_plain answer context rfl value [.text limit]
  rw [verdict_plain answer context rfl] at hnumber hlimit
  obtain ⟨d, hd⟩ := exists_number hvalue hnumber
  rw [hmin, hmax]
  constructor
  · intro hblank hnan hnan'
    obtain ⟨bound, hbound⟩ : ∃ bound, (Value.text limit).toNumber = .ok (some bound) :=
      exists_number hblank hlimit
    have hne : d ≠ .nan := by
      rintro rfl
      exact hnan hd
    have hne' : bound ≠ .nan := by
      rintro rfl
      exact hnan' hbound
    rcases Double.le_total hne' hne with hle | hle
    · refine .inl ((comparedNumber_numbers hvalue hd hbound _ _).trans ?_)
      rw [hle]
    · refine .inr ((comparedNumber_numbers hvalue hd hbound _ _).trans ?_)
      rw [hle]
  · intro hblank
    have hnone := Value.toNumber_of_isBlankText hblank
    exact ⟨comparedNumber_malformed hvalue hd hnone _ _,
      comparedNumber_malformed hvalue hd hnone _ _⟩

end Catalog

namespace Incomparable

/-- A negative number in digits of another script meets a limit in scientific form, and a blank
limit is accepted as a number but met by nothing. -/
theorem five_meets_a_limit :
    (Catalog.verdict (fun _ => .error .noContext) none "min" (.text " -٥ ") [.text "1_0e-1"] =
      .ok true ∨
      Catalog.verdict (fun _ => .error .noContext) none "max" (.text " -٥ ") [.text "1_0e-1"] =
        .ok true) ∧
    Catalog.verdict (fun _ => .error .noContext) none "min" (.text " -٥ ") [.text " "] =
      .ok false := by
  have hfive : Catalog.verdict (fun _ => .error .noContext) none "number" (.text " -٥ ") [] =
      .ok true := by
    decide +kernel
  have hone : Catalog.verdict (fun _ => .error .noContext) none "number" (.text "1_0e-1") [] =
      .ok true := by
    decide +kernel
  have hblank : Catalog.verdict (fun _ => .error .noContext) none "number" (.text " ") [] =
      .ok true := by
    decide
  have hnumber : (Value.text " -٥ ").toNumber = .ok (some (.exactly (-5))) := by decide +kernel
  have hlimit : (Value.text "1_0e-1").toNumber = .ok (some (.exactly 1)) := by decide +kernel
  refine ⟨(Catalog.number_meets_a_limit _ _ (by decide) hfive hone).1 (by decide)
    (fun h => ?_) fun h => ?_,
    ((Catalog.number_meets_a_limit _ _ (by decide) hfive hblank).2 (by decide)).1⟩
  · cases hnumber.symm.trans h
  · cases hlimit.symm.trans h

/-- Two limits are accepted as numbers, and no number meets them from either side: the blank one,
and `nan`. -/
theorem accepted_without_order :
    (¬∀ value limit, value.isEmpty = false →
      Catalog.verdict (fun _ => .error .noContext) none "number" value [] = .ok true →
      Catalog.verdict (fun _ => .error .noContext) none "number" (.text limit) [] = .ok true →
      Catalog.verdict (fun _ => .error .noContext) none "min" value [.text limit] = .ok true ∨
        Catalog.verdict (fun _ => .error .noContext) none "max" value [.text limit] = .ok true) ∧
    Catalog.verdict (fun _ => .error .noContext) none "number" (.text "nan") [] = .ok true ∧
    Catalog.verdict (fun _ => .error .noContext) none "min" (.text "5") [.text "nan"] = .ok false ∧
    Catalog.verdict (fun _ => .error .noContext) none "max" (.text "5") [.text "nan"] =
      .ok false := by
  refine ⟨fun h => ?_, by decide +kernel, by decide +kernel, by decide +kernel⟩
  have hmin : Catalog.verdict (fun _ => .error .noContext) none "min" (.text "5") [.text ""] =
      .ok false := by
    decide +kernel
  have hmax : Catalog.verdict (fun _ => .error .noContext) none "max" (.text "5") [.text ""] =
      .ok false := by
    decide +kernel
  rcases h (.text "5") "" (by decide) (by decide +kernel) (by decide +kernel) with h | h
  · cases hmin.symm.trans h
  · cases hmax.symm.trans h

end Incomparable

end FormRules
