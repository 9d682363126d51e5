import FormRules.Proofs.Predicate.Tokens

/-!
# Ranges and their ends

A range is checked by a predicate of its own, which reads both ends before it looks at the value. It
agrees with the two predicates for a single end (`Catalog.range_iff_limits`): the range holds where
both limits do, whatever the value and the ends are, and it aborts where one of the limits aborts,
in the same way.
-/

namespace FormRules

namespace Value

variable {v : Value}

theorem toNumber_of_eq_int {i : Int} (hv : v = .int i) : v.toNumber =
    (Double.ofInt? i).elim (.error .beyondDoubles) fun d => .ok (some d) := by
  unfold toNumber
  -- the rounding of a variable cannot be evaluated, so it must not be there to be evaluated
  obtain ⟨nearest?, hnearest⟩ : ∃ nearest?, nearest? = Double.ofInt? := ⟨_, rfl⟩
  rw [← hnearest]
  subst hv
  dsimp only
  cases nearest? i <;> rfl

/-- An integer is taken for its double, unless it is beyond the doubles. -/
theorem toNumber_int (i : Int) : (Value.int i).toNumber =
    (Double.ofInt? i).elim (.error .beyondDoubles) fun d => .ok (some d) :=
  toNumber_of_eq_int rfl

/-- The only thing in the way of taking a value for a number is a whole number beyond the
doubles. -/
theorem eq_of_toNumber_error {fault : Fault} (h : v.toNumber = .error fault) :
    fault = .beyondDoubles := by
  cases v with
  | int i =>
    rw [toNumber_int] at h
    generalize Double.ofInt? i = d at h
    cases d with
    | none => exact (Except.error.inj h).symm
    | some d => cases h
  | _ => cases h

end Value

namespace Predicate

variable {answer : (q : Request) → Attempt q.Reply} {value lo hi : Value}

/-- Two parameters are a range if both are numbers. -/
theorem rangeOf_pair (lo hi : Value) : rangeOf [lo, hi] = do
    let low ← lo.toNumber
    let high ← hi.toNumber
    match low, high with
    | some low, some high => return some (low, high)
    | _, _ => return none := by
  cases lo <;> rfl

/-- A range holds where both its limits hold. -/
theorem between_of_limits {atLeast atMost : Bool}
    (hmin : ((minimum value [lo]).outcome answer).1 = .ok atLeast)
    (hmax : ((maximum value [hi]).outcome answer).1 = .ok atMost) :
    ((between value [lo, hi]).outcome answer).1 = .ok (atLeast && atMost) := by
  unfold minimum at hmin
  unfold maximum at hmax
  cases hvalue : value.isEmpty with
  | true =>
    rw [comparedNumber_of_isEmpty hvalue rfl] at hmin hmax
    rw [between_of_isEmpty hvalue]
    cases hmin
    cases hmax
    rfl
  | false =>
    rw [outcome_comparedNumber hvalue rfl] at hmin hmax
    rw [outcome_between hvalue, rangeOf_pair]
    generalize lo.toNumber = low at *
    generalize hi.toNumber = high at *
    generalize value.toNumber = d at *
    rcases low with _ | _ | low <;> rcases high with _ | _ | high <;> rcases d with _ | _ | d <;>
      simp_all [bind, Except.bind, pure, Except.pure]

/-- A range aborts where one of its limits does: where an end or the value is too large for a
number. -/
theorem between_aborts_iff (fault : Fault) :
    ((between value [lo, hi]).outcome answer).1 = .error fault ↔
      ((minimum value [lo]).outcome answer).1 = .error fault ∨
        ((maximum value [hi]).outcome answer).1 = .error fault := by
  unfold minimum maximum
  cases hvalue : value.isEmpty with
  | true =>
    rw [between_of_isEmpty hvalue, comparedNumber_of_isEmpty hvalue rfl,
      comparedNumber_of_isEmpty hvalue rfl]
    simp
  | false =>
    rw [outcome_between hvalue, rangeOf_pair, outcome_comparedNumber hvalue rfl,
      outcome_comparedNumber hvalue rfl]
    -- which of the numbers is too large makes no difference, for the fault is the same
    have hlow := fun fault => @Value.eq_of_toNumber_error lo fault
    have hhigh := fun fault => @Value.eq_of_toNumber_error hi fault
    have hd := fun fault => @Value.eq_of_toNumber_error value fault
    generalize lo.toNumber = low at *
    generalize hi.toNumber = high at *
    generalize value.toNumber = d at *
    rcases low with _ | _ | low <;> rcases high with _ | _ | high <;> rcases d with _ | _ | d <;>
      simp_all [bind, Except.bind, pure, Except.pure]

/-- A range of lengths holds where both its limits hold. -/
theorem betweenLength_of_limits {atLeast atMost : Bool}
    (hmin : ((minLength value [lo]).outcome answer).1 = .ok atLeast)
    (hmax : ((maxLength value [hi]).outcome answer).1 = .ok atMost) :
    ((betweenLength value [lo, hi]).outcome answer).1 = .ok (atLeast && atMost) := by
  unfold minLength at hmin
  unfold maxLength at hmax
  cases hvalue : value.isEmpty with
  | true =>
    rw [comparedLength_of_isEmpty hvalue rfl] at hmin hmax
    rw [betweenLength_of_isEmpty hvalue]
    cases hmin
    cases hmax
    rfl
  | false =>
    rw [outcome_comparedLength hvalue rfl] at hmin hmax
    rw [outcome_betweenLength hvalue, rangeOf_pair]
    generalize lo.toNumber = low at *
    generalize hi.toNumber = high at *
    generalize value.length = n at *
    rcases low with _ | _ | low <;> rcases high with _ | _ | high <;> rcases n with _ | n <;>
      simp_all [bind, Except.bind, pure, Except.pure, inRange]

end Predicate

namespace Catalog

variable (answer : (q : Request) → Attempt q.Reply) (context : Option Context)

/-- What a built-in predicate comes to where requests are answered in the given way. -/
def verdict (name : String) (value : Value) (parameters : List Value) : Attempt Bool :=
  ((callBuiltin name value parameters context).outcome answer).1

/-- The verdict of a predicate that sees the value and the parameters only. -/
theorem verdict_plain {name description : String} {f : Value → List Value → Check Bool}
    (h : builtins.resolve name = some (plain name f description)) (value : Value)
    (parameters : List Value) : verdict answer context name value parameters =
      ((f value parameters).outcome answer).1 := by
  rw [verdict, callBuiltin_plain h]

/-- **A range is the conjunction of its limits.** Where the two limits come to a result, the range
comes to both of them, for any value and for ends of any kind; and it aborts just where a limit
does. -/
theorem range_iff_limits (value lo hi : Value) :
    (∀ atLeast atMost, verdict answer context "min" value [lo] = .ok atLeast →
      verdict answer context "max" value [hi] = .ok atMost →
      verdict answer context "between" value [lo, hi] = .ok (atLeast && atMost)) ∧
    (∀ atLeast atMost, verdict answer context "minLength" value [lo] = .ok atLeast →
      verdict answer context "maxLength" value [hi] = .ok atMost →
      verdict answer context "betweenLength" value [lo, hi] = .ok (atLeast && atMost)) ∧
    ∀ fault, verdict answer context "between" value [lo, hi] = .error fault ↔
      verdict answer context "min" value [lo] = .error fault ∨
        verdict answer context "max" value [hi] = .error fault := by
  have hmin : verdict answer context "min" value [lo] = _ :=
    verdict_plain answer context rfl value [lo]
  have hmax : verdict answer context "max" value [hi] = _ :=
    verdict_plain answer context rfl value [hi]
  have hbetween : verdict answer context "between" value [lo, hi] = _ :=
    verdict_plain answer context rfl value [lo, hi]
  have hminLength : verdict answer context "minLength" value [lo] = _ :=
    verdict_plain answer context rfl value [lo]
  have hmaxLength : verdict answer context "maxLength" value [hi] = _ :=
    verdict_plain answer context rfl value [hi]
  have hbetweenLength : verdict answer context "betweenLength" value [lo, hi] = _ :=
    verdict_plain answer context rfl value [lo, hi]
  rw [hmin, hmax, hbetween, hminLength, hmaxLength, hbetweenLength]
  exact ⟨fun _ _ => Predicate.between_of_limits, fun _ _ => Predicate.betweenLength_of_limits,
    Predicate.between_aborts_iff⟩

end Catalog

namespace FiveOfNine

/-- What is made of a text that should lie between one and nine, or have so many characters. -/
def inRange (name value : String) : Attempt Bool :=
  Catalog.verdict (fun _ => .error .noContext) none name (.text value) [.text "1", .text "9"]

/-- Five lies between one and nine, for it is at least one and at most nine; and it has one
character. Ten is too much, but has two characters; and no text with ten characters is in range. -/
theorem five_in_range :
    inRange "between" "5" = .ok true ∧ inRange "betweenLength" "5" = .ok true ∧
    inRange "between" "10" = .ok false ∧ inRange "betweenLength" "10" = .ok true ∧
    inRange "betweenLength" "0123456789" = .ok false := by
  have hranges (value : String) := Catalog.range_iff_limits (fun _ => .error .noContext) none
    (.text value) (.text "1") (.text "9")
  obtain ⟨hfive, hfiveLength, -⟩ := hranges "5"
  obtain ⟨hten, htenLength, -⟩ := hranges "10"
  exact ⟨hfive true true (by decide +kernel) (by decide +kernel),
    hfiveLength true true (by decide +kernel) (by decide +kernel),
    hten true false (by decide +kernel) (by decide +kernel),
    htenLength true true (by decide +kernel) (by decide +kernel),
    (hranges "0123456789").2.1 true false (by decide +kernel) (by decide +kernel)⟩

end FiveOfNine

end FormRules
