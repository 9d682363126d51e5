import FormRules.Proofs.Predicate.Aborts

/-!
# What predicates report

A check is candid if all it writes to the journal are reports, under its own name, of parameters
that it cannot use, and if it does not pass where it has reported one (`Check.Candid`). All built-in
predicates are (`Catalog.candid_builtin`): each of them reports in the place where it looks for a
limit, a range, a day or a name, and fails without one. So the journal tells of no rule that passes.
-/

namespace FormRules

/-- The record is a predicate's report of a parameter. -/
def Record.Reports (validation : String) (r : Record) : Prop :=
  ∃ parameter, r = .malformed validation parameter

namespace Check

/-- However its requests are answered, the check writes nothing but reports of parameters, and
nothing at all if it passes. -/
def Candid (validation : String) (c : Check Bool) : Prop :=
  ∀ answer, (∀ r ∈ (c.outcome answer).2, r.Reports validation) ∧
    ((c.outcome answer).1 = .ok true → (c.outcome answer).2 = [])

variable {c : Check Bool} {validation : String}

/-- A predicate that reports nothing is candid. -/
theorem candid_of_silent (h : ∀ answer, (c.outcome answer).2 = []) : c.Candid validation := by
  intro answer
  rw [h answer]
  exact ⟨by simp, fun _ => rfl⟩

/-- A decision without any work is candid. -/
theorem candid_pure (b : Bool) : (pure b : Check Bool).Candid validation :=
  candid_of_silent fun _ => rfl

/-- A report and a failure. -/
theorem candid_malformed {parameter : Value} {answer : (q : Request) → Attempt q.Reply}
    (h : c.outcome answer = (.ok false, [.malformed validation parameter])) :
    (∀ r ∈ (c.outcome answer).2, r.Reports validation) ∧
      ((c.outcome answer).1 = .ok true → (c.outcome answer).2 = []) := by
  rw [h]
  refine ⟨fun r hr => ?_, nofun⟩
  exact ⟨parameter, List.mem_singleton.mp hr⟩

end Check

namespace Predicate

open Check

variable {value : Value} {parameters : List Value} {limit : Value}

/-! ## Reports where a number or a range is looked for -/

/-- What is reported of a parameter that is no number is a malformed parameter. -/
theorem reports_notNumeric (validation : String) (parameter : Value) :
    ∀ r ∈ notNumeric validation parameter, r.Reports validation := by
  unfold notNumeric
  split
  · exact List.forall_mem_singleton.mpr ⟨_, rfl⟩
  · simp

/-- What is reported of parameters that are no range is malformed parameters. -/
theorem reports_notRange (validation : String) (parameters : List Value) :
    ∀ r ∈ notRange validation parameters, r.Reports validation := by
  unfold notRange
  split
  · intro r hr
    rcases List.mem_append.mp hr with hr | hr
    · exact reports_notNumeric _ _ r hr
    · split at hr
      · exact reports_notNumeric _ _ r hr
      · cases hr
  · exact List.forall_mem_singleton.mpr ⟨_, rfl⟩

/-- Two numbers are not reported. -/
theorem notRange_of_rangeOf {range : Double × Double} (h : rangeOf parameters = .ok (some range))
    (validation : String) : notRange validation parameters = [] := by
  unfold rangeOf at h
  unfold notRange notNumeric
  generalize spread parameters = given at h ⊢
  rcases given with _ | ⟨p, _ | ⟨q, _ | ⟨_, _⟩⟩⟩
  · cases h
  · cases h
  · rcases hp : p.toNumber with _ | _ | low <;> rcases hq : q.toNumber with _ | _ | high <;>
      simp_all [bind, Except.bind, pure, Except.pure]
  · cases h

/-- A check that looks for a number first and does not pass without one. -/
theorem candid_of_number {c : Check Bool} {validation : String} {x : Option Double → Attempt Bool}
    (h : ∀ answer, c.outcome answer = (limit.toNumber >>= x, notNumeric validation limit))
    (hx : x none ≠ .ok true) : c.Candid validation := by
  intro answer
  rw [h answer]
  refine ⟨reports_notNumeric validation limit, fun hpasses => ?_⟩
  obtain ⟨bound, hbound, hpasses⟩ := Run.eq_ok_of_bind hpasses
  rcases bound with _ | bound
  · exact absurd hpasses hx
  · simp only [notNumeric, hbound]

/-- A check that looks for a range first and does not pass without one. -/
theorem candid_of_range {c : Check Bool} {validation : String}
    {x : Option (Double × Double) → Attempt Bool}
    (h : ∀ answer, c.outcome answer = (rangeOf parameters >>= x, notRange validation parameters))
    (hx : x none ≠ .ok true) : c.Candid validation := by
  intro answer
  rw [h answer]
  refine ⟨reports_notRange validation parameters, fun hpasses => ?_⟩
  obtain ⟨range, hrange, hpasses⟩ := Run.eq_ok_of_bind hpasses
  rcases range with _ | range
  · exact absurd hpasses hx
  · exact notRange_of_rangeOf hrange validation

/-! ## The families -/

/-- A check that an empty value passes. -/
theorem candid_of_isEmpty {c : Check Bool} {validation : String}
    (hempty : value.isEmpty = true → c = pure true)
    (h : value.isEmpty = false → c.Candid validation) : c.Candid validation := by
  cases hvalue : value.isEmpty with
  | true =>
    rw [hempty hvalue]
    exact candid_pure true
  | false => exact h hvalue

theorem candid_required : (required value []).Candid "required" := candid_pure _

theorem candid_accepted : (accepted value []).Candid "accepted" := by
  refine candid_of_silent fun answer => ?_
  have htext : ((do return acceptedTexts.contains (Text.lower (Text.strip (← value.plainText))) :
      Check Bool).outcome answer).2 = [] := by
    rw [Check.outcome_lift_bind]
    cases value.plainText <;> rfl
  cases value with
  | null | bool _ | int _ => rfl
  | _ => exact htext

/-- A pattern reports nothing. -/
theorem candid_ofPattern (validation : String) (pattern : List Piece) :
    (ofPattern pattern value []).Candid validation := by
  refine candid_of_isEmpty (fun h => ofPattern_of_isEmpty h pattern) fun hvalue => ?_
  exact candid_of_silent fun _ => congrArg Prod.snd (outcome_ofPattern hvalue pattern)

theorem candid_ipvFour : (ipvFour value []).Candid "ipvFour" := by
  refine candid_of_isEmpty (fun h => ipvFour_of_isEmpty h) fun hvalue => ?_
  exact candid_of_silent fun _ => congrArg Prod.snd (outcome_ipvFour hvalue)

theorem candid_number : (number value []).Candid "number" := by
  refine candid_of_isEmpty (fun h => number_of_isEmpty h) fun hvalue => ?_
  exact candid_of_silent fun _ => congrArg Prod.snd (outcome_number hvalue)

theorem candid_contains : (contains value parameters).Candid "contains" := by
  refine candid_of_isEmpty (fun h => contains_of_isEmpty h) fun hvalue => ?_
  exact candid_of_silent fun _ => congrArg Prod.snd (outcome_contains hvalue _)

theorem candid_notIn : (notIn value parameters).Candid "notIn" := by
  refine candid_of_isEmpty (fun h => notIn_of_isEmpty h) fun hvalue => ?_
  exact candid_of_silent fun _ => congrArg Prod.snd (outcome_notIn hvalue _)

section

variable (hlimit : upToOne parameters = .ok limit)
include hlimit

/-- A limit on numbers reports a malformed parameter and fails, or reports nothing. -/
theorem candid_comparedNumber (validation : String) (holds : Double → Double → Bool) :
    (comparedNumber validation holds value parameters).Candid validation := by
  refine candid_of_isEmpty
    (fun h => comparedNumber_of_isEmpty h hlimit validation holds) fun hvalue => ?_
  refine candid_of_number (fun _ => outcome_comparedNumber hvalue hlimit validation holds) ?_
  cases value.toNumber <;> nofun

/-- So does a limit on lengths. -/
theorem candid_comparedLength (validation : String) (holds : Double → Double → Bool) :
    (comparedLength validation holds value parameters).Candid validation := by
  refine candid_of_isEmpty
    (fun h => comparedLength_of_isEmpty h hlimit validation holds) fun hvalue => ?_
  exact candid_of_number (fun _ => outcome_comparedLength hvalue hlimit validation holds) nofun

theorem candid_digitsLength : (digitsLength value parameters).Candid "digitsLength" := by
  refine candid_of_isEmpty (fun h => digitsLength_of_isEmpty h hlimit) fun hvalue => ?_
  refine candid_of_number (fun _ => outcome_digitsLength hvalue hlimit) ?_
  cases trimmedText value <;> nofun

/-- So does a limit on days. -/
theorem candid_comparedDay (validation : String) (holds : Date → Date → Bool) :
    (comparedDay validation holds value parameters).Candid validation := by
  refine candid_of_isEmpty
    (fun h => comparedDay_of_isEmpty h hlimit validation holds) fun hvalue => ?_
  have houtcome (answer : (q : Request) → Attempt q.Reply) :
      (comparedDay validation holds value parameters).outcome answer = _ :=
    outcome_comparedDay hvalue hlimit validation holds
  cases hday : limit.toDay with
  | none => exact fun answer => candid_malformed ((houtcome answer).trans (by rw [hday]))
  | some boundary => exact candid_of_silent fun answer => by rw [houtcome, hday]

end

/-- So does a range of numbers. -/
theorem candid_between : (between value parameters).Candid "between" := by
  refine candid_of_isEmpty (fun h => between_of_isEmpty h) fun hvalue => ?_
  refine candid_of_range (fun _ => outcome_between hvalue parameters) ?_
  cases value.toNumber <;> nofun

theorem candid_digitsLengthBetween :
    (digitsLengthBetween value parameters).Candid "digitsLengthBetween" := by
  refine candid_of_isEmpty (fun h => digitsLengthBetween_of_isEmpty h) fun hvalue => ?_
  exact candid_of_range (fun _ => outcome_digitsLengthBetween hvalue parameters) nofun

theorem candid_betweenLength : (betweenLength value parameters).Candid "betweenLength" := by
  refine candid_of_isEmpty (fun h => betweenLength_of_isEmpty h) fun hvalue => ?_
  exact candid_of_range (fun _ => outcome_betweenLength hvalue parameters) nofun

/-- A comparison reports the lack of a field to compare with. -/
theorem candid_compareSibling {other : Value} (hother : upToOne parameters = .ok other)
    (validation : String) (equal : Bool) (context : Option Context) :
    (compareSibling validation equal value parameters context).Candid validation := by
  have houtcome (answer : (q : Request) → Attempt q.Reply) :
      (compareSibling validation equal value parameters context).outcome answer = _ :=
    outcome_compareSibling hother validation equal context
  cases hname : fieldName? other with
  | error fault => exact candid_of_silent fun answer => by rw [houtcome, hname]
  | ok name =>
    cases name with
    | none => exact fun answer => candid_malformed ((houtcome answer).trans (by rw [hname]))
    | some name => exact candid_of_silent fun answer => by rw [houtcome, hname]

/-- A requirement under a condition reports the lack of a condition. -/
theorem candid_requiredWhen {other expected : Value}
    (hcondition : upToTwo parameters = .ok (other, expected))
    (validation : String) (unlessMet : Bool) (context : Option Context) :
    (requiredWhen validation unlessMet value parameters context).Candid validation := by
  have houtcome (answer : (q : Request) → Attempt q.Reply) :
      (requiredWhen validation unlessMet value parameters context).outcome answer = _ :=
    outcome_requiredWhen validation unlessMet context hcondition
  cases hname : fieldName? other with
  | error fault => exact candid_of_silent fun answer => by rw [houtcome, hname]
  | ok name =>
    cases name with
    | none => exact fun answer => candid_malformed ((houtcome answer).trans (by rw [hname]))
    | some name =>
      cases expected with
      | null => exact fun answer => candid_malformed ((houtcome answer).trans (by rw [hname]))
      | _ => exact candid_of_silent fun answer => by rw [houtcome, hname]

end Predicate

namespace Catalog

open Predicate

/-- **No built-in predicate passes with a report**, and none writes anything else to the journal. -/
theorem candid_builtin {d : Definition} (hd : d ∈ builtinDefinitions) (value : Value)
    (parameters : List Value) (context : Option Context) :
    (d.call value parameters context).Candid d.name := by
  by_cases hadmits : (need d.name).Admits parameters
  · generalize hneed : need d.name = n at hadmits
    cases builtIn_of_mem hd with
    | required description =>
      obtain rfl : n = .nothing := hneed.symm
      rw [call_plain, eq_nil_of_admits hadmits]
      exact candid_required
    | requiredWhen name description hname =>
      obtain rfl : n = .condition := hneed.symm.trans (need_of_mem (by decide) hname)
      rw [call_crossField]
      exact candid_requiredWhen (upToTwo_of_length_le (hadmits 2 rfl)) _ _ _
    | accepted description =>
      obtain rfl : n = .nothing := hneed.symm
      rw [call_plain, eq_nil_of_admits hadmits]
      exact candid_accepted
    | ofPattern name pattern description hname =>
      obtain rfl : n = .nothing := hneed.symm.trans (need_of_mem (by decide) hname)
      rw [call_plain, eq_nil_of_admits hadmits]
      exact candid_ofPattern name pattern
    | ipvFour description =>
      obtain rfl : n = .nothing := hneed.symm
      rw [call_plain, eq_nil_of_admits hadmits]
      exact candid_ipvFour
    | number description =>
      obtain rfl : n = .nothing := hneed.symm
      rw [call_plain, eq_nil_of_admits hadmits]
      exact candid_number
    | comparedNumber name holds description hname =>
      obtain rfl : n = .number := hneed.symm.trans (need_of_mem (by decide) hname)
      rw [call_plain]
      exact candid_comparedNumber (upToOne_of_length_le (hadmits 1 rfl)) _ _
    | between description =>
      rw [call_plain]
      exact candid_between
    | digitsLength description =>
      obtain rfl : n = .number := hneed.symm
      rw [call_plain]
      exact candid_digitsLength (upToOne_of_length_le (hadmits 1 rfl))
    | digitsLengthBetween description =>
      rw [call_plain]
      exact candid_digitsLengthBetween
    | comparedLength name holds description hname =>
      obtain rfl : n = .number := hneed.symm.trans (need_of_mem (by decide) hname)
      rw [call_plain]
      exact candid_comparedLength (upToOne_of_length_le (hadmits 1 rfl)) _ _
    | betweenLength description =>
      rw [call_plain]
      exact candid_betweenLength
    | contains description =>
      rw [call_plain]
      exact candid_contains
    | notIn description =>
      rw [call_plain]
      exact candid_notIn
    | comparedDay name holds description hname =>
      obtain rfl : n = .day := hneed.symm.trans (need_of_mem (by decide) hname)
      rw [call_plain]
      exact candid_comparedDay (upToOne_of_length_le (hadmits 1 rfl)) _ _
    | compareSibling name description hname =>
      obtain rfl : n = .field := hneed.symm.trans (need_of_mem (by decide) hname)
      rw [call_crossField]
      exact candid_compareSibling (upToOne_of_length_le (hadmits 1 rfl)) _ _ _
  · exact Check.candid_of_silent fun answer =>
      congrArg Prod.snd (outcome_of_not_admits hd rfl hadmits context answer)

end Catalog

end FormRules
