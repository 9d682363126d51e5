import FormRules.Proofs.Message.Legible
import FormRules.Proofs.Predicate.Optional
import Mathlib.Tactic.MkIffOfInductiveProp

/-!
# Rules that abort a run

A rule with a built-in predicate passes or fails, whatever is written in it, but for a few causes
(`Catalog.Aborts`): there are more parameters than the predicate takes; a whole number is too large
to be compared with doubles; a value, or the sibling that a condition is about, has no text because
of a whole number with too many digits; a count of digits is compared with something that has no
whole part.

These are all the causes (`Run.rule_aborts_iff`): reading the rule, looking up the predicate and
composing the message never fail.
-/

namespace FormRules

open Predicate

/-- The causes for which a rule with a built-in predicate aborts the run, where siblings have the
given values. -/
@[mk_iff]
inductive Catalog.Aborts (sibling : String → Value) (value : Value) (name : String)
    (parameters : List Value) (fault : Fault) : Prop
  /-- more parameters than the predicate takes -/
  | excess (h : ¬(need name).Admits parameters) (hfault : fault = .tooManyParameters)
  /-- a value that should be taken as a number and is too large -/
  | number (hname : name ∈ ["number", "min", "max", "between"])
      (hadmits : (need name).Admits parameters) (h : value.toNumber = .error fault)
  /-- a value without text -/
  | text (hname : name ∈ ["alpha", "alphaDash", "alphaNum", "alphaDashNum", "email", "url",
      "digitsLength", "contains", "notIn"])
      (hadmits : (need name).Admits parameters) (h : value.plainText = .error fault)
  /-- a value without text, unless it is itself a number -/
  | consent (hname : name = "accepted") (hadmits : (need name).Admits parameters)
      (hvalue : ∀ i, value ≠ .int i) (h : value.plainText = .error fault)
  /-- a value without text where the range of its digits is known -/
  | digits (hname : name = "digitsLengthBetween") (hadmits : (need name).Admits parameters)
      (hmet : ¬(need name).Unmet parameters) (h : value.plainText = .error fault)
  /-- a value without length where the limit of the length is known -/
  | length (hname : name ∈ ["minLength", "maxLength", "betweenLength"])
      (hadmits : (need name).Admits parameters) (hmet : ¬(need name).Unmet parameters)
      (h : value.length = .error fault)
  /-- digits whose number is to be `nan` or infinite -/
  | wholePart (hname : name = "digitsLength") (hadmits : (need name).Admits parameters) {d : Double}
      (hd : (parameters.headD .null).toNumber = .ok (some d)) {text : List Char}
      (htext : trimmedText value = .ok text) (hdigits : Text.isDigits text = true)
      (h : d.wholePart = .error fault)
  /-- a condition on a sibling without text -/
  | condition (hname : name ∈ ["requiredIf", "requiredIfNot"])
      (hadmits : (need name).Admits parameters) (hmet : ¬(need name).Unmet parameters)
      {other : String}
      (hother : fieldName? (parameters.headD .null) = .ok (some other))
      (h : (sibling other).plainText = .error fault)

namespace Value

variable {v : Value} (h : v.isEmpty = true)
include h

/-- An empty value has a text, and it does not consist of digits. -/
theorem trimmedText_of_isEmpty : ∃ text, trimmedText v = .ok text ∧ Text.isDigits text = false := by
  cases v with
  | null => exact ⟨_, rfl, by decide⟩
  | text s =>
    refine ⟨_, rfl, ?_⟩
    rw [Text.trim_eq_nil_iff.mpr h]
    rfl
  | list xs =>
    obtain rfl := List.isEmpty_iff.mp h
    exact ⟨_, rfl, by decide⟩
  | tuple xs =>
    obtain rfl := List.isEmpty_iff.mp h
    exact ⟨_, rfl, by decide⟩
  | set xs =>
    obtain rfl := List.isEmpty_iff.mp h
    exact ⟨_, rfl, by decide⟩
  | map es =>
    obtain rfl := List.isEmpty_iff.mp h
    exact ⟨_, rfl, by decide⟩
  | _ => cases h

/-- An empty value has a text. -/
theorem plainText_of_isEmpty : ∃ s, v.plainText = .ok s := by
  obtain ⟨text, htext, -⟩ := trimmedText_of_isEmpty h
  unfold trimmedText at htext
  obtain ⟨s, hs, -⟩ := Run.eq_ok_of_bind htext
  exact ⟨s, hs⟩

/-- An empty value can be taken for a number, or is none. -/
theorem toNumber_of_isEmpty : ∃ d, v.toNumber = .ok d := by
  cases v with
  | int i => cases h
  | float d => cases h
  | text s => exact ⟨_, rfl⟩
  | _ => exact ⟨none, rfl⟩

theorem length_of_isEmpty : ∃ n, v.length = .ok n := by
  cases v with
  | null | text s | list xs | tuple xs | set xs | map es => exact ⟨_, rfl⟩
  | _ => cases h

end Value

namespace Predicate

variable {answer : (q : Request) → Attempt q.Reply} {value : Value} {parameters : List Value}
  {fault : Fault}

theorem upToOne_of_lt_length (h : 1 < parameters.length) :
    upToOne parameters = .error .tooManyParameters := by
  rcases parameters with _ | ⟨p, _ | ⟨q, qs⟩⟩
  · simp at h
  · simp at h
  · rfl

theorem upToTwo_of_lt_length (h : 2 < parameters.length) :
    upToTwo parameters = .error .tooManyParameters := by
  rcases parameters with _ | ⟨p, _ | ⟨q, _ | ⟨r, rs⟩⟩⟩
  · simp at h
  · simp at h
  · simp at h
  · rfl

/-- The items of a range are numbers or they are not, but all can be read. -/
theorem rangeOf_eq_ok (h : ∀ p ∈ parameters, p.IsParameter) :
    ∃ range, rangeOf parameters = .ok range ∧
      (range = none ↔ Need.range.Unmet parameters) := by
  have hspread : ∀ p ∈ spread parameters, ∃ d, p.toNumber = .ok d := by
    unfold spread
    split
    · next xs =>
      cases h _ List.mem_cons_self with
      | token htoken => cases htoken
      | list htokens => exact fun p hp => (Value.IsParameter.token (htokens p hp)).toNumber
    · exact fun p hp => (h p hp).toNumber
  change ∃ range, rangeOf parameters = .ok range ∧ (range = none ↔
    (spread parameters).length ≠ 2 ∨ ∃ p ∈ spread parameters, p.toNumber = .ok none)
  unfold rangeOf
  generalize spread parameters = given at hspread ⊢
  rcases given with _ | ⟨p, _ | ⟨q, _ | ⟨_, _⟩⟩⟩
  · exact ⟨none, rfl, by simp⟩
  · exact ⟨none, rfl, by simp⟩
  · obtain ⟨low, hlow⟩ := hspread p (by simp)
    obtain ⟨high, hhigh⟩ := hspread q (by simp)
    rcases low with _ | low <;> rcases high with _ | high <;>
      simp [hlow, hhigh, bind, Except.bind, pure, Except.pure]
  · exact ⟨none, rfl, by simp⟩

/-- What is read without parameters, of an empty value too. -/
theorem ofPattern_error_iff (pattern : List Piece) :
    ((ofPattern pattern value []).outcome answer).1 = .error fault ↔
      value.plainText = .error fault := by
  cases hvalue : value.isEmpty with
  | true =>
    obtain ⟨s, hs⟩ := Value.plainText_of_isEmpty hvalue
    simp [ofPattern_of_isEmpty hvalue, hs]
  | false =>
    rw [outcome_ofPattern hvalue]
    rcases value.plainText with fault' | s <;> simp [Except.map]

/-- A value without text is no address, and that is all that is said of it. -/
theorem ipvFour_eq_ok (answer : (q : Request) → Attempt q.Reply) (value : Value) :
    ∃ b, ((ipvFour value []).outcome answer).1 = .ok b := by
  cases hvalue : value.isEmpty with
  | true => exact ⟨true, by rw [ipvFour_of_isEmpty hvalue]; rfl⟩
  | false => exact ⟨_, congrArg Prod.fst (outcome_ipvFour hvalue)⟩

/-- A number is not told from other values just if it is beyond the doubles. -/
theorem number_error_iff :
    ((number value []).outcome answer).1 = .error fault ↔ value.toNumber = .error fault := by
  cases hvalue : value.isEmpty with
  | true =>
    obtain ⟨d, hd⟩ := Value.toNumber_of_isEmpty hvalue
    simp [number_of_isEmpty hvalue, hd]
  | false =>
    rw [outcome_number hvalue]
    rcases value.toNumber with fault' | d <;> simp [Except.map]

theorem accepted_error_iff :
    ((accepted value []).outcome answer).1 = .error fault ↔
      (∀ i, value ≠ .int i) ∧ value.plainText = .error fault := by
  have htext : ((do return acceptedTexts.contains (Text.lower (Text.strip (← value.plainText))) :
      Check Bool).outcome answer).1 = .error fault ↔ value.plainText = .error fault := by
    rw [Check.outcome_lift_bind]
    rcases value.plainText with fault' | s <;> simp
  cases value with
  | null => simp [accepted, Value.plainText, Value.toText, Value.literal]
  | bool b => simp [accepted, Value.plainText]
  | int i => simp [accepted]
  | _ => simp only [accepted, htext, ne_eq, reduceCtorEq, not_false_eq_true, forall_const, true_and]

section

variable {limit : Value} {d : Option Double} (hlimit : upToOne parameters = .ok limit)
  (hnumber : limit.toNumber = .ok d)
include hlimit hnumber

/-- A limit on numbers aborts just for values beyond the doubles. -/
theorem comparedNumber_error_iff (validation : String) (holds : Double → Double → Bool) :
    ((comparedNumber validation holds value parameters).outcome answer).1 = .error fault ↔
      value.toNumber = .error fault := by
  cases hvalue : value.isEmpty with
  | true =>
    obtain ⟨d, hd⟩ := Value.toNumber_of_isEmpty hvalue
    simp [comparedNumber_of_isEmpty hvalue hlimit, hd]
  | false =>
    rw [outcome_comparedNumber hvalue hlimit, hnumber]
    rcases value.toNumber with fault' | n <;> cases d <;> (try cases n) <;>
      simp [bind, Except.bind, pure, Except.pure]

/-- A limit on lengths aborts for values without a length, if there is a limit. -/
theorem comparedLength_error_iff (validation : String) (holds : Double → Double → Bool) :
    ((comparedLength validation holds value parameters).outcome answer).1 = .error fault ↔
      d.isSome ∧ value.length = .error fault := by
  cases hvalue : value.isEmpty with
  | true =>
    obtain ⟨n, hn⟩ := Value.length_of_isEmpty hvalue
    simp [comparedLength_of_isEmpty hvalue hlimit, hn]
  | false =>
    rw [outcome_comparedLength hvalue hlimit, hnumber]
    rcases value.length with fault' | n <;> cases d <;>
      simp [bind, Except.bind, pure, Except.pure]

theorem digitsLength_error_iff :
    ((digitsLength value parameters).outcome answer).1 = .error fault ↔
      value.plainText = .error fault ∨ ∃ bound text, d = some bound ∧ trimmedText value = .ok text ∧
        Text.isDigits text = true ∧ bound.wholePart = .error fault := by
  cases hvalue : value.isEmpty with
  | true =>
    obtain ⟨s, hs⟩ := Value.plainText_of_isEmpty hvalue
    obtain ⟨text, htext, hdigits⟩ := Value.trimmedText_of_isEmpty hvalue
    simp [digitsLength_of_isEmpty hvalue hlimit, hs, htext, hdigits]
  | false =>
    rw [outcome_digitsLength hvalue hlimit, hnumber]
    unfold trimmedText
    rcases value.plainText with fault' | s
    · simp [bind, Except.bind]
    · rcases d with _ | bound
      · simp [bind, Except.bind, pure, Except.pure]
      · rcases hdigits : Text.isDigits (Text.trim s.toList) with _ | _ <;>
          rcases hwhole : bound.wholePart with fault' | n <;>
          simp [hdigits, hwhole, bind, Except.bind, pure, Except.pure]

omit d hnumber in
/-- Dates are compared without any fault. -/
theorem comparedDay_eq_ok (validation : String) (holds : Date → Date → Bool) :
    ∃ b, ((comparedDay validation holds value parameters).outcome answer).1 = .ok b := by
  cases hvalue : value.isEmpty with
  | true => exact ⟨true, by rw [comparedDay_of_isEmpty hvalue hlimit]; rfl⟩
  | false =>
    rw [outcome_comparedDay hvalue hlimit]
    rcases limit.toDay with _ | boundary <;> exact ⟨_, rfl⟩

end

section

variable (hparameters : ∀ p ∈ parameters, p.IsParameter)
include hparameters

/-- A range of numbers aborts just for values beyond the doubles. -/
theorem between_error_iff :
    ((between value parameters).outcome answer).1 = .error fault ↔
      value.toNumber = .error fault := by
  cases hvalue : value.isEmpty with
  | true =>
    obtain ⟨d, hd⟩ := Value.toNumber_of_isEmpty hvalue
    simp [between_of_isEmpty hvalue, hd]
  | false =>
    obtain ⟨range, hrange, -⟩ := rangeOf_eq_ok hparameters
    rw [outcome_between hvalue, hrange]
    rcases value.toNumber with fault' | n <;> cases range <;> (try cases n) <;>
      simp [bind, Except.bind, pure, Except.pure]

theorem digitsLengthBetween_error_iff :
    ((digitsLengthBetween value parameters).outcome answer).1 = .error fault ↔
      ¬Need.range.Unmet parameters ∧ value.plainText = .error fault := by
  cases hvalue : value.isEmpty with
  | true =>
    obtain ⟨s, hs⟩ := Value.plainText_of_isEmpty hvalue
    simp [digitsLengthBetween_of_isEmpty hvalue, hs]
  | false =>
    obtain ⟨range, hrange, hunmet⟩ := rangeOf_eq_ok hparameters
    rw [outcome_digitsLengthBetween hvalue, hrange, ← hunmet]
    unfold trimmedText
    rcases value.plainText with fault' | s <;> cases range <;>
      simp [bind, Except.bind, pure, Except.pure]

theorem betweenLength_error_iff :
    ((betweenLength value parameters).outcome answer).1 = .error fault ↔
      ¬Need.range.Unmet parameters ∧ value.length = .error fault := by
  cases hvalue : value.isEmpty with
  | true =>
    obtain ⟨n, hn⟩ := Value.length_of_isEmpty hvalue
    simp [betweenLength_of_isEmpty hvalue, hn]
  | false =>
    obtain ⟨range, hrange, hunmet⟩ := rangeOf_eq_ok hparameters
    rw [outcome_betweenLength hvalue, hrange, ← hunmet]
    rcases value.length with fault' | n <;> cases range <;>
      simp [bind, Except.bind, pure, Except.pure]

/-- Options are compared with the text of the value. -/
theorem isOption_error_iff :
    isOption value parameters = .error fault ↔ value.plainText = .error fault := by
  obtain ⟨ss, hss⟩ := options_eq_ok hparameters
  unfold isOption
  rw [hss]
  rcases value.plainText with fault' | s <;> simp [bind, Except.bind, pure, Except.pure]

theorem contains_error_iff :
    ((contains value parameters).outcome answer).1 = .error fault ↔
      value.plainText = .error fault := by
  cases hvalue : value.isEmpty with
  | true =>
    obtain ⟨s, hs⟩ := Value.plainText_of_isEmpty hvalue
    simp [contains_of_isEmpty hvalue, hs]
  | false => rw [outcome_contains hvalue, isOption_error_iff hparameters]

theorem notIn_error_iff :
    ((notIn value parameters).outcome answer).1 = .error fault ↔
      value.plainText = .error fault := by
  cases hvalue : value.isEmpty with
  | true =>
    obtain ⟨s, hs⟩ := Value.plainText_of_isEmpty hvalue
    simp [notIn_of_isEmpty hvalue, hs]
  | false =>
    rw [outcome_notIn hvalue, ← isOption_error_iff hparameters]
    rcases isOption value parameters with fault' | b <;> simp [Except.map]

/-- A parameter that may be missing is no value or stands in the rule text. -/
theorem headD_isParameter :
    parameters.headD .null = .null ∨ (parameters.headD .null).IsParameter := by
  cases parameters with
  | nil => exact .inl rfl
  | cons p ps => exact .inr (hparameters p List.mem_cons_self)

theorem headD_toNumber : ∃ d, (parameters.headD .null).toNumber = .ok d := by
  rcases headD_isParameter hparameters with hnull | hparameter
  · exact ⟨none, by rw [hnull]; rfl⟩
  · exact hparameter.toNumber

variable {sibling : String → Value}
  (hsibling : ∀ name, answer (.sibling (.text name)) = .ok (sibling name))
include hsibling

/-- Values are compared without any fault. -/
theorem compareSibling_eq_ok (hadmits : parameters.length ≤ 1) (validation : String) (equal : Bool)
    (here : Context) :
    ∃ b, ((compareSibling validation equal value parameters (some here)).outcome answer).1 =
      .ok b := by
  obtain ⟨found, hfound⟩ := fieldName?_eq_ok (headD_isParameter hparameters)
  rw [outcome_compareSibling (upToOne_of_length_le hadmits), hfound]
  rcases found with _ | name
  · exact ⟨false, rfl⟩
  · have hvalue := hsibling name
    simp only [siblingIn]
    rw [hvalue]
    exact ⟨_, rfl⟩

/-- A requirement under a condition aborts if the sibling of the condition has no text. -/
theorem requiredWhen_error_iff (hadmits : parameters.length ≤ 2) (validation : String)
    (unlessMet : Bool) (here : Context) :
    ((requiredWhen validation unlessMet value parameters (some here)).outcome answer).1 =
        .error fault ↔
      ¬Need.condition.Unmet parameters ∧ ∃ other,
        fieldName? (parameters.headD .null) = .ok (some other) ∧
          (sibling other).plainText = .error fault := by
  change _ ↔ ¬((parameters.headD .null).Nameless ∨ parameters.getD 1 .null = .null) ∧ _
  obtain ⟨found, hfound⟩ := fieldName?_eq_ok (headD_isParameter hparameters)
  rw [outcome_requiredWhen validation unlessMet (some here) (upToTwo_of_length_le hadmits),
    ← fieldName?_eq_none_iff, hfound]
  have hexpected : parameters.getD 1 .null = .null ∨ (parameters.getD 1 .null).IsParameter := by
    rcases parameters with _ | ⟨p, _ | ⟨q, qs⟩⟩
    · exact .inl rfl
    · exact .inl rfl
    · exact .inr (hparameters q (by simp))
  generalize parameters.getD 1 .null = expected at hexpected ⊢
  rcases found with _ | name
  · simp
  · rcases hexpected with rfl | hexpected
    · simp
    · have hcompared : (siblingIn answer (some here) (.text name) >>= fun actual =>
          meets actual expected >>= fun met =>
            (pure (met == unlessMet || !value.isEmpty) : Attempt Bool)) =
            .error fault ↔ (sibling name).plainText = .error fault := by
        have hvalue := hsibling name
        simp only [siblingIn]
        rw [hvalue, ← meets_eq_error_iff hexpected]
        change (meets (sibling name) expected >>= fun met => pure _ : Attempt Bool) = _ ↔ _
        rcases meets (sibling name) expected with fault' | met <;>
          simp [bind, Except.bind, pure, Except.pure]
      cases hexpected with
      | token h => cases h <;> simpa using hcompared
      | list h => simpa using hcompared

end

end Predicate

namespace Catalog

variable {d : Definition} (hd : d ∈ builtinDefinitions) {value : Value} {parameters : List Value}
include hd

/-- With more parameters than it takes, a built-in predicate is not even called. -/
theorem outcome_of_not_admits {n : Need} (hneed : need d.name = n) (hadmits : ¬n.Admits parameters)
    (context : Option Context) (answer : (q : Request) → Attempt q.Reply) :
    (d.call value parameters context).outcome answer = (.error .tooManyParameters, []) := by
  have hlength : ∃ k, n.arity? = some k ∧ k < parameters.length := by
    unfold Need.Admits at hadmits
    simpa using hadmits
  obtain ⟨k, hk, hlength⟩ := hlength
  cases builtIn_of_mem hd with
  | required description | accepted description | ipvFour description | number description =>
    obtain rfl : n = .nothing := hneed.symm
    obtain rfl : 0 = k := Option.some.inj hk
    obtain ⟨p, ps, rfl⟩ := List.exists_cons_of_length_pos hlength
    rw [call_plain]
    rfl
  | ofPattern name pattern description hname =>
    obtain rfl : n = .nothing := hneed.symm.trans (need_of_mem (by decide) hname)
    obtain rfl : 0 = k := Option.some.inj hk
    obtain ⟨p, ps, rfl⟩ := List.exists_cons_of_length_pos hlength
    rw [call_plain]
    rfl
  | comparedNumber name holds description hname =>
    obtain rfl : n = .number := hneed.symm.trans (need_of_mem (by decide) hname)
    obtain rfl : 1 = k := Option.some.inj hk
    rw [call_plain]
    simp [comparedNumber, upToOne_of_lt_length hlength]
  | digitsLength description =>
    obtain rfl : n = .number := hneed.symm
    obtain rfl : 1 = k := Option.some.inj hk
    rw [call_plain]
    simp [digitsLength, upToOne_of_lt_length hlength]
  | comparedLength name holds description hname =>
    obtain rfl : n = .number := hneed.symm.trans (need_of_mem (by decide) hname)
    obtain rfl : 1 = k := Option.some.inj hk
    rw [call_plain]
    simp [comparedLength, upToOne_of_lt_length hlength]
  | comparedDay name holds description hname =>
    obtain rfl : n = .day := hneed.symm.trans (need_of_mem (by decide) hname)
    obtain rfl : 1 = k := Option.some.inj hk
    rw [call_plain]
    simp [comparedDay, upToOne_of_lt_length hlength]
  | compareSibling name description hname =>
    obtain rfl : n = .field := hneed.symm.trans (need_of_mem (by decide) hname)
    obtain rfl : 1 = k := Option.some.inj hk
    rw [call_crossField]
    rcases parameters with _ | ⟨p, _ | ⟨q, qs⟩⟩
    · simp at hlength
    · simp at hlength
    · rfl
  | requiredWhen name description hname =>
    obtain rfl : n = .condition := hneed.symm.trans (need_of_mem (by decide) hname)
    obtain rfl : 2 = k := Option.some.inj hk
    rw [call_crossField]
    simp [requiredWhen, upToTwo_of_lt_length hlength]
  | between description | digitsLengthBetween description | betweenLength description =>
    obtain rfl : n = .range := hneed.symm
    cases hk
  | contains description | notIn description =>
    obtain rfl : n = .options := hneed.symm
    cases hk

omit hd in
/-- With too many parameters that is the only cause. -/
theorem aborts_iff_of_not_admits {sibling : String → Value} {name : String} {fault : Fault}
    (hadmits : ¬(need name).Admits parameters) :
    Aborts sibling value name parameters fault ↔ fault = .tooManyParameters := by
  simp [aborts_iff, hadmits]

variable {sibling : String → Value} {fault : Fault}

/-- A built-in predicate with the parameters of a rule text ends with a fault just for one of the
causes. -/
theorem call_error_iff (hparameters : ∀ p ∈ parameters, p.IsParameter)
    (answer : (q : Request) → Attempt q.Reply)
    (hsibling : ∀ name, answer (.sibling (.text name)) = .ok (sibling name)) (here : Context) :
    ((d.call value parameters (some here)).outcome answer).1 = .error fault ↔
      Aborts sibling value d.name parameters fault := by
  -- with too many parameters no predicate gets to look at the value
  by_cases hadmits : (need d.name).Admits parameters
  case neg =>
    rw [outcome_of_not_admits hd rfl hadmits, aborts_iff_of_not_admits hadmits]
    simp [eq_comm (a := fault)]
  obtain ⟨bound, hbound⟩ := headD_toNumber hparameters
  generalize hneed : need d.name = n at hadmits
  have hone (hn : n.arity? = some 1) : parameters.length ≤ 1 := hadmits 1 hn
  -- in each family the causes are those of its own error lemma, read off for its names
  cases builtIn_of_mem hd with
  | required description =>
    obtain rfl : n = .nothing := hneed.symm
    obtain rfl := eq_nil_of_admits hadmits
    rw [call_plain]
    simp only [plain] at hneed
    simp [aborts_iff, plain, hneed, hadmits, required]
  | accepted description =>
    obtain rfl : n = .nothing := hneed.symm
    obtain rfl := eq_nil_of_admits hadmits
    rw [call_plain, accepted_error_iff]
    simp only [plain] at hneed
    simp [aborts_iff, plain, hneed, hadmits]
  | ofPattern name pattern description hname =>
    obtain rfl : n = .nothing := hneed.symm.trans (need_of_mem (by decide) hname)
    obtain rfl := eq_nil_of_admits hadmits
    rw [call_plain, ofPattern_error_iff]
    simp only [plain] at hneed
    simp only [List.mem_cons, List.not_mem_nil, or_false] at hname
    rcases hname with rfl | rfl | rfl | rfl | rfl | rfl <;> simp [aborts_iff, plain, hneed, hadmits]
  | ipvFour description =>
    obtain rfl : n = .nothing := hneed.symm
    obtain rfl := eq_nil_of_admits hadmits
    obtain ⟨b, hb⟩ := ipvFour_eq_ok answer value
    rw [call_plain, hb]
    simp only [plain] at hneed
    simp [aborts_iff, plain, hneed, hadmits]
  | number description =>
    obtain rfl : n = .nothing := hneed.symm
    obtain rfl := eq_nil_of_admits hadmits
    rw [call_plain, number_error_iff]
    simp only [plain] at hneed
    simp [aborts_iff, plain, hneed, hadmits]
  | comparedNumber name holds description hname =>
    obtain rfl : n = .number := hneed.symm.trans (need_of_mem (by decide) hname)
    rw [call_plain, comparedNumber_error_iff (upToOne_of_length_le (hone rfl)) hbound]
    simp only [plain] at hneed
    simp only [List.mem_cons, List.not_mem_nil, or_false] at hname
    rcases hname with rfl | rfl <;> simp [aborts_iff, plain, hneed, hadmits]
  | between description =>
    obtain rfl : n = .range := hneed.symm
    rw [call_plain, between_error_iff hparameters]
    simp only [plain] at hneed
    simp [aborts_iff, plain, hneed, hadmits]
  | digitsLength description =>
    obtain rfl : n = .number := hneed.symm
    rw [call_plain, digitsLength_error_iff (upToOne_of_length_le (hone rfl)) hbound]
    simp only [plain] at hneed
    rw [List.headD_eq_head?_getD] at hbound
    simp [aborts_iff, plain, hneed, hadmits, hbound]
  | digitsLengthBetween description =>
    obtain rfl : n = .range := hneed.symm
    rw [call_plain, digitsLengthBetween_error_iff hparameters]
    simp only [plain] at hneed
    simp [aborts_iff, plain, hneed, hadmits]
  | comparedLength name holds description hname =>
    obtain rfl : n = .number := hneed.symm.trans (need_of_mem (by decide) hname)
    rw [call_plain, comparedLength_error_iff (upToOne_of_length_le (hone rfl)) hbound]
    simp only [plain] at hneed
    have hmet : ¬Need.number.Unmet parameters ↔ bound.isSome := by
      change ¬(parameters.headD .null).toNumber = .ok none ↔ _
      rw [hbound]
      cases bound <;> simp
    simp only [List.mem_cons, List.not_mem_nil, or_false] at hname
    rcases hname with rfl | rfl <;> simp [aborts_iff, plain, hneed, hadmits, hmet]
  | betweenLength description =>
    obtain rfl : n = .range := hneed.symm
    rw [call_plain, betweenLength_error_iff hparameters]
    simp only [plain] at hneed
    simp [aborts_iff, plain, hneed, hadmits]
  | contains description =>
    obtain rfl : n = .options := hneed.symm
    rw [call_plain, contains_error_iff hparameters]
    simp only [plain] at hneed
    simp [aborts_iff, plain, hneed, hadmits]
  | notIn description =>
    obtain rfl : n = .options := hneed.symm
    rw [call_plain, notIn_error_iff hparameters]
    simp only [plain] at hneed
    simp [aborts_iff, plain, hneed, hadmits]
  | comparedDay name holds description hname =>
    obtain rfl : n = .day := hneed.symm.trans (need_of_mem (by decide) hname)
    have hday : ∃ b, ((comparedDay name holds value parameters).outcome answer).1 = .ok b :=
      comparedDay_eq_ok (upToOne_of_length_le (hone rfl)) name holds
    obtain ⟨b, hb⟩ := hday
    rw [call_plain, hb]
    simp only [plain] at hneed
    simp only [List.mem_cons, List.not_mem_nil, or_false] at hname
    rcases hname with rfl | rfl <;> simp [aborts_iff, plain, hneed, hadmits]
  | compareSibling name description hname =>
    obtain rfl : n = .field := hneed.symm.trans (need_of_mem (by decide) hname)
    have hsame : ∃ b, ((compareSibling name (name == "same") value parameters
        (some here)).outcome answer).1 = .ok b :=
      compareSibling_eq_ok hparameters hsibling (hone rfl) name (name == "same") here
    obtain ⟨b, hb⟩ := hsame
    rw [call_crossField, hb]
    simp only [crossField] at hneed
    simp only [List.mem_cons, List.not_mem_nil, or_false] at hname
    rcases hname with rfl | rfl <;> simp [aborts_iff, crossField, hneed, hadmits]
  | requiredWhen name description hname =>
    obtain rfl : n = .condition := hneed.symm.trans (need_of_mem (by decide) hname)
    rw [call_crossField, requiredWhen_error_iff hparameters hsibling (hadmits 2 rfl)]
    simp only [crossField] at hneed
    simp only [List.mem_cons, List.not_mem_nil, or_false] at hname
    rcases hname with rfl | rfl <;> simp [aborts_iff, crossField, hneed, hadmits]

end Catalog

namespace Run

/-- A rule ends with a fault just if the call of its predicate does, where the rule can be read, its
predicate is found and a message can be composed. -/
theorem rule_error_iff {e : Engine} {w : World} {here : Context} {text : String}
    {prepared : PreparedRule} (hprepared : e.config.prepare text = .ok prepared) {c : Catalog}
    (hcatalog : w.catalogs.get? e.catalog = some c) {d : Definition}
    (hd : c.lookUp prepared.method = .ok d) {m : Composer}
    {respond : (q : Request) → Run q.Reply} {value : Value}
    (hcomposer : ∀ b v, (d.call value prepared.parameters (some here)).run respond w = (.ok b, v) →
      v.composers.get? e.composer = some m)
    {records : List Record} {message : String}
    (hmessage : m.compose prepared.method prepared.parameters here.form here.field =
      (records, .ok message)) (errors : Errors) (fault : Fault) :
    (rule respond e here value text errors w).1 = .error fault ↔
      ((d.call value prepared.parameters (some here)).run respond w).1 = .error fault := by
  have hresolve : resolve e text w = (.ok (prepared, d), w) := by
    rw [resolve_apply hprepared hcatalog, hd]
    rfl
  unfold rule
  rw [bind_of_ok hresolve]
  dsimp only
  rcases hcall : (d.call value prepared.parameters (some here)).run respond w with ⟨fault' | b, v⟩
  · simp [bind_of_error hcall]
  · rw [bind_of_ok hcall]
    cases b with
    | true => simp
    | false =>
      have hknown : composer e.composer v = (.ok m, v) := by
        rw [composer_apply, hcomposer _ _ hcall]
        rfl
      have hreject : ∃ errors', (reject e here text prepared errors v).1 = .ok errors' := by
        unfold reject
        rw [bind_of_ok hknown, hmessage]
        exact ⟨_, rfl⟩
      obtain ⟨errors', herrors⟩ := hreject
      simp [herrors]

/-- **What is written in a rule does not abort a run**, unless for one of the causes listed. Every
rule text can be read, and if it names a built-in predicate, then of any value it passes or fails
but for these causes. -/
theorem rule_aborts_iff {e : Engine} (hconfig : e.config.Cuts) {w : World}
    (hcatalog : w.catalogs.get? e.catalog = some Catalog.builtins) {m : Composer}
    (hcomposer : w.composers.get? e.composer = some m) (hm : m.Legible) {form : String}
    {sibling : String → Value}
    (hsibling : ∀ name,
      (readField e.accessor (.text form) (.text name) w).1 = .ok (sibling name))
    (passes : String → Value → Run Bool) (text : String) :
    ∃ prepared, e.config.prepare text = .ok prepared ∧
      (Catalog.builtins.isRegistered prepared.method = true →
        ∀ (field : String) (value : Value) (errors : Errors) (fault : Fault),
          (rule (respond (readField e.accessor (.text form)) passes) e
            ⟨.text form, .text field⟩ value
              text errors w).1 = .error fault ↔
            Catalog.Aborts sibling value prepared.method prepared.parameters fault) := by
  obtain ⟨prepared, hprepared, hparameters⟩ := Config.prepare_eq_ok hconfig text
  refine ⟨prepared, hprepared, fun hregistered field value errors fault => ?_⟩
  obtain ⟨d, hresolve⟩ := Option.isSome_iff_exists.mp hregistered
  obtain ⟨hd, hname⟩ := Catalog.mem_of_resolve_ofList hresolve
  obtain ⟨records, message, hmessage⟩ := hm.compose_eq_ok
    (hname ▸ Composer.legible_fallback hd) hparameters form field
  obtain ⟨notes, hcall⟩ := (Catalog.asks_builtin hd).run_call e.accessor w passes (.text form) value
    prepared.parameters (some ⟨.text form, .text field⟩)
  rw [rule_error_iff hprepared hcatalog ((Catalog.lookUp_eq_ok_iff _ _ _).mpr hresolve) _ hmessage,
    hcall, ← hname]
  · exact Catalog.call_error_iff hd hparameters (answersIn w e.accessor (.text form)) hsibling _
  · intro b v h
    rw [hcall] at h
    obtain ⟨-, rfl⟩ := Prod.mk.inj h
    exact hcomposer

end Run

namespace FiveDigits

/-- A world where every field has the value 5. -/
def world : World :=
  { (∅ : World) with
    accessors := (∅ : Shelf Accessor).add "values" (.computed fun _ _ => .ok (.text "5"))
    catalogs := (∅ : Shelf Catalog).add "catalog" Catalog.builtins
    composers := (∅ : Shelf Composer).add "composer" .standard }

/-- An engine in this world. -/
def engine : Engine := ⟨{}, ∅, ⟨"values", 0⟩, ⟨"catalog", 0⟩, ⟨"composer", 0⟩, none, none⟩

/-- A rule run by the engine. -/
def run (text : String) (value : Value) : Attempt Errors :=
  (Run.rule (Run.respond (Run.readField engine.accessor (.text "form")) fun _ _ => pure true) engine
    ⟨.text "form", .text "field"⟩ value text ∅ world).1

/-- A limit that is no number does not abort the run. -/
theorem min_ten_answers : ∃ errors, run "min:ten" (.text "5") = .ok errors := by
  obtain ⟨prepared, hprepared, haborts⟩ := Run.rule_aborts_iff (e := engine) Config.cuts_default
    (w := world) rfl (m := .standard) rfl Composer.legible_standard
    (fun _ => rfl : ∀ name, (Run.readField engine.accessor (.text "form") (.text name) world).1 =
      .ok ((fun _ => .text "5") name)) (fun _ _ => pure true) "min:ten"
  have hread : engine.config.prepare "min:ten" = .ok ⟨"min", [.text "ten"]⟩ := rfl
  obtain rfl := Except.ok.inj (hread.symm.trans hprepared)
  rcases hrun : run "min:ten" (.text "5") with fault | errors
  · have hcause := (haborts rfl "field" (.text "5") ∅ fault).mp hrun
    have hadmits : (Catalog.need "min").Admits [.text "ten"] := by decide
    have hnumber : ∃ d, (Value.text "5").toNumber = .ok d := ⟨_, rfl⟩
    obtain ⟨d, hd⟩ := hnumber
    simp [Catalog.aborts_iff, hadmits, hd] at hcause
  · exact ⟨errors, rfl⟩

/-- The number of digits is compared with infinity. -/
theorem digitsLength_inf_aborts :
    ¬∀ text prepared, engine.config.prepare text = .ok prepared →
      Catalog.builtins.isRegistered prepared.method = true →
        ∀ value, ∃ errors, run text value = .ok errors := by
  intro h
  obtain ⟨errors, hrun⟩ := h "digitsLength:inf" ⟨"digitsLength", [.text "inf"]⟩ rfl rfl (.text "5")
  have haborts : run "digitsLength:inf" (.text "5") = .error .infiniteWholePart := rfl
  rw [haborts] at hrun
  cases hrun

end FiveDigits

end FormRules
