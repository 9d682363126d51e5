import FormRules.Proofs.Predicate.Outcome
import FormRules.Proofs.Text.Trim

/-!
# What the built-in predicates need

What a built-in predicate needs of its parameters is told by its name (`Catalog.need`), and with it
how many parameters it takes. A parameter list may leave a need unmet: a limit is missing or is no
number, a range has not just two numbers, and so on (`Need.Unmet`).

Of a value that is not empty, a rule whose need is unmet fails with a warning
(`Catalog.warns_of_unmet_need`). The options of `contains` and `notIn` are the exception, for nobody
looks whether there are any before they are searched: without options the one fails and the other
passes, and neither warns.
-/

namespace FormRules

open Text

/-- The value is no name of a field: nothing, a truth value, a list, or something whose text is
blank. -/
def Value.Nameless : Value → Prop
  | .null | .bool _ | .list _ => True
  | v => ∃ s, v.toText = .ok s ∧ isBlankText s.toList = true

/-- What is needed is missing or cannot be used. -/
def Need.Unmet : Need → List Value → Prop
  | nothing, _ => False
  | number, ps => (ps.headD .null).toNumber = .ok none
  | range, ps => (Predicate.spread ps).length ≠ 2 ∨ ∃ p ∈ Predicate.spread ps, p.toNumber = .ok none
  | day, ps => (ps.headD .null).toDay = none
  | field, ps => (ps.headD .null).Nameless
  | condition, ps => (ps.headD .null).Nameless ∨ ps.getD 1 .null = .null
  | options, ps => ∀ p ∈ ps, p = .list []

/-- Where the check returns, it has warned of a malformed parameter and does not pass. -/
def Check.Warns (validation : String) (c : Check Bool) : Prop :=
  ∀ answer b, (c.outcome answer).1 = .ok b →
    b = false ∧ ∃ p, .malformed validation p ∈ (c.outcome answer).2

namespace Predicate

variable {answer : (q : Request) → Attempt q.Reply} {value : Value} {parameters : List Value}

theorem upToOne_of_length_le (h : parameters.length ≤ 1) :
    upToOne parameters = .ok (parameters.headD .null) := by
  rcases parameters with _ | ⟨p, _ | ⟨_, _⟩⟩
  · rfl
  · rfl
  · simp at h

theorem upToTwo_of_length_le (h : parameters.length ≤ 2) :
    upToTwo parameters = .ok (parameters.headD .null, parameters.getD 1 .null) := by
  rcases parameters with _ | ⟨p, _ | ⟨q, _ | ⟨_, _⟩⟩⟩
  · rfl
  · rfl
  · rfl
  · simp at h

/-- A parameter gives no name if it is nameless. -/
theorem fieldName?_eq_none_iff (v : Value) : fieldName? v = .ok none ↔ v.Nameless := by
  have htext : (do
      let name := strip (← v.toText)
      return if name.isEmpty then none else some name : Attempt (Option String)) = .ok none ↔
        ∃ s, v.toText = .ok s ∧ isBlankText s.toList = true := by
    rcases v.toText with fault | s
    · simp [bind, Except.bind]
    · simp [bind, Except.bind, pure, Except.pure, isEmpty_strip]
  cases v with
  | null | bool _ | list _ => simp [fieldName?, Value.Nameless]
  | _ => exact htext

/-! ## A need that is unmet -/

/-- Without two numbers there is no range, and a parameter is reported. -/
theorem rangeOf_of_unmet (h : Need.range.Unmet parameters) {range : Option (Double × Double)}
    (hrange : rangeOf parameters = .ok range) (validation : String) :
    range = none ∧ ∃ p, .malformed validation p ∈ notRange validation parameters := by
  change (spread parameters).length ≠ 2 ∨ ∃ p ∈ spread parameters, p.toNumber = .ok none at h
  unfold rangeOf at hrange
  unfold notRange notNumeric
  generalize spread parameters = given at h hrange ⊢
  rcases given with _ | ⟨p, _ | ⟨q, _ | ⟨_, _⟩⟩⟩
  · simp_all
  · simp_all
  · rcases hp : p.toNumber with _ | _ | low <;> rcases hq : q.toNumber with _ | _ | high <;>
      simp_all [bind, Except.bind, pure, Except.pure]
  · simp_all

section

variable (hvalue : value.isEmpty = false)
include hvalue

section

variable {limit : Value} (hlimit : upToOne parameters = .ok limit)
include hlimit

/-- A limit on numbers warns of a limit that is no number. -/
theorem warns_comparedNumber (hnumber : limit.toNumber = .ok none) (validation : String)
    (holds : Double → Double → Bool) :
    (comparedNumber validation holds value parameters).Warns validation := by
  intro answer b hb
  rw [outcome_comparedNumber hvalue hlimit, hnumber] at hb ⊢
  rcases hd : value.toNumber with fault | d
  · simp [hd, bind, Except.bind] at hb
  · simp_all [notNumeric, bind, Except.bind, pure, Except.pure]

/-- So does a limit on lengths. -/
theorem warns_comparedLength (hnumber : limit.toNumber = .ok none) (validation : String)
    (holds : Double → Double → Bool) :
    (comparedLength validation holds value parameters).Warns validation := by
  intro answer b hb
  rw [outcome_comparedLength hvalue hlimit, hnumber] at hb ⊢
  simp_all [notNumeric, bind, Except.bind, pure, Except.pure]

theorem warns_digitsLength (hnumber : limit.toNumber = .ok none) :
    (digitsLength value parameters).Warns "digitsLength" := by
  intro answer b hb
  rw [outcome_digitsLength hvalue hlimit, hnumber] at hb ⊢
  rcases ht : trimmedText value with fault | text
  · simp [ht, bind, Except.bind] at hb
  · simp_all [notNumeric, bind, Except.bind, pure, Except.pure]

/-- A limit on days warns of a limit that is no day. -/
theorem warns_comparedDay (hday : limit.toDay = none) (validation : String)
    (holds : Date → Date → Bool) :
    (comparedDay validation holds value parameters).Warns validation := by
  intro answer b hb
  rw [outcome_comparedDay hvalue hlimit, hday] at hb ⊢
  simp_all

end

/-- A range warns of ends that are not two numbers. -/
theorem warns_between (hunmet : Need.range.Unmet parameters) :
    (between value parameters).Warns "between" := by
  intro answer b hb
  rw [outcome_between hvalue] at hb ⊢
  rcases hrange : rangeOf parameters with fault | range
  · simp [hrange, bind, Except.bind] at hb
  · obtain ⟨rfl, hwarned⟩ := rangeOf_of_unmet hunmet hrange "between"
    rcases hd : value.toNumber with fault | d <;>
      simp_all [bind, Except.bind, pure, Except.pure]

theorem warns_digitsLengthBetween (hunmet : Need.range.Unmet parameters) :
    (digitsLengthBetween value parameters).Warns "digitsLengthBetween" := by
  intro answer b hb
  rw [outcome_digitsLengthBetween hvalue] at hb ⊢
  rcases hrange : rangeOf parameters with fault | range
  · simp [hrange, bind, Except.bind] at hb
  · obtain ⟨rfl, hwarned⟩ := rangeOf_of_unmet hunmet hrange "digitsLengthBetween"
    simp_all [bind, Except.bind, pure, Except.pure]

theorem warns_betweenLength (hunmet : Need.range.Unmet parameters) :
    (betweenLength value parameters).Warns "betweenLength" := by
  intro answer b hb
  rw [outcome_betweenLength hvalue] at hb ⊢
  rcases hrange : rangeOf parameters with fault | range
  · simp [hrange, bind, Except.bind] at hb
  · obtain ⟨rfl, hwarned⟩ := rangeOf_of_unmet hunmet hrange "betweenLength"
    simp_all [bind, Except.bind, pure, Except.pure]

end

/-- There are no options but those that are given. -/
theorem options_of_unmet (hunmet : Need.options.Unmet parameters) :
    options parameters = .ok [] := by
  induction parameters with
  | nil => rfl
  | cons p ps ih =>
    obtain rfl := hunmet p List.mem_cons_self
    have hps := ih fun q hq => hunmet q (List.mem_cons_of_mem _ hq)
    simp [options, plainTexts, hps, bind, Except.bind, pure, Except.pure]

/-- Without any option nothing is one of the options. -/
theorem isOption_of_unmet (hunmet : Need.options.Unmet parameters) :
    isOption value parameters = value.plainText.map fun _ => false := by
  unfold isOption
  rw [options_of_unmet hunmet]
  rcases value.plainText with fault | text <;> rfl

/-- A comparison warns if no field is named. -/
theorem warns_compareSibling (hadmits : parameters.length ≤ 1)
    (hunmet : Need.field.Unmet parameters) (validation : String) (equal : Bool)
    (context : Option Context) :
    (compareSibling validation equal value parameters context).Warns validation := by
  intro answer b hb
  have hname := (fieldName?_eq_none_iff _).mpr hunmet
  rw [outcome_compareSibling (upToOne_of_length_le hadmits), hname] at hb ⊢
  simp_all

/-- A requirement under a condition warns if the condition is not complete. -/
theorem warns_requiredWhen (hadmits : parameters.length ≤ 2)
    (hunmet : Need.condition.Unmet parameters) (validation : String) (unlessMet : Bool)
    (context : Option Context) :
    (requiredWhen validation unlessMet value parameters context).Warns validation := by
  intro answer b hb
  rw [outcome_requiredWhen validation unlessMet context (upToTwo_of_length_le hadmits)] at hb ⊢
  rcases hunmet with hnameless | hexpected
  · rw [(fieldName?_eq_none_iff _).mpr hnameless] at hb ⊢
    simp_all
  · rw [hexpected] at hb ⊢
    rcases hname : fieldName? (parameters.headD .null) with fault | _ | name <;> simp_all

end Predicate

namespace Catalog

open Predicate

/-- Where the need of a built-in predicate is unmet, the predicate warns and does not pass, unless
it is options that are needed. -/
theorem warns_builtin {d : Definition} (hd : d ∈ builtinDefinitions) {n : Need}
    (hneed : need d.name = n) (hoptions : n ≠ .options) {parameters : List Value}
    (hadmits : n.Admits parameters) (hunmet : n.Unmet parameters) {value : Value}
    (hvalue : value.isEmpty = false) (context : Option Context) :
    (d.call value parameters context).Warns d.name := by
  cases builtIn_of_mem hd with
  | required description =>
    obtain rfl : n = .nothing := hneed.symm
    exact hunmet.elim
  | requiredWhen name description hname =>
    obtain rfl : n = .condition := hneed.symm.trans (need_of_mem (by decide) hname)
    rw [call_crossField]
    exact warns_requiredWhen (hadmits 2 rfl) hunmet _ _ context
  | accepted description =>
    obtain rfl : n = .nothing := hneed.symm
    exact hunmet.elim
  | ofPattern name pattern description hname =>
    obtain rfl : n = .nothing := hneed.symm.trans (need_of_mem (by decide) hname)
    exact hunmet.elim
  | ipvFour description =>
    obtain rfl : n = .nothing := hneed.symm
    exact hunmet.elim
  | number description =>
    obtain rfl : n = .nothing := hneed.symm
    exact hunmet.elim
  | comparedNumber name holds description hname =>
    obtain rfl : n = .number := hneed.symm.trans (need_of_mem (by decide) hname)
    rw [call_plain]
    exact warns_comparedNumber hvalue (upToOne_of_length_le (hadmits 1 rfl)) hunmet _ _
  | between description =>
    obtain rfl : n = .range := hneed.symm
    rw [call_plain]
    exact warns_between hvalue hunmet
  | digitsLength description =>
    obtain rfl : n = .number := hneed.symm
    rw [call_plain]
    exact warns_digitsLength hvalue (upToOne_of_length_le (hadmits 1 rfl)) hunmet
  | digitsLengthBetween description =>
    obtain rfl : n = .range := hneed.symm
    rw [call_plain]
    exact warns_digitsLengthBetween hvalue hunmet
  | comparedLength name holds description hname =>
    obtain rfl : n = .number := hneed.symm.trans (need_of_mem (by decide) hname)
    rw [call_plain]
    exact warns_comparedLength hvalue (upToOne_of_length_le (hadmits 1 rfl)) hunmet _ _
  | betweenLength description =>
    obtain rfl : n = .range := hneed.symm
    rw [call_plain]
    exact warns_betweenLength hvalue hunmet
  | contains description => exact (hoptions hneed.symm).elim
  | notIn description => exact (hoptions hneed.symm).elim
  | comparedDay name holds description hname =>
    obtain rfl : n = .day := hneed.symm.trans (need_of_mem (by decide) hname)
    rw [call_plain]
    exact warns_comparedDay hvalue (upToOne_of_length_le (hadmits 1 rfl)) hunmet _ _
  | compareSibling name description hname =>
    obtain rfl : n = .field := hneed.symm.trans (need_of_mem (by decide) hname)
    rw [call_crossField]
    exact warns_compareSibling (hadmits 1 rfl) hunmet _ _ context

/-- Without options, the one predicate that needs options fails, the other passes, and neither
writes anything to the journal. -/
theorem outcome_without_options {d : Definition} (hd : d ∈ builtinDefinitions)
    (hneed : need d.name = .options) {parameters : List Value}
    (hunmet : Need.options.Unmet parameters) {value : Value} (hvalue : value.isEmpty = false)
    (context : Option Context) (answer : (q : Request) → Attempt q.Reply) :
    (d.call value parameters context).outcome answer =
      (value.plainText.map fun _ => d.name == "notIn", []) := by
  cases builtIn_of_mem hd with
  | contains description =>
    rw [call_plain, outcome_contains hvalue, isOption_of_unmet hunmet]
    rfl
  | notIn description =>
    rw [call_plain, outcome_notIn hvalue, isOption_of_unmet hunmet]
    rcases value.plainText with _ | _ <;> rfl
  | required description | accepted description | ipvFour description | number description
  | between description | digitsLength description | digitsLengthBetween description
  | betweenLength description => cases hneed
  | requiredWhen name description hname =>
    have hcondition : need name = .condition := need_of_mem (by decide) hname
    cases hneed.symm.trans hcondition
  | ofPattern name pattern description hname =>
    have hnothing : need name = .nothing := need_of_mem (by decide) hname
    cases hneed.symm.trans hnothing
  | comparedNumber name holds description hname | comparedLength name holds description hname =>
    have hnumber : need name = .number := need_of_mem (by decide) hname
    cases hneed.symm.trans hnumber
  | comparedDay name holds description hname =>
    have hday : need name = .day := need_of_mem (by decide) hname
    cases hneed.symm.trans hday
  | compareSibling name description hname =>
    have hfield : need name = .field := need_of_mem (by decide) hname
    cases hneed.symm.trans hfield

/-- **A need that is unmet fails the rule with a warning**: of a value that is not empty, and
whatever the world and the context, a call that returns does not pass and has reported the
parameter. The exception are the options: without any, `contains` fails and `notIn` passes, and
neither reports anything. -/
theorem warns_of_unmet_need {d : Definition} (hd : d ∈ builtinDefinitions) {parameters : List Value}
    (hadmits : (need d.name).Admits parameters) (hunmet : (need d.name).Unmet parameters)
    {value : Value} (hvalue : value.isEmpty = false) (context : Option Context) (r : Ref)
    (form : Value) (passes : String → Value → Run Bool) {w v : World} {b : Bool}
    (hcall : (d.call value parameters context).run (Run.respond (Run.readField r form) passes) w =
      (.ok b, v)) :
    ∃ records, v.journal = w.journal ++ records ∧
      (need d.name ≠ .options → b = false ∧ ∃ record ∈ records, record.isWarning = true) ∧
      (need d.name = .options → b = (d.name == "notIn") ∧ records = []) := by
  obtain ⟨notes, hrun⟩ := (asks_builtin hd).run_call r w passes form value parameters context
  rw [hcall] at hrun
  obtain ⟨hresult, rfl⟩ := Prod.mk.inj hrun
  refine ⟨_, rfl, fun hneed => ?_, fun hneed => ?_⟩
  · obtain ⟨hfails, p, hwarned⟩ :=
      warns_builtin hd rfl hneed hadmits hunmet hvalue context _ b hresult.symm
    exact ⟨hfails, _, hwarned, rfl⟩
  · rw [hneed] at hunmet
    rw [outcome_without_options hd hneed hunmet hvalue] at hresult ⊢
    rcases htext : value.plainText with fault | text
    · simp [htext, Except.map] at hresult
    · simpa [htext, Except.map] using hresult

/-- A limit that is no number fails the rule, and the journal gains a warning. -/
theorem min_warns_of_text_limit :
    ∃ v, ((plain "min" minimum "Numeric value must be at least the limit.").call (.text "12")
        [.text "ten"] none).run (Run.respond (Run.readField default .null) fun _ _ => pure true) ∅ =
          (.ok false, v) ∧
      ∃ records, v.journal = [] ++ records ∧
        (need "min" ≠ .options → false = false ∧ ∃ record ∈ records, record.isWarning = true) ∧
        (need "min" = .options → false = ("min" == "notIn") ∧ records = []) := by
  have hadmits : (need "min").Admits [.text "ten"] := by decide
  have hunmet : (need "min").Unmet [.text "ten"] := rfl
  have hvalue : (Value.text "12").isEmpty = false := rfl
  exact ⟨_, rfl, warns_of_unmet_need
    (d := plain "min" minimum "Numeric value must be at least the limit.")
    (by simp [builtinDefinitions]) hadmits hunmet hvalue none default .null
      (fun _ _ => pure true) rfl⟩

/-- Without options `notIn` passes, and nobody is warned. -/
theorem notIn_passes_without_options :
    ¬∀ d ∈ builtinDefinitions, ∀ parameters, (need d.name).Admits parameters →
      (need d.name).Unmet parameters → ∀ value : Value, value.isEmpty = false →
        ∀ w v b, (d.call value parameters none).run
            (Run.respond (Run.readField default .null) fun _ _ => pure true) w = (.ok b, v) →
          b = false ∧ ∃ record ∈ v.journal, record.isWarning = true := by
  intro h
  have hcall := h (plain "notIn" notIn "Value must not be one of the listed options.")
    (by simp [builtinDefinitions]) [] (by decide) (List.forall_mem_nil _)
      (.text "a") rfl ∅ ∅ true rfl
  exact absurd hcall.1 (by decide)

end Catalog

end FormRules
