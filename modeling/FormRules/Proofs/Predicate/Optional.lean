import FormRules.Proofs.Predicate.Needs

/-!
# Fields that may be left out

An empty value passes every built-in predicate that is not there to ask for a value, whatever the
parameters (`Catalog.call_of_isEmpty`). `same` and `different` do not look whether a value is empty:
they compare an empty value with the other field like any other value, and it passes just if the
comparison comes out as it should (`Catalog.passes_empty_iff`).
-/

namespace FormRules

namespace Predicate

variable {value : Value} {parameters : List Value}

theorem eq_nil_of_admits (h : Need.nothing.Admits parameters) : parameters = [] :=
  List.length_eq_zero_iff.mp (Nat.le_zero.mp (h 0 rfl))

section

variable (hvalue : value.isEmpty = true)
include hvalue

/-- An empty value fits every pattern. -/
theorem ofPattern_of_isEmpty (pattern : List Piece) : ofPattern pattern value [] = pure true := by
  simp [ofPattern, hvalue]

theorem ipvFour_of_isEmpty : ipvFour value [] = pure true := by simp [ipvFour, hvalue]

theorem number_of_isEmpty : number value [] = pure true := by simp [number, hvalue]

/-- An empty value is in every range. -/
theorem between_of_isEmpty : between value parameters = pure true := by simp [between, hvalue]

theorem digitsLengthBetween_of_isEmpty : digitsLengthBetween value parameters = pure true := by
  simp [digitsLengthBetween, hvalue]

theorem betweenLength_of_isEmpty : betweenLength value parameters = pure true := by
  simp [betweenLength, hvalue]

/-- An empty value is among the options. -/
theorem contains_of_isEmpty : contains value parameters = pure true := by simp [contains, hvalue]

/-- An empty value is not excluded either. -/
theorem notIn_of_isEmpty : notIn value parameters = pure true := by simp [notIn, hvalue]

variable {limit : Value} (hlimit : upToOne parameters = .ok limit)
include hlimit

/-- An empty value is within every limit on numbers. -/
theorem comparedNumber_of_isEmpty (validation : String) (holds : Double → Double → Bool) :
    comparedNumber validation holds value parameters = pure true := by
  simp only [comparedNumber, hlimit, hvalue, if_true]
  rfl

/-- So it is within every limit on lengths. -/
theorem comparedLength_of_isEmpty (validation : String) (holds : Double → Double → Bool) :
    comparedLength validation holds value parameters = pure true := by
  simp only [comparedLength, hlimit, hvalue, if_true]
  rfl

theorem digitsLength_of_isEmpty : digitsLength value parameters = pure true := by
  simp only [digitsLength, hlimit, hvalue, if_true]
  rfl

/-- So it is within every limit on days. -/
theorem comparedDay_of_isEmpty (validation : String) (holds : Date → Date → Bool) :
    comparedDay validation holds value parameters = pure true := by
  simp only [comparedDay, hlimit, hvalue, if_true]
  rfl

end

end Predicate

namespace Catalog

open Predicate

/-- The built-in predicates that say something of an empty value: three require a value, one asks
for a yes, and two compare it with another field. -/
def mindEmpty : List String :=
  ["required", "requiredIf", "requiredIfNot", "accepted", "same", "different"]

/-- An empty value passes any other built-in predicate, and nothing else happens. -/
theorem call_of_isEmpty {d : Definition} (hd : d ∈ builtinDefinitions)
    (hname : d.name ∉ mindEmpty) {n : Need} (hneed : need d.name = n) {parameters : List Value}
    (hadmits : n.Admits parameters) {value : Value} (hvalue : value.isEmpty = true)
    (context : Option Context) :
    d.call value parameters context = pure true := by
  cases builtIn_of_mem hd with
  | required description | accepted description => exact (hname (by simp [plain, mindEmpty])).elim
  | requiredWhen name description hmem =>
    have hsubset : ["requiredIf", "requiredIfNot"] ⊆ mindEmpty := by decide
    exact (hname (hsubset hmem)).elim
  | ofPattern name pattern description hmem =>
    obtain rfl : n = .nothing := hneed.symm.trans (need_of_mem (by decide) hmem)
    rw [call_plain, eq_nil_of_admits hadmits, ofPattern_of_isEmpty hvalue]
  | ipvFour description =>
    obtain rfl : n = .nothing := hneed.symm
    rw [call_plain, eq_nil_of_admits hadmits, ipvFour_of_isEmpty hvalue]
  | number description =>
    obtain rfl : n = .nothing := hneed.symm
    rw [call_plain, eq_nil_of_admits hadmits, number_of_isEmpty hvalue]
  | comparedNumber name holds description hmem =>
    obtain rfl : n = .number := hneed.symm.trans (need_of_mem (by decide) hmem)
    rw [call_plain, comparedNumber_of_isEmpty hvalue (upToOne_of_length_le (hadmits 1 rfl))]
  | between description => rw [call_plain, between_of_isEmpty hvalue]
  | digitsLength description =>
    obtain rfl : n = .number := hneed.symm
    rw [call_plain, digitsLength_of_isEmpty hvalue (upToOne_of_length_le (hadmits 1 rfl))]
  | digitsLengthBetween description => rw [call_plain, digitsLengthBetween_of_isEmpty hvalue]
  | comparedLength name holds description hmem =>
    obtain rfl : n = .number := hneed.symm.trans (need_of_mem (by decide) hmem)
    rw [call_plain, comparedLength_of_isEmpty hvalue (upToOne_of_length_le (hadmits 1 rfl))]
  | betweenLength description => rw [call_plain, betweenLength_of_isEmpty hvalue]
  | contains description => rw [call_plain, contains_of_isEmpty hvalue]
  | notIn description => rw [call_plain, notIn_of_isEmpty hvalue]
  | comparedDay name holds description hmem =>
    obtain rfl : n = .day := hneed.symm.trans (need_of_mem (by decide) hmem)
    rw [call_plain, comparedDay_of_isEmpty hvalue (upToOne_of_length_le (hadmits 1 rfl))]
  | compareSibling name description hmem =>
    have hsubset : ["same", "different"] ⊆ mindEmpty := by decide
    exact (hname (hsubset hmem)).elim

/-- A comparison with another field, called in a run: it passes just if the parameter names a field
and the values are equal or not, as the comparison has it. -/
theorem compareSibling_passes_iff {validation : String} {equal : Bool} {value : Value}
    {parameters : List Value} (hadmits : parameters.length ≤ 1) {here : Context}
    {answer : (q : Request) → Attempt q.Reply} {sibling : String → Value}
    (hsibling : ∀ name, fieldName? (parameters.headD .null) = .ok (some name) →
      answer (.sibling (.text name)) = .ok (sibling name)) :
    ((compareSibling validation equal value parameters (some here)).outcome answer).1 = .ok true ↔
      ∃ name, fieldName? (parameters.headD .null) = .ok (some name) ∧
        value.same (sibling name) = equal := by
  rw [outcome_compareSibling (upToOne_of_length_le hadmits)]
  rcases hname : fieldName? (parameters.headD .null) with fault | _ | name
  · simp
  · simp
  · have hvalue := hsibling name hname
    simp only [siblingIn]
    rw [hvalue]
    simp [bind, Except.bind, pure, Except.pure]

/-- **A field that may be left out**: where the named siblings have values, an empty value passes
any built-in predicate that does not ask for a value, whatever the parameters. The exceptions are
the two comparisons with another field. They treat an empty value like any other, so it passes just
if the other field is named and its value is the same, or is not. -/
theorem passes_empty_iff {d : Definition} (hd : d ∈ builtinDefinitions)
    (hname : d.name ∉ ["required", "requiredIf", "requiredIfNot", "accepted"])
    {parameters : List Value} (hadmits : (need d.name).Admits parameters) {value : Value}
    (hvalue : value.isEmpty = true) (here : Context) (r : Ref) (passes : String → Value → Run Bool)
    (w : World) {sibling : String → Value}
    (hsibling : d.name ∈ ["same", "different"] →
      ∀ name, fieldName? (parameters.headD .null) = .ok (some name) →
        (Run.readField r here.form (.text name) w).1 = .ok (sibling name)) :
    ((d.call value parameters (some here)).run
        (Run.respond (Run.readField r here.form) passes) w).1 = .ok true ↔
      (d.name ∈ ["same", "different"] →
        ∃ name, fieldName? (parameters.headD .null) = .ok (some name) ∧
          value.same (sibling name) = (d.name == "same")) := by
  obtain ⟨notes, hrun⟩ :=
    (asks_builtin hd).run_call r w passes here.form value parameters (some here)
  rw [hrun]
  by_cases hcompares : d.name ∈ ["same", "different"]
  · simp only [hcompares, true_implies]
    cases builtIn_of_mem hd with
    | compareSibling name description hmem =>
      have hfield : Need.field.Admits parameters :=
        (need_of_mem (n := .field) (by decide) hmem : need name = .field) ▸ hadmits
      rw [call_crossField]
      exact compareSibling_passes_iff (hfield 1 rfl) (hsibling hmem)
    | _ => grind [plain, crossField]
  · have hfree : d.name ∉ mindEmpty := by grind [mindEmpty]
    simp [call_of_isEmpty hd hfree rfl hadmits hvalue, hcompares]

end Catalog

namespace Blank

/-- A world with the values of one form, where the password was entered once. -/
def signup : World :=
  { (∅ : World) with
    accessors := (∅ : Shelf Accessor).add "values"
      (.table ⟨[(.text "signup",
        ⟨[(.text "password", .text "s3cret"), (.text "repeated", .text " ")]⟩)]⟩) }

/-- The second password, which is to be the same. -/
def repeated : Context := ⟨.text "signup", .text "repeated"⟩

open Catalog Predicate

/-- A blank second password is different from the first, which is found in the form. -/
theorem different_passes :
    (((crossField "different" different "Value must differ from another field's value.").call
      (.text " ") [.text "password"] (some repeated)).run
        (Run.respond (Run.readField ⟨"values", 0⟩ repeated.form) fun _ _ => pure true) signup).1 =
          .ok true := by
  have hadmits : (need "different").Admits [.text "password"] := by decide
  have hvalue : (Value.text " ").isEmpty = true := rfl
  have hname : fieldName? (.text "password") = .ok (some "password") := by decide
  have hsibling (name : String) (h : fieldName? (.text "password") = .ok (some name)) :
      (Run.readField ⟨"values", 0⟩ repeated.form (.text name) signup).1 =
        .ok ((fun _ => .text "s3cret") name) := by
    obtain rfl : "password" = name := Option.some.inj (Except.ok.inj (hname.symm.trans h))
    rfl
  exact (passes_empty_iff
    (d := crossField "different" different "Value must differ from another field's value.")
    (by simp [builtinDefinitions]) (by simp [crossField]) hadmits hvalue repeated ⟨"values", 0⟩
    (fun _ _ => pure true) signup fun _ => hsibling).mpr fun _ => ⟨"password", hname, rfl⟩

/-- A blank second password does not pass, although nobody requires it. -/
theorem same_fails :
    ¬∀ d ∈ builtinDefinitions, d.name ∉ ["required", "requiredIf", "requiredIfNot", "accepted"] →
      ∀ value : Value, value.isEmpty = true → ∀ parameters, (need d.name).Admits parameters →
        ((d.call value parameters (some repeated)).run
          (Run.respond (Run.readField ⟨"values", 0⟩ repeated.form) fun _ _ => pure true) signup).1 =
            .ok true := by
  intro h
  have hcall := h (crossField "same" same "Value must equal another field's value.")
    (by simp [builtinDefinitions]) (by simp [crossField]) (.text " ") rfl [.text "password"]
      (by decide)
  exact absurd hcall (by decide)

end Blank

end FormRules
