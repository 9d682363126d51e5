import FormRules.Proofs.Rule.Siblings

/-!
# Requirements under a condition

A field may be required if another field meets an expectation, or unless it does. An expectation is
a text, a truth value, or a list of expectations in which there may be lists again
(`Value.IsExpected`).

The two predicates divide the cases between them. With a list of expectations the one holds if it
holds with every item, and the other if it holds with some item (`Catalog.requirements_split`). All
this is so where the comparison comes to a result. It does not where the value of the other field
has no text, unless nothing is expected at all.
-/

namespace FormRules

open Predicate

/-- What may be expected of a field: a token, or a list of expectations. -/
inductive Value.IsExpected : Value → Prop
  | token {v : Value} (h : v.IsToken) : IsExpected v
  | list {xs : List Value} (h : ∀ x ∈ xs, IsExpected x) : IsExpected (.list xs)

/-- There is a token in the expectation, so it is not made of empty lists only. -/
inductive Value.HasToken : Value → Prop
  | token {v : Value} (h : v.IsToken) : HasToken v
  | item {x : Value} {xs : List Value} (hx : x ∈ xs) (h : HasToken x) : HasToken (.list xs)

theorem Value.hasToken_list_iff {xs : List Value} : (list xs).HasToken ↔ ∃ x ∈ xs, x.HasToken := by
  constructor
  · rintro (⟨⟨⟩⟩ | ⟨hx, h⟩)
    exact ⟨_, hx, h⟩
  · rintro ⟨x, hx, h⟩
    exact .item hx h

theorem Value.IsExpected.items {xs : List Value} (h : (Value.list xs).IsExpected) :
    ∀ x ∈ xs, x.IsExpected := by
  cases h with
  | token h => cases h
  | list h => exact h

theorem Value.IsExpected.ne_null {v : Value} (h : v.IsExpected) : v ≠ .null := by
  cases h with
  | token h => exact h.ne_null
  | list _ => exact nofun

namespace Predicate

variable {actual e : Value} {xs : List Value}

/-- Where each of the expectations can be judged, one of them is met or none is. -/
theorem meetsAny_decides (h : ∀ x ∈ xs, ∃ b, meets actual x = .ok b) :
    ∃ b, meetsAny actual xs = .ok b ∧ (b = true ↔ ∃ x ∈ xs, meets actual x = .ok true) := by
  induction xs with
  | nil => exact ⟨false, rfl, by simp⟩
  | cons x xs ih =>
    obtain ⟨met, hmet⟩ := h x List.mem_cons_self
    obtain ⟨rest, hrest, hany⟩ := ih fun y hy => h y (List.mem_cons_of_mem x hy)
    refine ⟨met || rest, ?_, by simp [hmet, hany]⟩
    cases met <;> simp [meetsAny, hmet, hrest, bind, Except.bind, pure, Except.pure]

/-- A value that has a text can be compared with any expectation. -/
theorem meets_eq_ok_of_expected {s : String} (hactual : actual.plainText = .ok s)
    (he : e.IsExpected) :
    ∃ b, meets actual e = .ok b := by
  induction he with
  | token h => exact meets_eq_ok hactual h
  | list _ ih =>
    obtain ⟨b, hb, -⟩ := meetsAny_decides ih
    exact ⟨b, hb⟩

/-- Where nothing is expected, no value meets the expectation. -/
theorem meets_of_not_hasToken (actual : Value) (he : e.IsExpected) (hnone : ¬e.HasToken) :
    meets actual e = .ok false := by
  induction he with
  | token h => exact absurd (.token h) hnone
  | @list xs _ ih =>
    have hitems (x : Value) (hx : x ∈ xs) : meets actual x = .ok false :=
      ih x hx fun h => hnone (.item hx h)
    obtain ⟨b, hb, hany⟩ := meetsAny_decides fun x hx => ⟨false, hitems x hx⟩
    cases b with
    | false => exact hb
    | true =>
      obtain ⟨x, hx, hmet⟩ := hany.mp rfl
      rw [hitems x hx] at hmet
      cases hmet

/-- A value without text cannot be compared where a token is expected. -/
theorem meets_eq_error_of_hasToken {fault : Fault} (hactual : actual.plainText = .error fault)
    (he : e.IsExpected) (hsome : e.HasToken) : meets actual e = .error fault := by
  induction he with
  | token h => exact meets_eq_error hactual h
  | @list xs hexpected ih =>
    change meetsAny actual xs = _
    rw [Value.hasToken_list_iff] at hsome
    induction xs with
    | nil => simp at hsome
    | cons x xs ihxs =>
      by_cases hx : x.HasToken
      · simp [meetsAny, ih x List.mem_cons_self hx, bind, Except.bind]
      · have hrest : ∃ y ∈ xs, y.HasToken := by simpa [hx] using hsome
        have hmet := meets_of_not_hasToken actual (hexpected x List.mem_cons_self) hx
        have hother := ihxs (fun y hy => hexpected y (List.mem_cons_of_mem x hy))
          (fun y hy => ih y (List.mem_cons_of_mem x hy)) hrest
        simp [meetsAny, hmet, hother, bind, Except.bind]

/-- Only a value without text is in the way of a comparison, and only where a token is expected. -/
theorem meets_longIf (actual : Value) (he : e.IsExpected) :
    LongIf (actual.Long ∧ e.HasToken) (meets actual e) := by
  have htext := Value.plainText_longIf actual
  by_cases hsome : e.HasToken
  · refine LongIf.congr (fun fault => ?_) (and_iff_left hsome).symm
    rw [← htext fault]
    cases hactual : actual.plainText with
    | ok s =>
      obtain ⟨b, hb⟩ := meets_eq_ok_of_expected hactual he
      simp [hb]
    | error fault' => simp [meets_eq_error_of_hasToken hactual he hsome]
  · rw [meets_of_not_hasToken actual he hsome]
    exact .ok false fun h => hsome h.2

/-- A comparison comes to a result, unless a token is expected of a value without text. -/
theorem meets_eq_ok_of_not_long (he : e.IsExpected) (h : ¬(actual.Long ∧ e.HasToken)) :
    ∃ b, meets actual e = .ok b := by
  cases hmeets : meets actual e with
  | ok b => exact ⟨b, rfl⟩
  | error fault => exact absurd ((meets_longIf actual he fault).mp hmeets).2 h

/-- A list that can be judged consists of items that can be judged, and is met with one of them. -/
theorem meets_list_decides (hxs : ∀ x ∈ xs, x.IsExpected)
    (h : ¬(actual.Long ∧ (Value.list xs).HasToken)) :
    (∀ x ∈ xs, ∃ b, meets actual x = .ok b) ∧
      ∃ b, meets actual (.list xs) = .ok b ∧ (b = true ↔ ∃ x ∈ xs, meets actual x = .ok true) := by
  have hitems (x : Value) (hx : x ∈ xs) : ∃ b, meets actual x = .ok b :=
    meets_eq_ok_of_not_long (hxs x hx) fun hlong => h ⟨hlong.1, .item hx hlong.2⟩
  exact ⟨hitems, meetsAny_decides hitems⟩

end Predicate

namespace Catalog

/-- A built-in predicate, called in a world where siblings are read from an accessor. -/
def callIn (r : Ref) (here : Context) (passes : String → Value → Run Bool) (w : World)
    (name : String)
    (value : Value) (parameters : List Value) : Attempt Bool × World :=
  (callBuiltin name value parameters (some here)).run
    (Run.respond (Run.readField r here.form) passes) w

theorem resolve_requiredIf : ∃ description, builtins.resolve "requiredIf" =
    some (crossField "requiredIf" (requiredWhen "requiredIf" false) description) := ⟨_, rfl⟩

theorem resolve_requiredIfNot : ∃ description, builtins.resolve "requiredIfNot" =
    some (crossField "requiredIfNot" (requiredWhen "requiredIfNot" true) description) := ⟨_, rfl⟩

variable {r : Ref} {here : Context} {passes : String → Value → Run Bool} {w : World}
  {other : Value} {name : String} (hother : fieldName? other = .ok (some name)) {sibling : Value}
  (hsibling : (Run.readField r here.form (.text name) w).1 = .ok sibling)
include hother hsibling

/-- A requirement under a condition decides by what is read for the field that the condition is
about. -/
theorem callIn_requirement {validation : String} {unlessMet : Bool}
    (hresolve : ∃ description, builtins.resolve validation =
      some (crossField validation (requiredWhen validation unlessMet) description)) (value : Value)
    {e : Value} (he : e.IsExpected) :
    callIn r here passes w validation value [other, e] =
      ((meets sibling e).map fun met => met == unlessMet || !value.isEmpty, w) := by
  obtain ⟨description, hresolve⟩ := hresolve
  have hread : Run.readField r here.form (.text name) w = (.ok sibling, w) := by
    rw [← hsibling, Run.readField_apply]
  rw [callIn, callBuiltin_eq hresolve, call_crossField,
    run_requiredWhen hother validation here unlessMet he.ne_null, Run.bind_apply, hread]
  exact Run.bind_pure_apply _ _ w

variable (value : Value) {e : Value}

/-- A requirement passes if its condition is not met, or there is a value. -/
theorem requiredIf_passes_iff (he : e.IsExpected) {met : Bool} (hmet : meets sibling e = .ok met) :
    callIn r here passes w "requiredIf" value [other, e] = (.ok true, w) ↔
      met = false ∨ value.isEmpty = false := by
  rw [callIn_requirement hother hsibling resolve_requiredIf value he, hmet]
  simp [Except.map]

/-- The opposite requirement passes if the condition is met, or there is a value. -/
theorem requiredIfNot_passes_iff (he : e.IsExpected) {met : Bool}
    (hmet : meets sibling e = .ok met) :
    callIn r here passes w "requiredIfNot" value [other, e] = (.ok true, w) ↔
      met = true ∨ value.isEmpty = false := by
  rw [callIn_requirement hother hsibling resolve_requiredIfNot value he, hmet]
  simp [Except.map]

section

variable {es : List Value} (hes : ∀ x ∈ es, x.IsExpected)
  (hread : ¬(sibling.Long ∧ (Value.list es).HasToken))
include hes hread

/-- A requirement with a list is one with each of its items. -/
theorem requiredIf_list_iff :
    callIn r here passes w "requiredIf" value [other, .list es] = (.ok true, w) ↔
    ∀ x ∈ es, callIn r here passes w "requiredIf" value [other, x] = (.ok true, w) := by
  obtain ⟨hitems, met, hmet, hany⟩ := meets_list_decides hes hread
  rw [requiredIf_passes_iff hother hsibling value (.list hes) hmet]
  constructor
  · intro h x hx
    obtain ⟨b, hb⟩ := hitems x hx
    refine (requiredIf_passes_iff hother hsibling value (hes x hx) hb).mpr
      (h.imp_left fun hnone => ?_)
    cases b with
    | false => rfl
    | true => exact (hany.mpr ⟨x, hx, hb⟩).symm.trans hnone
  · intro h
    cases met with
    | false => exact .inl rfl
    | true =>
      obtain ⟨x, hx, hb⟩ := hany.mp rfl
      exact .inr (((requiredIf_passes_iff hother hsibling value (hes x hx) hb).mp
        (h x hx)).resolve_left
        nofun)

/-- The opposite requirement with a list is one with some item of it. -/
theorem requiredIfNot_list_iff (hne : es ≠ []) :
    callIn r here passes w "requiredIfNot" value [other, .list es] = (.ok true, w) ↔
      ∃ x ∈ es, callIn r here passes w "requiredIfNot" value [other, x] = (.ok true, w) := by
  obtain ⟨hitems, met, hmet, hany⟩ := meets_list_decides hes hread
  rw [requiredIfNot_passes_iff hother hsibling value (.list hes) hmet]
  constructor
  · rintro (hmet | hvalue)
    · obtain ⟨x, hx, hb⟩ := hany.mp hmet
      exact ⟨x, hx, (requiredIfNot_passes_iff hother hsibling value (hes x hx) hb).mpr (.inl rfl)⟩
    · obtain ⟨x, hx⟩ := List.exists_mem_of_ne_nil es hne
      obtain ⟨b, hb⟩ := hitems x hx
      exact ⟨x, hx, (requiredIfNot_passes_iff hother hsibling value (hes x hx) hb).mpr
        (.inr hvalue)⟩
  · rintro ⟨x, hx, h⟩
    obtain ⟨b, hb⟩ := hitems x hx
    refine ((requiredIfNot_passes_iff hother hsibling value (hes x hx) hb).mp h).imp_left
      fun hmet => ?_
    exact hany.mpr ⟨x, hx, hmet ▸ hb⟩

end

/-- **Requirements under opposite conditions split the cases.** Both hold of a value that is not
empty, and just one of them of an empty value. With a list the one holds if it holds with every
item, and the other if it holds with some item. This is so unless a token is expected of a field
whose value has no text: then neither comes to a result. -/
theorem requirements_split (he : e.IsExpected) :
    (¬(sibling.Long ∧ e.HasToken) →
      (value.isEmpty = false →
        callIn r here passes w "requiredIf" value [other, e] = (.ok true, w) ∧
        callIn r here passes w "requiredIfNot" value [other, e] = (.ok true, w)) ∧
      (value.isEmpty = true → ∃ b,
        callIn r here passes w "requiredIf" value [other, e] = (.ok b, w) ∧
        callIn r here passes w "requiredIfNot" value [other, e] = (.ok !b, w)) ∧
      ∀ es, e = .list es → es ≠ [] →
        (callIn r here passes w "requiredIf" value [other, e] = (.ok true, w) ↔
          ∀ x ∈ es, callIn r here passes w "requiredIf" value [other, x] = (.ok true, w)) ∧
        (callIn r here passes w "requiredIfNot" value [other, e] = (.ok true, w) ↔
          ∃ x ∈ es, callIn r here passes w "requiredIfNot" value [other, x] = (.ok true, w))) ∧
    (sibling.Long ∧ e.HasToken →
      callIn r here passes w "requiredIf" value [other, e] = (.error .tooManyDigits, w) ∧
      callIn r here passes w "requiredIfNot" value [other, e] = (.error .tooManyDigits, w)) := by
  have hif : callIn r here passes w "requiredIf" value [other, e] = _ :=
    callIn_requirement hother hsibling resolve_requiredIf value he
  have hunless : callIn r here passes w "requiredIfNot" value [other, e] = _ :=
    callIn_requirement hother hsibling resolve_requiredIfNot value he
  refine ⟨fun hread => ?_, fun hlong => ?_⟩
  · obtain ⟨met, hmet⟩ := meets_eq_ok_of_not_long he hread
    refine ⟨fun hvalue => ⟨?_, ?_⟩, fun hvalue => ⟨!met, ?_, ?_⟩, ?_⟩
    · exact (requiredIf_passes_iff hother hsibling value he hmet).mpr (.inr hvalue)
    · exact (requiredIfNot_passes_iff hother hsibling value he hmet).mpr (.inr hvalue)
    · simp [hif, hmet, hvalue, Except.map]
    · simp [hunless, hmet, hvalue, Except.map]
    · rintro es rfl hne
      exact ⟨requiredIf_list_iff hother hsibling value he.items hread,
        requiredIfNot_list_iff hother hsibling value he.items hread hne⟩
  · have hmeets := (meets_longIf sibling he .tooManyDigits).mpr ⟨rfl, hlong⟩
    rw [hif, hunless, hmeets]
    exact ⟨rfl, rfl⟩

end Catalog

namespace OneOfTwo

/-- A world where every field has the value. -/
def world (v : Value) : World :=
  { FiveDigits.world with
    accessors := (∅ : Shelf Accessor).add "values" (.computed fun _ _ => .ok v) }

/-- The requirement of a value under a condition on another field, which has the given value. -/
def called (sibling : Value) (name : String) (value expected : Value) : Attempt Bool × World :=
  Catalog.callIn FiveDigits.engine.accessor OtherField.here (fun _ _ => pure true)
    (world sibling) name value [.text "other", expected]

theorem other_read (sibling : Value) :
    (Run.readField FiveDigits.engine.accessor OtherField.here.form (.text "other")
      (world sibling)).1 = .ok sibling := rfl

theorem fieldName?_other : fieldName? (.text "other") = .ok (some "other") := by decide +kernel

/-- Beside a 5, one of the two requires a value where the other does not. That a 5 or a 6 calls for
a value is so because a 5 does. -/
theorem five_or_six :
    (∃ b, called (.text "5") "requiredIf" (.text "") (.list [.text "5", .text "6"]) =
        (.ok b, world (.text "5")) ∧
      called (.text "5") "requiredIfNot" (.text "") (.list [.text "5", .text "6"]) =
        (.ok !b, world (.text "5"))) ∧
    (called (.text "5") "requiredIfNot" (.text "") (.list [.text "5", .text "6"]) =
        (.ok true, world (.text "5")) ↔
      ∃ x ∈ [Value.text "5", .text "6"], called (.text "5") "requiredIfNot" (.text "") x =
        (.ok true, world (.text "5"))) := by
  have hexpected : (Value.list [.text "5", .text "6"]).IsExpected := by
    refine .list fun x hx => .token ?_
    simp only [List.mem_cons, List.not_mem_nil, or_false] at hx
    rcases hx with rfl | rfl <;> exact .text _
  have hlong : ¬((Value.text "5").Long ∧ (Value.list [.text "5", .text "6"]).HasToken) :=
    fun h => Value.not_long (by simp) rfl h.1
  obtain ⟨-, hempty, hlist⟩ := (Catalog.requirements_split fieldName?_other (other_read (.text "5"))
    (.text "") hexpected).1 hlong
  exact ⟨hempty (by decide +kernel), (hlist _ rfl (List.cons_ne_nil _ _)).2⟩

/-- Beside a number with too many digits, not even a value that is not empty passes. -/
theorem long_number_undecided : ¬∀ v sibling e : Value, e.IsExpected → v.isEmpty = false →
    (called sibling "requiredIf" v e).1 = .ok true := by
  intro h
  have hlong : (Value.int (Nat.pow 10 maxDigits)).plainText = .error .tooManyDigits :=
    (Value.plainText_longIf _ _).mpr ⟨rfl, Value.long_pow⟩
  have hfive := Value.IsToken.text "5"
  have hpasses := h (.text "x") (.int (Nat.pow 10 maxDigits)) (.text "5") (.token hfive)
    (by decide +kernel)
  rw [called, Catalog.callIn_requirement fieldName?_other (other_read _)
    Catalog.resolve_requiredIf _ (.token hfive), meets_eq_error hlong hfive] at hpasses
  cases hpasses

end OneOfTwo

end FormRules
