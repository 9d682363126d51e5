import FormRules.Proofs.Message.Overrides

/-!
# The last template given

A composer has a history: the messages that it was made with, and those that were added to it since,
whether or not each of them could be added as a whole. What it answers when it is asked for a
template follows from this history alone (`Composer.last_given_holds`).
-/

namespace FormRules

namespace Composer

/-- A composer to which several messages were added one after the other, whether or not each of them
could be. -/
def addAll (c : Composer) (calls : List Value) : Composer :=
  calls.foldl (fun c messages => (c.add messages).1) c

/-- The last override that was added counts, and the template before all of them where there is
none. -/
theorem inScope_addAll (c : Composer) (calls : List Value) (scope : Option Value)
    (method : String) :
    (c.addAll calls).inScope scope method =
      (Override.last? (calls.flatMap Override.given) scope method).or (c.inScope scope method) := by
  induction calls generalizing c with
  | nil => rfl
  | cons messages calls ih =>
    have hstep : (c.add messages).1.inScope scope method =
        (Override.last? (Override.given messages) scope method).or (c.inScope scope method) := by
      cases messages with
      | map es => exact c.inScope_overrideAll_given es scope method
      | _ => rfl
    rw [show c.addAll (messages :: calls) = (c.add messages).1.addAll calls from rfl, ih, hstep,
      List.flatMap_cons, Override.last?_append, Option.or_assoc]

/-! ## The templates of a composer that was made -/

/-- Without a form the general template is in force. -/
theorem templateFor_null (c : Composer) (method : String) :
    c.templateFor method .null = .ok (c.inScope none method) := rfl

theorem inScope_standard (method : String) :
    standard.inScope none method = Template.standard.lookup method := by
  change Table.find (Value.text method) (Template.standard.map fun e => (Value.text e.1, e.2)) = _
  induction Template.standard with
  | nil => rfl
  | cons e es ih =>
    obtain ⟨name, template⟩ := e
    have hkey : (Value.text name == Value.text method) = (name == method) := rfl
    rw [List.map_cons, Table.find, ih, hkey, List.lookup_cons, Bool.beq_comm]
    cases method == name <;> rfl

theorem addGiven_fst (c : Composer) (messages : Value) :
    (c.addGiven messages).1 = (c.add messages).1 := by
  unfold addGiven
  split
  · rfl
  · next h =>
    cases messages with
    | map es =>
      obtain rfl : es = [] := by simpa [Value.truth] using h
      rfl
    | _ => rfl

/-- The messages that a composer is made with are the first that are added to the standard
templates. -/
theorem addAll_of_new {messages : Value} {c : Composer} (h : new messages = .ok c)
    (calls : List Value) :
    c.addAll calls = standard.addAll (messages :: calls) := by
  have hc : c = (standard.add messages).1 := by
    rw [← addGiven_fst]
    unfold new at h
    split at h
    · next hadded =>
      rw [hadded]
      exact (Except.ok.inj h).symm
    · cases h
  rw [hc]
  rfl

/-- The general template that is in force after overrides: the last one given for all forms, or else
the standard one. -/
def generalTemplate (given : List Override) (method : String) : Option String :=
  (Override.last? given none method).or (Template.standard.lookup method)

/-- Templates for one form leave a template in force on another form, or without a form, or for a
predicate that they do not name. -/
theorem templateFor_addForm (c : Composer) {form other : Value} {templates : List (Value × Value)}
    {method : String} (hother : other.hashable)
    (h : other = .null ∨ (form == other) = false ∨ ∀ e ∈ templates, (e.1 == .text method) = false) :
    (c.addAll [.map [(form, .map templates)]]).templateFor method other =
      c.templateFor method other := by
  have hmem : ∀ o ∈ Override.given (.map [(form, .map templates)]),
      ∃ e ∈ templates, o = ⟨some form, e.1, e.2⟩ := by
    intro o ho
    obtain ⟨entry, hentry, ho⟩ := List.mem_flatMap.mp ho
    obtain rfl := List.mem_singleton.mp ((List.takeWhile_sublist _).subset hentry)
    obtain ⟨e, he, rfl⟩ := List.mem_map.mp ho
    exact ⟨e, he, rfl⟩
  have hgeneral : (c.addAll [.map [(form, .map templates)]]).inScope none method =
      c.inScope none method := by
    rw [inScope_addAll, List.flatMap_singleton, Override.last?_eq_none, Option.none_or]
    intro o ho
    obtain ⟨e, -, rfl⟩ := hmem o ho
    rfl
  by_cases hnull : other = .null
  · rw [hnull, templateFor_null, templateFor_null, hgeneral]
  · have hform : (c.addAll [.map [(form, .map templates)]]).inScope (some other) method =
        c.inScope (some other) method := by
      rw [inScope_addAll, List.flatMap_singleton, Override.last?_eq_none, Option.none_or]
      intro o ho
      obtain ⟨e, he, rfl⟩ := hmem o ho
      rcases h.resolve_left hnull with hform | hmethod
      · simp [Override.template?, hform]
      · simp [Override.template?, hmethod e he]
    rw [templateFor_eq _ method hother hnull, templateFor_eq _ method hother hnull, hform, hgeneral]

/-- **The last template given holds, in each scope for itself.** A composer that was made with
messages and then took others has for a predicate on a form the last template that was given for
this form, or else the last that was given for all forms, or else the standard one. What cannot be
added of some messages is what comes from a template without text on. So no predicate loses its
standard template but to another, and templates for one form change nothing but those of the
predicates that they name, on that form. -/
theorem last_given_holds {messages : Value} {c : Composer} (hc : new messages = .ok c)
    (calls : List Value) :
    let after : Composer := c.addAll calls
    let given : List Override := (messages :: calls).flatMap Override.given
    (∀ method, after.templateFor method .null = .ok (generalTemplate given method)) ∧
    (∀ method form, form.hashable → form ≠ .null → after.templateFor method form =
      .ok ((Override.last? given (some form) method).or (generalTemplate given method))) ∧
    (∀ es, (∀ o ∈ Override.ofEntries es, ¬o.template.Long) →
      (after.add (.map es)).2 = .ok () ∧ Override.given (.map es) = Override.ofEntries es) ∧
    (∀ method form, form.hashable → (Template.standard.lookup method).isSome →
      ∃ template, after.templateFor method form = .ok (some template)) ∧
    ∀ method form templates other, other.hashable →
      (other = .null ∨ (form == other) = false ∨ ∀ e ∈ templates, (e.1 == .text method) = false) →
        (after.addAll [.map [(form, .map templates)]]).templateFor method other =
          after.templateFor method other := by
  intro after given
  have hscope (scope : Option Value) (method : String) : after.inScope scope method =
      (Override.last? given scope method).or (standard.inScope scope method) := by
    rw [show after = standard.addAll (messages :: calls) from addAll_of_new hc calls,
      inScope_addAll]
  have hgeneral (method : String) : after.templateFor method .null =
      .ok (generalTemplate given method) := by
    rw [templateFor_null, hscope, inScope_standard, generalTemplate]
  have hform (method : String) (form : Value) (hhashable : form.hashable) (hnull : form ≠ .null) :
      after.templateFor method form =
        .ok ((Override.last? given (some form) method).or (generalTemplate given method)) := by
    rw [templateFor_eq _ method hhashable hnull, hscope, hscope, inScope_standard, generalTemplate,
      show standard.inScope (some form) method = none from rfl, Option.or_none]
  refine ⟨hgeneral, hform, fun es hes => ⟨?_, Override.given_of_not_long hes⟩,
    fun method form hhashable hstandard => ?_,
    fun method form templates other hother h => templateFor_addForm after hother h⟩
  · cases hadded : (after.overrideAll es).2 with
    | ok _ => exact hadded
    | error fault =>
      obtain ⟨-, o, ho, hlong⟩ := (after.overrideAll_longIf es fault).mp hadded
      exact absurd hlong (hes o ho)
  · have hsome : ∃ template, generalTemplate given method = some template := by
      obtain ⟨template, htemplate⟩ := Option.isSome_iff_exists.mp hstandard
      rw [generalTemplate, htemplate]
      cases Override.last? given none method with
      | none => exact ⟨template, rfl⟩
      | some other => exact ⟨other, rfl⟩
    obtain ⟨template, htemplate⟩ := hsome
    by_cases hnull : form = .null
    · exact ⟨template, by rw [hnull, hgeneral, htemplate]⟩
    · rw [hform method form hhashable hnull, htemplate]
      cases Override.last? given (some form) method with
      | none => exact ⟨template, rfl⟩
      | some other => exact ⟨other, rfl⟩

end Composer

namespace SignupTemplates

/-- Messages with a template for all forms and one for a form. -/
def messages : Value :=
  .map [(.text "required", .text "Missing."),
    (.text "signup", .map [(.text "required", .text "Tell us.")])]

/-- Messages for the same form, and others that cannot be added as a whole. -/
def calls : List Value :=
  [.map [(.text "signup", .map [(.text "email", .text "Which address?")])],
    .map [(.text "required", .text "Needed."), (.text "min", .int (Nat.pow 10 maxDigits)),
      (.text "max", .text "Too much.")]]

/-- More templates for the form. -/
def more : List (Value × Value) := [(.text "url", .text "Which page?")]

theorem not_long_more :
    ∀ o ∈ Override.ofEntries [(.text "signup", .map more)], ¬o.template.Long := by
  intro o ho
  obtain rfl : o = ⟨some (.text "signup"), .text "url", .text "Which page?"⟩ :=
    List.mem_singleton.mp ho
  exact Value.not_long (by simp) rfl

/-- The form keeps its first template when it is given others, and that goes before what is given
later for all forms. A mapping is added up to the number that cannot be written. -/
theorem form_keeps_template : ∃ c, Composer.new messages = .ok c ∧
    (c.addAll calls).templateFor "required" (.text "signup") = .ok (some "Tell us.") ∧
    (c.addAll calls).templateFor "email" (.text "signup") = .ok (some "Which address?") ∧
    (c.addAll calls).templateFor "required" (.text "login") = .ok (some "Needed.") ∧
    (c.addAll calls).templateFor "max" .null =
      .ok (some "This field must be no more than \x7b0\x7d.") ∧
    (∃ template, (c.addAll calls).templateFor "min" (.text "signup") = .ok (some template)) ∧
    ((c.addAll calls).add (.map [(.text "signup", .map more)])).2 = .ok () ∧
    ((c.addAll calls).addAll [.map [(.text "signup", .map more)]]).templateFor "required"
      (.text "signup") =
      .ok (some "Tell us.") := by
  obtain ⟨c, hc⟩ : ∃ c, Composer.new messages = .ok c := ⟨_, rfl⟩
  obtain ⟨hgeneral, hform, hadded, hstandard, hothers⟩ := Composer.last_given_holds hc calls
  have hrequired : (c.addAll calls).templateFor "required" (.text "signup") =
      .ok (some "Tell us.") :=
    (hform _ _ rfl (by simp)).trans (by decide +kernel)
  have hkept := hothers "required" (.text "signup") more (.text "signup") rfl
    (.inr (.inr (by decide)))
  exact ⟨c, hc, hrequired, (hform _ _ rfl (by simp)).trans (by decide +kernel),
    (hform _ _ rfl (by simp)).trans (by decide +kernel), (hgeneral _).trans (by decide +kernel),
    hstandard "min" _ rfl (by decide +kernel), (hadded _ not_long_more).1, hkept.trans hrequired⟩

end SignupTemplates

end FormRules
