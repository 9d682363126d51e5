import FormRules.Message.Composer
import FormRules.Proofs.Table
import FormRules.Proofs.Value.Writing
import FormRules.Proofs.World
import Mathlib.Data.List.TakeWhile

/-!
# Overrides of templates

An override gives a template for a predicate, either on one form or on all. Overrides that are
applied to a composer go before what it had, in each scope for itself, and among themselves the last
one holds (`Composer.inScope_overrideAll`). They can be applied unless a template has no text
(`Composer.overrideAll_longIf`), and then those up to that template have been applied
(`Composer.inScope_overrideAll_given`).
-/

namespace FormRules

/-- An override: the form that it is for, if it is for a single one, the name of the predicate, and
what is given for a template. -/
structure Override where
  form : Option Value
  method : Value
  template : Value

namespace Override

/-- The overrides that an entry of a mapping stands for. -/
def ofEntry : Value × Value → List Override
  | (form, .map templates) => templates.map fun e => ⟨some form, e.1, e.2⟩
  | (method, template) => [⟨none, method, template⟩]

/-- An entry that is no mapping is one override for all forms. -/
theorem ofEntry_flat (key : Value) {v : Value} (hv : ∀ es, v ≠ .map es) :
    ofEntry (key, v) = [⟨none, key, v⟩] := by
  unfold ofEntry
  split
  · next h => exact absurd (Prod.mk.inj h).2 (hv _)
  · next h => rw [← (Prod.mk.inj h).1, ← (Prod.mk.inj h).2]

/-- The overrides of the entries of a mapping. -/
def ofEntries (es : List (Value × Value)) : List Override := es.flatMap ofEntry

/-- The template that an override gives for a predicate in a scope. -/
def template? (scope : Option Value) (method : String) (o : Override) : Option String :=
  if o.form == scope && o.method == .text method then o.template.toText.toOption else none

/-- The template that was given last for a predicate in a scope. -/
def last? (os : List Override) (scope : Option Value) (method : String) : Option String :=
  os.reverse.findSome? (template? scope method)

/-- Of two lists of overrides the second one counts, and the first where it has none. -/
theorem last?_append (os os' : List Override) (scope : Option Value) (method : String) :
    last? (os ++ os') scope method = (last? os' scope method).or (last? os scope method) := by
  simp [last?, List.findSome?_append]

/-- There is no last override where there is none at all. -/
theorem last?_eq_none {os : List Override} {scope : Option Value} {method : String}
    (h : ∀ o ∈ os, template? scope method o = none) : last? os scope method = none :=
  List.findSome?_eq_none_iff.mpr fun o ho => h o (List.mem_reverse.mp ho)

/-- Every template that an entry gives has a text. -/
def readable (e : Value × Value) : Bool := (ofEntry e).all fun o => o.template.toText.isOk

/-- An entry can be read if no template in it is too long. -/
theorem readable_iff (e : Value × Value) :
    readable e = true ↔ ¬∃ o ∈ ofEntry e, o.template.Long := by
  simp only [readable, List.all_eq_true, (Value.toText_longIf _).isOk_iff, not_exists, not_and]

/-- The overrides that messages give a composer to which they are added: those of the entries of a
mapping, up to the first entry with a template that has no text. -/
def given : Value → List Override
  | .map es => ofEntries (es.takeWhile readable)
  | _ => []

theorem given_of_not_long {es : List (Value × Value)} (h : ∀ o ∈ ofEntries es, ¬o.template.Long) :
    given (.map es) = ofEntries es := by
  have hreadable : ∀ e ∈ es, readable e = true := by
    intro e he
    rw [readable_iff]
    rintro ⟨o, ho, hlong⟩
    exact h o (List.mem_flatMap.mpr ⟨e, he, ho⟩) hlong
  rw [given, List.takeWhile_eq_self_iff.mpr hreadable]

end Override

namespace Composer

/-- The template of a predicate in a scope. -/
def inScope (c : Composer) (scope : Option Value) (method : String) : Option String :=
  match scope with
  | none => c.general.get? (.text method)
  | some form => ((c.ofForm.get? form).getD ∅).get? (.text method)

/-- The template of a form is in force, or else the general one. -/
theorem templateFor_eq (c : Composer) (method : String) {form : Value} (hform : form.hashable)
    (hnull : form ≠ .null) :
    c.templateFor method form =
      .ok ((c.inScope (some form) method).or (c.inScope none method)) := by
  have htemplates : c.templatesOf form = .ok ((c.ofForm.get? form).getD ∅) := by
    unfold templatesOf
    cases form with
    | null => exact absurd rfl hnull
    | _ => simp [Value.asKey, hform, bind, Except.bind, pure, Except.pure]
  have hform : c.inScope (some form) method = ((c.ofForm.get? form).getD ∅).get? (.text method) :=
    rfl
  unfold templateFor
  rw [htemplates, hform]
  dsimp only [bind, Except.bind]
  cases ((c.ofForm.get? form).getD ∅).get? (Value.text method) <;> rfl

/-! ## Overrides of one form -/

/-- Templates can be read unless one of them is too long. -/
theorem readTemplates_longIf (es : List (Value × Value)) :
    LongIf (∃ e ∈ es, e.2.Long) (readTemplates es) := by
  induction es with
  | nil => exact .ok [] (by simp)
  | cons e es ih => exact (e.2.toText_longIf.bind fun _ => ih.map).congr (by simp)

/-- The templates of a form that are read are those that its overrides give. -/
theorem last?_ofEntry_map {key form : Value} (hkey : key == form) (method : String)
    {es : List (Value × Value)} {templates : List (Value × String)}
    (h : readTemplates es = .ok templates) :
    Override.last? (Override.ofEntry (key, .map es)) (some form) method =
      Table.last? (· == .text method) templates := by
  induction es generalizing templates with
  | nil =>
    cases h
    rfl
  | cons e es ih =>
    obtain ⟨text, htext, h⟩ := Run.eq_ok_of_bind h
    obtain ⟨rest, hrest, h⟩ := Run.eq_ok_of_bind h
    cases h
    have hcons : Override.ofEntry (key, .map (e :: es)) =
        [⟨some key, e.1, e.2⟩] ++ Override.ofEntry (key, .map es) := rfl
    rw [hcons, Override.last?_append, ih hrest, Table.last?_cons]
    simp [Override.last?, Override.template?, hkey, htext, Except.toOption]

/-! ## Single overrides -/

/-- A mapping overrides templates of the form that is its key. -/
theorem override_map (c : Composer) (key : Value) {es : List (Value × Value)}
    {templates : List (Value × String)} (h : readTemplates es = .ok templates) :
    c.override key (.map es) = ({ c with
      ofForm := c.ofForm.set key (((c.ofForm.get? key).getD ∅).setAll templates) }, .ok ()) := by
  simp [override, h]

/-- Any other value overrides a general template, if it has a text. -/
theorem override_flat (c : Composer) (key : Value) {v : Value} (hv : ∀ es, v ≠ .map es) :
    c.override key v = match v.toText with
      | .ok text => ({ c with general := c.general.set key text }, .ok ())
      | .error fault => (c, .error fault) := by
  unfold override
  split
  · exact absurd rfl (hv _)
  · rfl

/-- An override can be applied unless a template has no text. -/
theorem override_longIf (c : Composer) (key v : Value) :
    LongIf (∃ o ∈ Override.ofEntry (key, v), o.template.Long) (c.override key v).2 := by
  by_cases hv : ∃ es, v = .map es
  · obtain ⟨es, rfl⟩ := hv
    have happly : (c.override key (.map es)).2 = (do
        let _ ← readTemplates es
        return ()) := by
      cases h : readTemplates es <;> simp [override, h, bind, Except.bind, pure, Except.pure]
    rw [happly]
    exact (readTemplates_longIf es).map.congr (by simp [Override.ofEntry])
  · replace hv : ∀ es, v ≠ .map es := fun es h => hv ⟨es, h⟩
    have happly : (c.override key v).2 = (do
        let _ ← v.toText
        return ()) := by
      rw [c.override_flat key hv]
      cases v.toText <;> rfl
    rw [happly, Override.ofEntry_flat key hv]
    exact v.toText_longIf.map.congr (by simp)

/-- An override goes before what the composer had in its scope. -/
theorem inScope_override (c : Composer) (key v : Value) (h : (c.override key v).2 = .ok ())
    (scope : Option Value) (method : String) : (c.override key v).1.inScope scope method =
      (Override.last? (Override.ofEntry (key, v)) scope method).or (c.inScope scope method) := by
  -- a mapping is for the form that is its key, and anything else is a template for all forms
  by_cases hv : ∃ es, v = .map es
  · obtain ⟨es, rfl⟩ := hv
    cases htemplates : readTemplates es with
    | error fault => simp [override, htemplates] at h
    | ok templates =>
      rw [override_map c key htemplates]
      cases scope with
      | none =>
        have hnone : Override.last? (Override.ofEntry (key, .map es)) none method = none := by
          refine Override.last?_eq_none fun o ho => ?_
          obtain ⟨e, -, rfl⟩ := List.mem_map.mp ho
          rfl
        rw [hnone]
        rfl
      | some form =>
        change ((((c.ofForm.set key _).get? form).getD ∅).get? _) = _
        rw [Table.get?_set]
        by_cases hkey : key == form
        · rw [if_pos hkey, last?_ofEntry_map hkey method htemplates, Option.getD_some,
            Table.get?_setAll, Table.get?_congr c.ofForm hkey]
          rfl
        · have hnone : Override.last? (Override.ofEntry (key, .map es)) (some form) method =
              none := by
            refine Override.last?_eq_none fun o ho => ?_
            obtain ⟨e, -, rfl⟩ := List.mem_map.mp ho
            simp [Override.template?, hkey]
          rw [if_neg hkey, hnone]
          rfl
  · replace hv : ∀ es, v ≠ .map es := fun es h => hv ⟨es, h⟩
    rw [c.override_flat key hv] at h ⊢
    rw [Override.ofEntry_flat key hv]
    cases htext : v.toText with
    | error fault => simp [htext] at h
    | ok text =>
      cases scope with
      | none =>
        change (c.general.set key text).get? _ = _
        rw [Table.get?_set]
        by_cases hkey : key == .text method
        · simp [Override.last?, Override.template?, hkey, htext, Except.toOption]
        · simp [Override.last?, Override.template?, hkey, inScope]
      | some form => rfl

/-- An entry is applied if it can be read. -/
theorem override_eq_ok_iff (c : Composer) (key v : Value) :
    (c.override key v).2 = .ok () ↔ Override.readable (key, v) = true := by
  rw [Override.readable_iff, ← (c.override_longIf key v).isOk_iff]
  cases (c.override key v).2 <;> simp [Except.isOk, Except.toBool]

/-- An override that cannot be applied changes no template. -/
theorem inScope_override_of_error (c : Composer) (key v : Value) {fault : Fault}
    (h : (c.override key v).2 = .error fault) (scope : Option Value) (method : String) :
    (c.override key v).1.inScope scope method = c.inScope scope method := by
  by_cases hv : ∃ es, v = .map es
  · obtain ⟨es, rfl⟩ := hv
    cases htemplates : readTemplates es with
    | ok templates => simp [override, htemplates] at h
    | error cause =>
      -- the form is known from now on, with the templates that it had
      have hknown : (c.override key (.map es)).1 =
          { c with ofForm := c.ofForm.set key ((c.ofForm.get? key).getD ∅) } := by
        simp [override, htemplates]
      rw [hknown]
      cases scope with
      | none => rfl
      | some form =>
        change ((((c.ofForm.set key _).get? form).getD ∅).get? _) = _
        rw [Table.get?_set]
        by_cases hkey : key == form
        · rw [if_pos hkey, Option.getD_some, Table.get?_congr c.ofForm hkey]
          rfl
        · rw [if_neg hkey]
          rfl
  · replace hv : ∀ es, v ≠ .map es := fun es h => hv ⟨es, h⟩
    rw [c.override_flat key hv] at h ⊢
    cases htext : v.toText with
    | ok text => simp [htext] at h
    | error cause => rfl

/-! ## Overrides in a row -/

theorem addGiven_map (c : Composer) (es : List (Value × Value)) :
    c.addGiven (.map es) = c.overrideAll es := by
  cases es <;> rfl

/-- Overrides can be applied unless a template has no text. -/
theorem overrideAll_longIf (c : Composer) (es : List (Value × Value)) :
    LongIf (∃ o ∈ Override.ofEntries es, o.template.Long) (c.overrideAll es).2 := by
  induction es generalizing c with
  | nil => exact .ok () (by simp [Override.ofEntries])
  | cons e es ih =>
    obtain ⟨key, v⟩ := e
    have happly : (c.overrideAll ((key, v) :: es)).2 = (do
        (c.override key v).2
        ((c.override key v).1.overrideAll es).2) := by
      rw [overrideAll]
      rcases c.override key v with ⟨c', _ | _⟩ <;> rfl
    rw [happly]
    refine ((c.override_longIf key v).bind fun _ => ih _).congr ?_
    simp [Override.ofEntries, or_and_right, exists_or]

/-- A list of overrides goes before what the composer had, up to the first that cannot be
applied. -/
theorem inScope_overrideAll_given (c : Composer) (es : List (Value × Value)) (scope : Option Value)
    (method : String) : (c.overrideAll es).1.inScope scope method =
      (Override.last? (Override.given (.map es)) scope method).or (c.inScope scope method) := by
  induction es generalizing c with
  | nil => rfl
  | cons e es ih =>
    obtain ⟨key, v⟩ := e
    have happlied := c.override_eq_ok_iff key v
    have hentry := c.inScope_override key v
    have hsame (fault : Fault) := @inScope_override_of_error c key v fault
    rw [overrideAll, Override.given]
    rcases hoverride : c.override key v with ⟨c', fault | _⟩ <;>
      rw [hoverride] at happlied hentry hsame
    · have hstop : ¬Override.readable (key, v) = true := fun h => nomatch happlied.mpr h
      rw [List.takeWhile_cons_of_neg hstop]
      exact hsame fault rfl scope method
    · have hcons : Override.ofEntries ((key, v) :: es.takeWhile Override.readable) =
          Override.ofEntry (key, v) ++ Override.given (.map es) := List.flatMap_cons
      rw [List.takeWhile_cons_of_pos (happlied.mp rfl), hcons, Override.last?_append, ih,
        hentry rfl, Option.or_assoc]

/-- **Overrides go before what the composer had, each in its scope, and the last of them holds.** -/
theorem inScope_overrideAll {c : Composer} {es : List (Value × Value)}
    (h : (c.overrideAll es).2 = .ok ()) (scope : Option Value) (method : String) :
    (c.overrideAll es).1.inScope scope method =
      (Override.last? (Override.ofEntries es) scope method).or (c.inScope scope method) := by
  have hgiven : Override.given (.map es) = Override.ofEntries es := by
    refine Override.given_of_not_long fun o ho hlong => ?_
    have hfault := (c.overrideAll_longIf es .tooManyDigits).mpr ⟨rfl, o, ho, hlong⟩
    cases h.symm.trans hfault
  rw [inScope_overrideAll_given, hgiven]

end Composer

end FormRules
