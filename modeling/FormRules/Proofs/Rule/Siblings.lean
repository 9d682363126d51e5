import FormRules.Proofs.Rule.Listed

/-!
# Rules that look at another field

A parameter that names a field is trimmed and taken for a truth value where it spells one, before it
is taken for a name. What comes through unchanged is a name (`Config.Names`), and the rules that
look at another field then decide by the value that the field has in the form at that moment, and
report nothing (`Run.siblings_reached`).

A field whose name spells a truth value is out of reach (`TrueField.not_reached`).
-/

namespace FormRules

open Text
open Predicate (compareSibling requiredWhen fieldName? meets)

/-! ## Names of fields -/

/-- As a parameter of a rule, the text is taken for the name of a field as it stands. -/
structure Config.Names (c : Config) (name : String) : Prop where
  not_empty : name.isEmpty = false
  trimmed : strip name = name
  no_truth : c.toBoolean? name = none

namespace Config.Names

variable {c : Config} {name : String} (h : c.Names name)

include h

/-- A name is not coerced to anything else. -/
theorem coerceText_eq : c.coerceText name = .text name := by
  rw [coerceText, h.trimmed, h.no_truth]

/-- A name is taken for the name of a field. -/
theorem fieldName?_eq : fieldName? (.text name) = .ok (some name) := by
  simp [fieldName?, h.trimmed, h.not_empty, bind, Except.bind, pure, Except.pure]

end Config.Names

namespace Config

variable {c : Config} {p l : Char} (hp : c.parameterDelimiter = .singleton p)

include hp

/-- A name without the delimiter of parameters is a whole rule. -/
theorem prepare_name {name : String} (hname : p ∉ name.toList) (htrimmed : strip name = name) :
    c.prepare name = .ok ⟨name, []⟩ := by
  have hparse : c.parse name = .ok ⟨name, []⟩ :=
    parse_eq_ok_iff.mpr (.inl ⟨by rw [hp, cut?_singleton, if_neg hname], rfl⟩)
  rw [prepare, hparse]
  exact congrArg (fun method => Except.ok (PreparedRule.mk method [])) htrimmed

/-- A rule whose first parameter names a field. -/
theorem prepare_asking (hl : c.listDelimiter = .singleton l) (hpl : p ≠ l) {name : String}
    (hname : p ∉ name.toList) (htrimmed : strip name = name) {other : String}
    (hother : c.Names other)
    {tokens : List String} (htokens : ∀ t ∈ other :: tokens, p ∉ t.toList ∧ l ∉ t.toList) :
    c.prepare (c.separate name (other :: tokens)) =
      .ok ⟨name, .text other :: tokens.map c.coerceText⟩ := by
  rw [prepare_separate hp hl hpl (prepare_name hp hname htrimmed) htokens, List.nil_append,
    List.map_cons, hother.coerceText_eq]

end Config

/-! ## What the predicates make of the sibling -/

/-- A sibling is asked for by a single request. -/
theorem Check.run_siblingValue (sibling : Value → Run Value) (passes : String → Value → Run Bool)
    (here : Context) (field : Value) :
    (Predicate.siblingValue (some here) field).run (Run.respond sibling passes) =
      sibling field := by
  funext w
  change ((Check.result (sibling field w).1).run
    (Run.respond sibling passes)) (sibling field w).2 = _
  rfl

namespace Predicate

variable {sibling : Value → Run Value} {passes : String → Value → Run Bool} {value other : Value}
  {name : String} (hname : fieldName? other = .ok (some name)) (validation : String)
  (here : Context)

include hname

/-- A comparison reads the sibling and compares. -/
theorem run_compareSibling (equal : Bool) :
    (compareSibling validation equal value [other] (some here)).run (Run.respond sibling passes) =
      (do return value.same (← sibling (.text name)) == equal) := by
  have hsame : compareSibling validation equal value [other] (some here) =
      (do return value.same (← siblingValue (some here) (.text name)) == equal) := by
    simp only [compareSibling, List.headD_cons, hname]
    rfl
  rw [hsame, Check.run_bind, Check.run_siblingValue]
  rfl

/-- A requirement reads the sibling and looks whether it meets the expectation. -/
theorem run_requiredWhen (unlessMet : Bool) {expected : Value} (hexpected : expected ≠ .null) :
    (requiredWhen validation unlessMet value [other, expected] (some here)).run
        (Run.respond sibling passes) =
      (do
        let met ← meets (← sibling (.text name)) expected
        return met == unlessMet || !value.isEmpty) := by
  have hrequired : requiredWhen validation unlessMet value [other, expected] (some here) =
      (do
        let met ← meets (← siblingValue (some here) (.text name)) expected
        return met == unlessMet || !value.isEmpty) := by
    have hlift {α : Type} (a : α) : (liftM (Except.ok a : Attempt α) : Check α) = pure a := rfl
    simp only [requiredWhen, upToTwo, hlift, Check.pure_bind, hname]
  rw [hrequired, Check.run_bind, Check.run_siblingValue]
  refine congrArg (sibling (.text name) >>= ·) (funext fun v => ?_)
  rw [Check.run_bind]
  rfl

end Predicate

/-! ## Rules -/

namespace Run

variable {e : Engine} {w : World} {catalog : Catalog}
  (hcatalog : w.catalogs.get? e.catalog = some catalog) {text name other : String}
  (hother : e.config.Names other) (here : Context) (value : Value)
  (passes : String → Value → Run Bool)

include hcatalog hother

/-- A rule that compares with another field decides by what is read for that field. -/
theorem judge_compareSibling {equal : Bool} {description : String}
    (hresolve : catalog.resolve name =
      some (Catalog.crossField name (compareSibling name equal) description))
    (hprepared : e.config.prepare text = .ok ⟨name, [.text other]⟩) :
    judge (respond (readField e.accessor here.form) passes) e here value text w =
      ((readField e.accessor here.form (.text other) w).1.map fun sibling =>
        value.same sibling == equal, w) := by
  rw [judge_eq hprepared _ here value hcatalog, hresolve]
  change ((Catalog.crossField name (compareSibling name equal) description).call value [.text other]
    (some here)).run _ w = _
  rw [Catalog.call_crossField, Predicate.run_compareSibling hother.fieldName?_eq, bind_pure_apply,
    readField_apply]

/-- A rule that requires a value under a condition decides by what is read for the field that the
condition is about. -/
theorem judge_requiredWhen {unlessMet : Bool} {description : String}
    (hresolve : catalog.resolve name =
      some (Catalog.crossField name (requiredWhen name unlessMet) description)) {expected : Value}
    (hexpected : expected ≠ .null)
    (hprepared : e.config.prepare text = .ok ⟨name, [.text other, expected]⟩) :
    judge (respond (readField e.accessor here.form) passes) e here value text w =
      ((readField e.accessor here.form (.text other) w).1 >>= fun sibling =>
        (meets sibling expected).map fun met => met == unlessMet || !value.isEmpty, w) := by
  rw [judge_eq hprepared _ here value hcatalog, hresolve]
  change ((Catalog.crossField name (requiredWhen name unlessMet) description).call value
    [.text other, expected] (some here)).run _ w = _
  rw [Catalog.call_crossField, Predicate.run_requiredWhen hother.fieldName?_eq _ _ _ hexpected,
    bind_apply, readField_apply]
  rcases (known e.accessor.name (w.accessors.get? e.accessor)).bind fun a =>
    a.get here.form (.text other) with fault | sibling
  · rfl
  · exact bind_pure_apply _ _ w

end Run

/-! ## The default configuration -/

namespace Config

/-- In the default configuration the names are those that are trimmed and spell no truth value. -/
theorem names_default {name : String} (hblank : isBlankText name.toList = false)
    (htrimmed : strip name = name) (htrue : name ≠ "true") (hfalse : name ≠ "false") :
    ({} : Config).Names name where
  not_empty := by rw [← htrimmed, isEmpty_strip, hblank]
  trimmed := htrimmed
  no_truth := by simp [toBoolean?, fold, htrue, hfalse]

theorem separate_default (name s : String) (tokens : List String) :
    ({} : Config).separate name (s :: tokens) = name ++ ":" ++ joinTexts ":" (s :: tokens) := by
  simp [separate, Rule.render, joinTexts_cons, Parameter.render, Function.comp_def]

end Config

/-- **Rules that look at another field reach it.** In the default configuration, a field can be
named whose name is not blank, has no white space around it, holds no delimiter and is not `true` or
`false`. The rules decide by the value that the field has now in the form that is run, and report
nothing. `same` and `different` compare the values as they are; the others need a value that has a
text. -/
theorem Run.siblings_reached {e : Engine} (he : e.config = {}) {w : World} {catalog : Catalog}
    (hcatalog : w.catalogs.get? e.catalog = some catalog)
    (hbuiltin : ∀ name ∈ ["same", "different", "requiredIf", "requiredIfNot"],
      catalog.resolve name = Catalog.builtins.resolve name)
    {n : String} (hblank : isBlankText n.toList = false) (htrimmed : strip n = n)
    (htrue : n ≠ "true") (hfalse : n ≠ "false") {x : String}
    (hclean : ∀ t ∈ [n, x], ':' ∉ t.toList ∧ ',' ∉ t.toList) (here : Context) (value : Value)
    (passes : String → Value → Run Bool) {sibling : Value}
    (hsibling : (readField e.accessor here.form (.text n) w).1 = .ok sibling) :
    let judged (text : String) :=
      judge (respond (readField e.accessor here.form) passes) e here value text w
    judged ("same:" ++ n) = (.ok (value.same sibling), w) ∧
    judged ("different:" ++ n) = (.ok !value.same sibling, w) ∧
    ∀ s, sibling.plainText = .ok s → ∃ met, meets sibling (e.config.coerceText x) = .ok met ∧
      judged ("requiredIf:" ++ n ++ ":" ++ x) = (.ok (!met || !value.isEmpty), w) ∧
      judged ("requiredIfNot:" ++ n ++ ":" ++ x) = (.ok (met || !value.isEmpty), w) := by
  intro judged
  have hn : e.config.Names n := he ▸ Config.names_default hblank htrimmed htrue hfalse
  have hp : e.config.parameterDelimiter = .singleton ':' := congrArg Config.parameterDelimiter he
  have hl : e.config.listDelimiter = .singleton ',' := congrArg Config.listDelimiter he
  have hcompared {name : String} (hname : ':' ∉ name.toList ∧ strip name = name) {equal : Bool}
      {description : String} (hresolve : catalog.resolve name =
        some (Catalog.crossField name (compareSibling name equal) description)) :
      judged (name ++ ":" ++ n) = (.ok (value.same sibling == equal), w) := by
    have htext : name ++ ":" ++ n = e.config.separate name [n] := by
      rw [he, Config.separate_default, joinTexts_singleton]
    have hprepared := Config.prepare_asking hp hl (by decide) hname.1 hname.2 hn
      (List.forall_mem_singleton.mpr (hclean n List.mem_cons_self))
    rw [← htext] at hprepared
    refine (judge_compareSibling hcatalog hn here value passes hresolve hprepared).trans ?_
    rw [hsibling]
    rfl
  have hrequired {name : String} (hname : ':' ∉ name.toList ∧ strip name = name) {unlessMet : Bool}
      {description : String} (hresolve : catalog.resolve name =
        some (Catalog.crossField name (requiredWhen name unlessMet) description)) :
      judged (name ++ ":" ++ n ++ ":" ++ x) =
        ((meets sibling (e.config.coerceText x)).map fun met => met == unlessMet || !value.isEmpty,
          w) := by
    have htext : name ++ ":" ++ n ++ ":" ++ x = e.config.separate name [n, x] := by
      rw [he, Config.separate_default, joinTexts_cons _ _ (List.cons_ne_nil _ _),
        joinTexts_singleton]
      simp only [String.append_assoc]
    have hexpected : e.config.coerceText x ≠ .null := (e.config.isToken_coerceText x).ne_null
    have hprepared := Config.prepare_asking hp hl (by decide) hname.1 hname.2 hn hclean
    rw [← htext] at hprepared
    refine (judge_requiredWhen hcatalog hn here value passes hresolve hexpected hprepared).trans ?_
    rw [hsibling]
    rfl
  refine ⟨?_, ?_, fun s hs => ?_⟩
  · simpa using hcompared (by decide +kernel) (hbuiltin "same" (by decide))
  · simpa using hcompared (by decide +kernel) (hbuiltin "different" (by decide))
  · obtain ⟨met, hmet⟩ := Predicate.meets_eq_ok hs (e.config.isToken_coerceText x)
    have hif := hrequired (by decide +kernel) (hbuiltin "requiredIf" (by decide))
    have hunless := hrequired (by decide +kernel) (hbuiltin "requiredIfNot" (by decide))
    rw [hmet] at hif hunless
    exact ⟨met, hmet, by simpa [Except.map] using hif, by simpa [Except.map] using hunless⟩

namespace OtherField

/-- The context of the rules. -/
def here : Context := ⟨.text "form", .text "field"⟩

/-- What is made of a value by a rule, where every field is `5`. -/
def judged (value : Value) (text : String) : Attempt Bool × World :=
  Run.judge (Run.respond (Run.readField FiveDigits.engine.accessor here.form) fun _ _ => pure true)
    FiveDigits.engine here value text FiveDigits.world

/-- An empty value beside a 5. -/
theorem other_reached : isBlankText "other".toList = false ∧ strip "other" = "other" ∧
    (∀ t ∈ ["other", "5"], ':' ∉ t.toList ∧ ',' ∉ t.toList) ∧
    judged (.text "") "same:other" = (.ok false, FiveDigits.world) ∧
    judged (.text "") "different:other" = (.ok true, FiveDigits.world) ∧
    judged (.text "") "requiredIf:other:5" = (.ok false, FiveDigits.world) ∧
    judged (.text "") "requiredIfNot:other:5" = (.ok true, FiveDigits.world) := by
  have hblank : isBlankText "other".toList = false := by decide +kernel
  have htrimmed : strip "other" = "other" := by decide +kernel
  have hclean : ∀ t ∈ ["other", "5"], ':' ∉ t.toList ∧ ',' ∉ t.toList := by decide
  have hcatalog : FiveDigits.world.catalogs.get? FiveDigits.engine.catalog =
      some Catalog.builtins := rfl
  obtain ⟨hsame, hdifferent, hconditions⟩ := Run.siblings_reached rfl hcatalog
    (fun _ _ => rfl) hblank htrimmed (by decide) (by decide) hclean here (.text "")
    (fun _ _ => pure true) rfl
  obtain ⟨met, hmet, hrequired, hunless⟩ := hconditions "5" rfl
  obtain rfl : true = met := Except.ok.inj hmet
  exact ⟨hblank, htrimmed, hclean, hsame, hdifferent, hrequired, hunless⟩

end OtherField

/-- **A field with the name of a truth value is not reached.** Its value is the same, and the rule
fails. -/
theorem TrueField.not_reached : ¬∀ n : String, isBlankText n.toList = false → strip n = n →
    '|' ∉ n.toList ∧ ':' ∉ n.toList ∧ ',' ∉ n.toList → ∀ value sibling : Value,
      (Run.readField FiveDigits.engine.accessor OtherField.here.form (.text n) FiveDigits.world).1 =
        .ok sibling →
      OtherField.judged value ("same:" ++ n) = (.ok (value.same sibling), FiveDigits.world) := by
  intro h
  have hreached := h "true" (by decide +kernel) (by decide +kernel) (by decide) (.text "5")
    (.text "5") rfl
  have hfails : (OtherField.judged (.text "5") ("same:" ++ "true")).1 = .ok false := by
    decide +kernel
  rw [hreached] at hfails
  exact absurd hfails (by decide)

end FormRules
