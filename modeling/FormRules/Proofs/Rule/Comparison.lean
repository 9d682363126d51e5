import FormRules.Proofs.Rule.Siblings
import FormRules.Proofs.Value.Equality

/-!
# Comparing two fields

Two fields can be compared from either side: a rule at the one field names the other. As equality of
values is symmetric (`Value.same_comm`), it makes no difference at which of the two fields the rule
stands, and `same` and `different` never come to the same result (`Run.comparison_symmetric`).
-/

namespace FormRules

open Text
open Predicate (compareSibling)

/-- Equality of values does not depend on the order. -/
theorem Value.same_comm (a b : Value) : a.same b = b.same a :=
  Bool.eq_iff_iff.mpr ⟨same_symm a b, same_symm b a⟩

/-- A name that a rule of the default configuration can refer to: it is not blank, has no white
space around it and no delimiter in it, and spells no truth value. -/
structure IsFieldName (name : String) : Prop where
  not_blank : isBlankText name.toList = false
  trimmed : strip name = name
  clean : ':' ∉ name.toList ∧ ',' ∉ name.toList
  not_true : name ≠ "true"
  not_false : name ≠ "false"

namespace Run

section

variable {e : Engine} (he : e.config = {}) {w : World} {catalog : Catalog}
  (hcatalog : w.catalogs.get? e.catalog = some catalog) (passes : String → Value → Run Bool)
include he hcatalog

/-- A comparison with a field that can be named comes to a result, and nothing is reported. -/
theorem judge_comparison {name description : String} {equal : Bool}
    (hname : ':' ∉ name.toList ∧ strip name = name)
    (hresolve : catalog.resolve name =
      some (Catalog.crossField name (compareSibling name equal) description))
    {other : String} (hother : IsFieldName other) (here : Context) {value sibling : Value}
    (hsibling : (readField e.accessor here.form (.text other) w).1 = .ok sibling) :
    judge (respond (readField e.accessor here.form) passes) e here value (name ++ ":" ++ other) w =
      (.ok (value.same sibling == equal), w) := by
  have hnames : e.config.Names other :=
    he ▸ Config.names_default hother.not_blank hother.trimmed hother.not_true hother.not_false
  have hp : e.config.parameterDelimiter = .singleton ':' := congrArg Config.parameterDelimiter he
  have hl : e.config.listDelimiter = .singleton ',' := congrArg Config.listDelimiter he
  have hprepared := Config.prepare_asking hp hl (by decide) hname.1 hname.2 hnames
    (List.forall_mem_singleton.mpr hother.clean)
  have htext : e.config.separate name [other] = name ++ ":" ++ other := by
    rw [he, Config.separate_default, joinTexts_singleton]
  rw [htext] at hprepared
  rw [judge_compareSibling hcatalog hnames here value passes hresolve hprepared, hsibling]
  rfl

end

/-- **A comparison comes to the same from either side.** Of two fields that can be named, the one is
the same as the other just if the other is the same as the one, and they are different just if they
are not the same. This is so for any two values, and none of the rules reports anything. -/
theorem comparison_symmetric {e : Engine} (he : e.config = {}) {w : World} {catalog : Catalog}
    (hcatalog : w.catalogs.get? e.catalog = some catalog)
    (hbuiltin : ∀ name ∈ ["same", "different"],
      catalog.resolve name = Catalog.builtins.resolve name)
    (passes : String → Value → Run Bool) (form : Value) {a b : String} (ha : IsFieldName a)
    (hb : IsFieldName b) {u v : Value} (hu : (readField e.accessor form (.text a) w).1 = .ok u)
    (hv : (readField e.accessor form (.text b) w).1 = .ok v) :
    let judged (field : String) (value : Value) (text : String) :=
      judge (respond (readField e.accessor form) passes) e ⟨form, .text field⟩ value text w
    judged a u ("same:" ++ b) = (.ok (u.same v), w) ∧
    judged b v ("same:" ++ a) = (.ok (u.same v), w) ∧
    judged a u ("different:" ++ b) = (.ok !u.same v, w) ∧
    judged b v ("different:" ++ a) = (.ok !u.same v, w) := by
  intro judged
  have hsame {field other : String} (hother : IsFieldName other) {value sibling : Value}
      (hsibling : (readField e.accessor form (.text other) w).1 = .ok sibling) :
      judged field value ("same:" ++ other) = (.ok (value.same sibling), w) := by
    simpa using judge_comparison he hcatalog passes (by decide) (hbuiltin "same" (by decide)) hother
      ⟨form, .text field⟩ hsibling
  have hdifferent {field other : String} (hother : IsFieldName other) {value sibling : Value}
      (hsibling : (readField e.accessor form (.text other) w).1 = .ok sibling) :
      judged field value ("different:" ++ other) = (.ok !value.same sibling, w) := by
    simpa using judge_comparison he hcatalog passes (by decide)
      (hbuiltin "different" (by decide)) hother
      ⟨form, .text field⟩ hsibling
  rw [hsame hb hv, hsame ha hu, hdifferent hb hv, hdifferent ha hu, Value.same_comm v u]
  exact ⟨rfl, rfl, rfl, rfl⟩

end Run

namespace EitherSide

/-- A mapping. -/
def first : Value := .map [(.int 1, .list [.bool true])]

/-- The same mapping, with a key and an item of other kinds. -/
def second : Value := .map [(.bool true, .list [.float (.exactly 1)])]

/-- A world where two fields of a form have these values. -/
def world : World :=
  { FiveDigits.world with
    accessors := (∅ : Shelf Accessor).add "values"
      (.table ⟨[(.text "form", ⟨[(.text "first", first), (.text "second", second)]⟩)]⟩) }

/-- What is made of a value by a rule at a field. -/
def judged (field : String) (value : Value) (text : String) : Attempt Bool × World :=
  Run.judge (Run.respond (Run.readField FiveDigits.engine.accessor (.text "form")) fun _ _ =>
    pure true)
    FiveDigits.engine ⟨.text "form", .text field⟩ value text world

/-- The two mappings are the same, whichever of them is compared with the other. -/
theorem same_from_either_side : IsFieldName "first" ∧ IsFieldName "second" ∧
    judged "first" first "same:second" = (.ok true, world) ∧
    judged "second" second "same:first" = (.ok true, world) ∧
    judged "first" first "different:second" = (.ok false, world) ∧
    judged "second" second "different:first" = (.ok false, world) := by
  have hfirst : IsFieldName "first" :=
    ⟨by decide, by decide, by decide, by decide, by decide⟩
  have hsecond : IsFieldName "second" :=
    ⟨by decide, by decide, by decide, by decide, by decide⟩
  have hequal : first.same second = true := by decide +kernel
  have hcatalog : world.catalogs.get? FiveDigits.engine.catalog = some Catalog.builtins := rfl
  have hvalue : (Run.readField FiveDigits.engine.accessor (.text "form") (.text "first") world).1 =
      .ok first :=
    rfl
  have hvalue' : (Run.readField FiveDigits.engine.accessor (.text "form")
      (.text "second") world).1 =
      .ok second := rfl
  obtain ⟨hsame, hsame', hdifferent, hdifferent'⟩ :=
    Run.comparison_symmetric rfl hcatalog (fun _ _ => rfl)
    (fun _ _ => pure true) (.text "form") hfirst hsecond hvalue hvalue'
  rw [hequal] at hsame hsame' hdifferent hdifferent'
  exact ⟨hfirst, hsecond, hsame, hsame', hdifferent, hdifferent'⟩

end EitherSide

end FormRules
