import FormRules.Proofs.Rule.Siblings

/-!
# Parameters and their own texts

A token of a rule is trimmed, and taken for a truth value where it spells one. When the predicates
come to compare texts, they write a truth value in a way that the configuration has no part in. So
the token still stands for its own text if it spells no truth value, or spells it in that way
(`Config.Keeps`); where the case of letters is not looked at, it may be in other letters
(`Config.KeepsUpToCase`). With the literals that are the default this is so of every token.

Then the options of a rule are just its tokens, and a condition on another field is met by the token
itself (`Run.matches_own_text`). A token that spells a truth value in another way does not match
itself (`Switch.on_is_no_option`).
-/

namespace FormRules

open Text
open Predicate (options plainTexts isOption meets)

/-! ## Tokens that keep their texts -/

namespace Config

/-- The text that predicates have for a truth value is that of the token. -/
def Keeps (c : Config) (token : String) : Prop :=
  ∀ b, c.toBoolean? (strip token) = some b → strip token = if b then "true" else "false"

/-- The text that predicates have for a truth value is that of the token in small letters. -/
def KeepsUpToCase (c : Config) (token : String) : Prop :=
  ∀ b, c.toBoolean? (strip token) = some b → lower (strip token) = if b then "true" else "false"

variable {c : Config} {token : String}

/-- A token spells one of the literals, up to what the configuration does not look at. -/
theorem fold_of_toBoolean? {s : String} {b : Bool} (h : c.toBoolean? s = some b) :
    c.fold s = c.fold (if b then c.trueLiteral else c.falseLiteral) := by
  unfold toBoolean? at h
  split at h
  · next htrue =>
    obtain rfl := Option.some.inj h
    exact htrue
  · split at h
    · next hfalse =>
      obtain rfl := Option.some.inj h
      exact hfalse
    · cases h

section

variable (htrue : c.trueLiteral = "true") (hfalse : c.falseLiteral = "false") (token : String)

include htrue hfalse

/-- The usual literals are kept up to case. -/
theorem keepsUpToCase_of_literals : c.KeepsUpToCase token := by
  intro b hb
  have hfold := fold_of_toBoolean? hb
  rw [htrue, hfalse] at hfold
  have hlower : lower (if b then "true" else "false") = if b then "true" else "false" := by
    cases b <;> decide +kernel
  unfold fold at hfold
  split at hfold
  · rw [hfold, hlower]
  · rw [hfold, hlower]

/-- They are kept altogether if case matters. -/
theorem keeps_of_literals (hcase : c.caseSensitive = true) : c.Keeps token := by
  intro b hb
  have hfold := fold_of_toBoolean? hb
  rwa [htrue, hfalse, fold, fold, if_pos hcase, if_pos hcase] at hfold

end

/-- A coerced token that is kept has its own text, trimmed. -/
theorem plainText_coerceText (h : c.Keeps token) :
    (c.coerceText token).plainText = .ok (strip token) := by
  unfold coerceText
  rcases htruth : c.toBoolean? (strip token) with _ | b
  · rfl
  · exact congrArg Except.ok (h b htruth).symm

/-- A token is met by its own text. -/
theorem meets_coerceText (h : c.KeepsUpToCase token) :
    meets (.text (strip token)) (c.coerceText token) = .ok true := by
  unfold coerceText
  rcases htruth : c.toBoolean? (strip token) with _ | b
  · simp [meets, bind, Except.bind, pure, Except.pure]
  · simp [meets, bind, Except.bind, pure, Except.pure, strip_strip, h b htruth]

/-- Tokens that are kept are options by their own texts. -/
theorem options_coerceText {tokens : List String} (h : ∀ t ∈ tokens, c.Keeps t) :
    options (tokens.map c.coerceText) = .ok (tokens.map strip) := by
  have htokens : ∀ x ∈ tokens.map c.coerceText, x.IsToken :=
    List.forall_mem_map.mpr fun t _ => c.isToken_coerceText t
  rw [Predicate.options_of_tokens htokens]
  clear htokens
  induction tokens with
  | nil => rfl
  | cons t ts ih =>
    rw [List.forall_mem_cons] at h
    rw [List.map_cons, plainTexts, plainText_coerceText h.1, ih h.2]
    rfl

/-- A list of tokens, which may be a single one, gives the options that its tokens give. -/
theorem prepare_options {p l : Char} (hp : c.parameterDelimiter = .singleton p)
    (hl : c.listDelimiter = .singleton l) (hpl : p ≠ l) {name : String}
    (hname : p ∉ name.toList ∧ strip name = name) {tokens : List String} (hne : tokens ≠ [])
    (htokens : ∀ t ∈ tokens, p ∉ t.toList ∧ l ∉ t.toList) :
    ∃ ps, c.prepare (c.listed name tokens) = .ok ⟨name, ps⟩ ∧
      options ps = options (tokens.map c.coerceText) := by
  have hown := prepare_name hp hname.1 hname.2
  rcases tokens with _ | ⟨t, _ | ⟨t', ts⟩⟩
  · exact absurd rfl hne
  · have hsingle : c.listed name [t] = c.separate name [t] := by
      simp [listed, separate, Rule.render, Parameter.render, joinTexts_singleton]
    rw [hsingle]
    exact ⟨_, prepare_separate hp hl hpl hown htokens, rfl⟩
  · refine ⟨_, prepare_listed hp hl hpl hown (by simp) htokens, ?_⟩
    rw [List.nil_append, Predicate.options_list]
    exact List.forall_mem_map.mpr fun t _ => c.isToken_coerceText t

end Config

/-! ## Rules -/

namespace Predicate

variable {value : Value} {parameters : List Value} (hvalue : value.isEmpty = false) {found : Bool}
  (hfound : isOption value parameters = .ok found)

include hvalue hfound

theorem contains_eq : contains value parameters = pure found := by
  rw [contains, hvalue, hfound]
  rfl

theorem notIn_eq : notIn value parameters = pure !found := by
  rw [notIn, hvalue, hfound]
  rfl

end Predicate

/-- A predicate that decides at once leaves the world alone. -/
theorem Run.judge_plain {e : Engine} {w : World} {catalog : Catalog}
    (hcatalog : w.catalogs.get? e.catalog = some catalog) {name description : String}
    {f : Value → List Value → Check Bool}
    (hresolve : catalog.resolve name = some (Catalog.plain name f description)) {text : String}
    {parameters : List Value} (hprepared : e.config.prepare text = .ok ⟨name, parameters⟩)
    {value : Value} {b : Bool} (hf : f value parameters = pure b)
    (respond : (q : Request) → Run q.Reply)
    (here : Context) : judge respond e here value text w = (.ok b, w) := by
  rw [judge_eq hprepared respond here value hcatalog, hresolve]
  change ((Catalog.plain name f description).call value parameters (some here)).run respond w = _
  rw [Catalog.call_plain, hf]
  rfl

/-- **A parameter matches its own text**, as long as it keeps it. Where the delimiter of parameters
does not cut the name of the predicate, `contains` passes a text just if it is one of the tokens,
trimmed, and `notIn` just if it is none of them; and `requiredIf` fails an empty value beside a
field that holds the text of the token. Nothing is reported. -/
theorem Run.matches_own_text {e : Engine} {p l : Char}
    (hp : e.config.parameterDelimiter = .singleton p)
    (hl : e.config.listDelimiter = .singleton l) (hpl : p ≠ l) {w : World} {catalog : Catalog}
    (hcatalog : w.catalogs.get? e.catalog = some catalog)
    (hbuiltin : ∀ name ∈ ["contains", "notIn", "requiredIf"],
      catalog.resolve name = Catalog.builtins.resolve name)
    {tokens : List String} (hne : tokens ≠ []) (htokens : ∀ t ∈ tokens, p ∉ t.toList ∧ l ∉ t.toList)
    (here : Context) (passes : String → Value → Run Bool) :
    let judged (value : Value) (text : String) :=
      judge (respond (readField e.accessor here.form) passes) e here value text w
    ((∀ t ∈ tokens, e.config.Keeps t) → ∀ v : String, isBlankText v.toList = false →
      (p ∉ "contains".toList → judged (.text v) (e.config.listed "contains" tokens) =
        (.ok (decide (v ∈ tokens.map strip)), w)) ∧
      (p ∉ "notIn".toList → judged (.text v) (e.config.listed "notIn" tokens) =
        (.ok !decide (v ∈ tokens.map strip), w))) ∧
    ∀ t ∈ tokens, e.config.KeepsUpToCase t → p ∉ "requiredIf".toList →
      ∀ g : String, e.config.Names g → p ∉ g.toList ∧ l ∉ g.toList →
        (readField e.accessor here.form (.text g) w).1 = .ok (.text (strip t)) →
          ∀ value : Value, value.isEmpty = true →
            judged value (e.config.separate "requiredIf" [g, t]) = (.ok false, w) := by
  intro judged
  refine ⟨fun hkeeps v hv => ?_, fun t ht hkeeps hname g hg hclean hsibling value hvalue => ?_⟩
  · have hvalue : (Value.text v).isEmpty = false := hv
    have hread {name : String} (hname : p ∉ name.toList ∧ strip name = name) :
        ∃ ps, e.config.prepare (e.config.listed name tokens) = .ok ⟨name, ps⟩ ∧
          isOption (.text v) ps = .ok (decide (v ∈ tokens.map strip)) := by
      obtain ⟨ps, hprepared, hoptions⟩ := Config.prepare_options hp hl hpl hname hne htokens
      refine ⟨ps, hprepared, ?_⟩
      rw [isOption, hoptions, Config.options_coerceText hkeeps]
      simp [bind, Except.bind, pure, Except.pure]
    refine ⟨fun hname => ?_, fun hname => ?_⟩
    · obtain ⟨ps, hprepared, hfound⟩ := hread ⟨hname, by decide +kernel⟩
      exact judge_plain hcatalog (hbuiltin "contains" (by decide)) hprepared
        (Predicate.contains_eq hvalue hfound) _ here
    · obtain ⟨ps, hprepared, hfound⟩ := hread ⟨hname, by decide +kernel⟩
      exact judge_plain hcatalog (hbuiltin "notIn" (by decide)) hprepared
        (Predicate.notIn_eq hvalue hfound) _ here
  · have hprepared := Config.prepare_asking hp hl hpl hname (by decide +kernel) hg
      (List.forall_mem_cons.mpr ⟨hclean, List.forall_mem_singleton.mpr (htokens t ht)⟩)
    have hexpected : e.config.coerceText t ≠ .null := (e.config.isToken_coerceText t).ne_null
    refine (judge_requiredWhen hcatalog hg here value passes
      (hbuiltin "requiredIf" (by decide)) hexpected
      hprepared).trans ?_
    simp [hsibling, Config.meets_coerceText hkeeps, hvalue, bind, Except.bind, Except.map]

namespace Switch

/-- A 5 with a blank before it, and a truth value, in a world where every field is `5`. -/
theorem five_or_true_match : (∀ t ∈ [" 5", "true"], ':' ∉ t.toList ∧ ',' ∉ t.toList) ∧
    OtherField.judged (.text "true") "contains: 5,true" = (.ok true, FiveDigits.world) ∧
    OtherField.judged (.text "true") "notIn: 5,true" = (.ok false, FiveDigits.world) ∧
    OtherField.judged (.text "") "requiredIf:other: 5" = (.ok false, FiveDigits.world) := by
  have htokens : ∀ t ∈ [" 5", "true"], ':' ∉ t.toList ∧ ',' ∉ t.toList := by decide
  have hcatalog : FiveDigits.world.catalogs.get? FiveDigits.engine.catalog =
      some Catalog.builtins := rfl
  obtain ⟨hoptions, hrequired⟩ := Run.matches_own_text rfl rfl (by decide : ':' ≠ ',') hcatalog
    (fun _ _ => rfl) (List.cons_ne_nil _ _) htokens OtherField.here fun _ _ => pure true
  obtain ⟨hcontains, hnotIn⟩ := hoptions (fun t _ => Config.keeps_of_literals rfl rfl t rfl) "true"
    (by decide +kernel)
  have hother : ({} : Config).Names "other" :=
    Config.names_default (by decide +kernel) (by decide +kernel) (by decide) (by decide)
  have hfive : strip " 5" = "5" := by decide +kernel
  have hfails := hrequired " 5" (by decide) (Config.keepsUpToCase_of_literals rfl rfl " 5")
    (by decide)
    "other" hother (by decide) (by rw [hfive]; rfl) (.text "") rfl
  have htrue : "true" ∈ [" 5", "true"].map strip := by decide +kernel
  simp only [htrue] at hcontains hnotIn
  exact ⟨htokens, hcontains (by decide), hnotIn (by decide), hfails⟩

/-- A world where every field is `on`. -/
def world : World :=
  { FiveDigits.world with
    accessors := (∅ : Shelf Accessor).add "values" (.computed fun _ _ => .ok (.text "on")) }

/-- An engine that takes `on` and `off` for truth values. -/
def engine : Engine :=
  { FiveDigits.engine with config := { trueLiteral := "on", falseLiteral := "off" } }

/-- What an engine makes of a value by a rule. -/
def judged (e : Engine) (value : Value) (text : String) : Attempt Bool × World :=
  Run.judge (Run.respond (Run.readField e.accessor OtherField.here.form) fun _ _ => pure true) e
    OtherField.here value text world

/-- **An option that spells a truth value in another way does not match itself**, and a condition
with it is not met. And where the delimiter of parameters occurs in the name of the predicate, there
is no predicate. -/
theorem on_is_no_option :
    (¬∀ (e : Engine) (r p l : Char), e.config.ruleDelimiter = .singleton r →
      e.config.parameterDelimiter = .singleton p → e.config.listDelimiter = .singleton l →
      [r, p, l].Nodup → isBlank r = false ∧ isBlank p = false ∧ isBlank l = false →
      world.catalogs.get? e.catalog = some Catalog.builtins →
      ∀ tokens : List String, tokens ≠ [] →
        (∀ t ∈ tokens, (r ∉ t.toList ∧ p ∉ t.toList ∧ l ∉ t.toList) ∧
          isBlankText t.toList = false) →
        ∀ v : String, isBlankText v.toList = false →
          ((judged e (.text v) (e.config.listed "contains" tokens)).1 = .ok true ↔
            v ∈ tokens.map strip)) ∧
    (judged engine (.text "") (engine.config.separate "requiredIf" ["other", "on"])).1 = .ok true ∧
    (judged { engine with config := { parameterDelimiter := "n" } } (.text "a") "containsna").1 =
      .error (.unknownValidation "co") := by
  refine ⟨fun h => ?_, by decide +kernel, by decide +kernel⟩
  have hmatches := h engine '|' ':' ',' rfl rfl rfl (by decide) (by decide +kernel) rfl ["on"]
    (List.cons_ne_nil _ _) (by decide +kernel) "on" (by decide +kernel)
  have hfails : (judged engine (.text "on") (engine.config.listed "contains" ["on"])).1 =
      .ok false := by
    decide +kernel
  have hon : "on" ∈ ["on"].map strip := by decide +kernel
  rw [hfails] at hmatches
  exact absurd (hmatches.mpr hon) (by decide)

end Switch

end FormRules
