import FormRules.Proofs.Engine.Draft
import FormRules.Proofs.RuleSet.Normal
import FormRules.Proofs.Text.Split
import FormRules.Session.Perform

/-!
# Rules that are joined and rules that are listed

A field may declare its rules by one text, in which they are joined by the delimiter of rules, or by
a list of them. If the delimiter is one character that is in none of the rules, both come to the
same (`Config.splitRules_joined`), for blank rules and none at all too: what is left of them after
the cut is not kept anyway.

Declarations that are the same but for this come to the same rules or to the same fault, so the
engines that are made from them are the same, and so is all that comes of them
(`Config.joined_or_listed`).
-/

namespace FormRules

open Text

variable {c : Config} {d : Char} {a b : Value}

namespace Value

/-- The rules of a field are given twice, or joined the first time and listed the second. -/
inductive SameRules (d : Char) : Value → Value → Prop
  | refl (rules : Value) : SameRules d rules rules
  | joined {texts : List String} (h : ∀ t ∈ texts, d ∉ t.toList) :
      SameRules d (.text (joinTexts (.singleton d) texts)) (.list (texts.map .text))

/-- The values are the same, or mappings with the same keys to values that are related. -/
inductive Entrywise (R : Value → Value → Prop) : Value → Value → Prop
  | refl (v : Value) : Entrywise R v v
  | map {es es' : List (Value × Value)}
      (h : List.Forall₂ (fun e e' => e.1 = e'.1 ∧ R e.2 e'.2) es es') :
      Entrywise R (.map es) (.map es')

/-- Declarations of forms that are the same, but that rules which are joined in the first may be
listed in the second. -/
def SameDeclarations (d : Char) : Value → Value → Prop := Entrywise (Entrywise (SameRules d))

end Value

/-! ## One field -/

/-- What is cut where it was joined is as good as before, if none of the texts holds the separator.
No texts are joined to an empty text, which is cut to a blank one. -/
theorem kept_splitText_joinTexts {texts : List String} (h : ∀ t ∈ texts, d ∉ t.toList) :
    kept (splitText (.singleton d) (joinTexts (.singleton d) texts)) = kept texts := by
  cases texts with
  | nil => rfl
  | cons t ts => rw [splitText_joinTexts (List.cons_ne_nil t ts) h]

namespace Config

/-- **Joined rules come to the same as listed ones.** -/
theorem splitRules_joined (hd : c.ruleDelimiter = .singleton d) {texts : List String}
    (h : ∀ t ∈ texts, d ∉ t.toList) (place : String) :
    c.splitRules (.text (joinTexts (.singleton d) texts)) place = .ok (kept texts) ∧
      c.splitRules (.list (texts.map .text)) place = .ok (kept texts) := by
  have hcut : c.ruleDelimiter.isEmpty = false := by simp [hd]
  constructor
  · rw [(splitRules_settles (fun _ _ => hcut) place).eq_ok fun _ hfault => hfault.2 (.text _),
      declared, hd, kept_splitText_joinTexts h]
  · rw [(splitRules_settles (fun _ _ => hcut) place).eq_ok fun _ hfault => hfault.2 (.texts texts),
      declared_list]

theorem splitRules_same (hd : c.ruleDelimiter = .singleton d) (h : a.SameRules d b)
    (place : String) :
    c.splitRules a place = c.splitRules b place := by
  cases h with
  | refl => rfl
  | joined h =>
    obtain ⟨hjoined, hlisted⟩ := splitRules_joined hd h place
    rw [hjoined, hlisted]

/-! ## All declarations -/

theorem normalizeFields_same (hd : c.ruleDelimiter = .singleton d) (form : Value)
    {es es' : List (Value × Value)}
    (h : List.Forall₂ (fun e e' => e.1 = e'.1 ∧ e.2.SameRules d e'.2) es es') :
    c.normalizeFields form es = c.normalizeFields form es' := by
  induction h with
  | nil => rfl
  | @cons e e' es es' he _ ih =>
    obtain ⟨field, rules⟩ := e
    obtain ⟨rfl, hrules⟩ := he
    simp only [normalizeFields, splitRules_same hd hrules, ih]

theorem normalizeForm_same (hd : c.ruleDelimiter = .singleton d) (form : Value)
    (h : Value.Entrywise (Value.SameRules d) a b) :
    c.normalizeForm form a = c.normalizeForm form b := by
  cases h with
  | refl => rfl
  | map h => simp only [normalizeForm, normalizeFields_same hd form h]

theorem normalizeForms_same (hd : c.ruleDelimiter = .singleton d) {es es' : List (Value × Value)}
    (h : List.Forall₂ (fun e e' => e.1 = e'.1 ∧
      Value.Entrywise (Value.SameRules d) e.2 e'.2) es es') :
    c.normalizeForms es = c.normalizeForms es' := by
  induction h with
  | nil => rfl
  | @cons e e' es es' he _ ih =>
    obtain ⟨form, fields⟩ := e
    obtain ⟨rfl, hfields⟩ := he
    simp only [normalizeForms, normalizeForm_same hd _ hfields, ih]

/-- Declarations that are the same but for the notation of rules come to the same. -/
theorem normalize_same (hd : c.ruleDelimiter = .singleton d) (h : a.SameDeclarations d b) :
    c.normalize a = c.normalize b := by
  cases h with
  | refl => rfl
  | @map es es' h =>
    have htruth : (Value.map es).truth = (Value.map es').truth := by
      cases h with
      | nil => rfl
      | cons => rfl
    simp only [normalize, htruth, normalizeForms_same hd h]

end Config

/-! ## Engines -/

/-- The parts that a set-up names keep its configuration. -/
theorem Setup.config_of_parts {s : Setup} {p : Parts} {v w : World} (h : s.parts w = (.ok p, v)) :
    p.config = s.config := by
  rw [parts_apply] at h
  obtain ⟨h, -⟩ := Prod.mk.inj h
  obtain ⟨values, -, h⟩ := Run.eq_ok_of_bind h
  obtain ⟨catalog, -, h⟩ := Run.eq_ok_of_bind h
  obtain ⟨composer, -, h⟩ := Run.eq_ok_of_bind h
  cases h
  rfl

/-- An engine is made from what its declarations come to. -/
theorem Run.newEngine_congr {s : Setup} (h : s.config.normalize a = s.config.normalize b)
    (name : String)
    (messages : Value) : newEngine name s a messages = newEngine name s b messages := by
  funext w
  simp only [newEngine, bind_apply]
  rcases hparts : s.parts w with ⟨fault | p, v⟩
  · rfl
  · simp only [Parts.draft, Setup.config_of_parts hparts, h]

/-- A step that can be done in place of another one can be done so in every session. -/
theorem Session.run_congr {s s' : Step} (h : step s = step s') (before after : List Step) :
    run (before ++ s :: after) = run (before ++ s' :: after) := by
  funext w
  induction before generalizing w with
  | nil => simp only [List.nil_append, run, h]
  | cons t before ih => simp only [List.cons_append, run, ih]

/-- **It makes no difference whether rules are joined or listed.** Either way those are kept that
are not blank, trimmed. Declarations that differ in nothing else come to the same rules or to the
same fault; an engine that is made of them for one run gives the same report and writes the same
journal; and a session in which an engine is made of the ones can make it of the others. -/
theorem Config.joined_or_listed (hd : c.ruleDelimiter = .singleton d) :
    (∀ texts : List String, (∀ t ∈ texts, d ∉ t.toList) → ∀ place,
      c.splitRules (.text (joinTexts (.singleton d) texts)) place = .ok (kept texts) ∧
        c.splitRules (.list (texts.map .text)) place = .ok (kept texts)) ∧
    ∀ a b : Value, a.SameDeclarations d b →
      c.normalize a = c.normalize b ∧
      (∀ messages values form, checkForm c a messages values form =
        checkForm c b messages values form) ∧
      ∀ (before after : List Step) (name : String) (s : Setup) (messages : Value) (w : World),
        s.config = c →
          Session.run (before ++ .newEngine name s a messages :: after) w =
            Session.run (before ++ .newEngine name s b messages :: after) w := by
  refine ⟨fun texts htexts place => splitRules_joined hd htexts place, fun a b h => ?_⟩
  have hnormalize := normalize_same hd h
  refine ⟨hnormalize, fun messages values form => ?_, ?_⟩
  · have hmade : Run.newEngine "" { config := c, values := .given values } a messages =
        Run.newEngine "" { config := c, values := .given values } b messages :=
      Run.newEngine_congr hnormalize "" messages
    simp only [checkForm, hmade]
  · rintro before after name s messages w rfl
    have hstep : Session.step (.newEngine name s a messages) =
        Session.step (.newEngine name s b messages) := by
      funext w
      simp only [Session.step, Step.perform, Run.newEngine_congr hnormalize, Step.sighting?]
    rw [Session.run_congr hstep]

/-- Blank rules, one with white space around it, and none at all. -/
theorem joined_or_listed_signup :
    ({} : Config).ruleDelimiter = .singleton '|' ∧
    ({} : Config).splitRules (.text "| required |  |min:2") "" = .ok ["required", "min:2"] ∧
    ({} : Config).normalize (.map [(.text "signup", .map [
        (.text "name", .text "| required |  |min:2"), (.text "note", .text "")])]) =
      ({} : Config).normalize (.map [(.text "signup", .map [
        (.text "name", .list [.text "", .text " required ", .text "  ", .text "min:2"]),
        (.text "note", .list [])])]) := by
  have htexts : ∀ t ∈ ["", " required ", "  ", "min:2"], '|' ∉ t.toList := by decide
  have hname : Value.SameRules '|' (.text "| required |  |min:2")
      (.list (["", " required ", "  ", "min:2"].map .text)) :=
    .joined htexts
  have hnote : Value.SameRules '|' (.text "") (.list []) :=
    @Value.SameRules.joined '|' [] (List.forall_mem_nil _)
  obtain ⟨hrules, hsame⟩ := Config.joined_or_listed (c := {}) (d := '|') rfl
  refine ⟨rfl, (hrules _ htexts "").1, (hsame _ _ ?_).1⟩
  exact .map (.cons ⟨rfl, .map (.cons ⟨rfl, hname⟩ (.cons ⟨rfl, hnote⟩ .nil))⟩ .nil)

end FormRules
