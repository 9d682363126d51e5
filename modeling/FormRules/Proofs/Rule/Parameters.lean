import FormRules.Message.Composer
import FormRules.Predicate.Membership
import FormRules.Predicate.Numbers
import FormRules.Rule.Parse

/-!
# The parameters of a rule text

Where the delimiters are not empty, every rule text can be read, and its parameters are of few
kinds: truth values, texts, and lists of at least one of these (`Config.prepare_eq_ok`). Every such
parameter can be read as a number, as the name of a field, as an option, and as part of a message,
so nothing goes wrong on account of what stands in a rule. What is expected of a value can always be
compared with it too, unless the value itself has no text (`Predicate.meets_eq_error_iff`).
-/

namespace FormRules

open Text

/-- A token of a rule text, read. -/
inductive Value.IsToken : Value → Prop
  | bool (b : Bool) : IsToken (.bool b)
  | text (s : String) : IsToken (.text s)

/-- A token is a value. -/
theorem Value.IsToken.ne_null {v : Value} (h : v.IsToken) : v ≠ .null := by
  cases h <;> exact nofun

/-- A parameter of a rule text, read: a token, or a list of tokens. -/
inductive Value.IsParameter : Value → Prop
  | token {v : Value} (h : v.IsToken) : IsParameter v
  | list {x : Value} {xs : List Value} (h : ∀ y ∈ x :: xs, y.IsToken) :
    IsParameter (.list (x :: xs))

namespace Config

/-- Texts can be cut: the two delimiters inside a rule are not empty. -/
structure Cuts (c : Config) : Prop where
  parameter : c.parameterDelimiter.isEmpty = false
  list : c.listDelimiter.isEmpty = false

/-- A coerced text is a token. -/
theorem isToken_coerceText (c : Config) (token : String) : (c.coerceText token).IsToken := by
  unfold coerceText
  split
  · exact .bool _
  · exact .text _

/-- There is at least one piece. -/
theorem cut?_eq_ok {delimiter : String} (h : delimiter.isEmpty = false) (s : String) :
    cut? delimiter s = .ok none ∨ ∃ t ts, cut? delimiter s = .ok (some (t :: ts)) := by
  unfold cut?
  split
  · rw [h]
    have hne : splitText delimiter s ≠ [] := by simp [splitText, split_ne_nil]
    obtain ⟨t, ts, hsplit⟩ := List.exists_cons_of_ne_nil hne
    exact .inr ⟨t, ts, by simp [hsplit]⟩
  · exact .inl rfl

variable {c : Config} (hc : c.Cuts)
include hc

/-- Every segment is read as a parameter. -/
theorem parameter_eq_ok (segment : String) :
    ∃ p, c.parameter segment = .ok p ∧ (c.coerceParameter p).IsParameter := by
  unfold parameter
  rcases cut?_eq_ok hc.list segment with h | ⟨t, ts, h⟩
  · exact ⟨.single segment, by rw [h]; rfl, .token (c.isToken_coerceText segment)⟩
  · refine ⟨.several (t :: ts), by rw [h]; rfl, .list fun y hy => ?_⟩
    obtain ⟨token, -, rfl⟩ := List.mem_map.mp (show y ∈ (t :: ts).map c.coerceText from hy)
    exact c.isToken_coerceText token

theorem parameters_eq_ok (segments : List String) :
    ∃ ps, segments.mapM c.parameter = .ok ps ∧ ∀ p ∈ ps.map c.coerceParameter, p.IsParameter := by
  induction segments with
  | nil => exact ⟨[], rfl, List.forall_mem_nil _⟩
  | cons segment segments ih =>
    obtain ⟨p, hp, hparameter⟩ := parameter_eq_ok hc segment
    obtain ⟨ps, hps, hparameters⟩ := ih
    refine ⟨p :: ps, by rw [List.mapM_cons, hp, hps]; rfl, ?_⟩
    rw [List.map_cons, List.forall_mem_cons]
    exact ⟨hparameter, hparameters⟩

/-- Every rule text can be read. -/
theorem prepare_eq_ok (text : String) :
    ∃ prepared, c.prepare text = .ok prepared ∧ ∀ p ∈ prepared.parameters, p.IsParameter := by
  unfold prepare parse
  rcases cut?_eq_ok hc.parameter text with h | ⟨method, segments, h⟩
  · exact ⟨⟨strip text, []⟩, by rw [h]; rfl, List.forall_mem_nil _⟩
  · obtain ⟨ps, hps, hparameters⟩ := parameters_eq_ok hc segments
    refine ⟨⟨strip method, ps.map c.coerceParameter⟩, ?_, hparameters⟩
    simp only [h, bind, Except.bind]
    rw [hps]
    rfl

end Config

/-- The standard delimiters are not empty. -/
theorem Config.cuts_default : ({} : Config).Cuts := ⟨by decide, by decide⟩

namespace Value

/-- A token has a text. -/
theorem IsToken.plainText {v : Value} (h : v.IsToken) : ∃ s, v.plainText = .ok s := by
  cases h with
  | bool b => exact ⟨_, rfl⟩
  | text s => exact ⟨s, rfl⟩

/-- A parameter can be taken for a number, or is none. -/
theorem IsParameter.toNumber {v : Value} (h : v.IsParameter) : ∃ d, v.toNumber = .ok d := by
  cases h with
  | token h => cases h <;> exact ⟨_, rfl⟩
  | list h => exact ⟨none, rfl⟩

theorem IsToken.inMessage {v : Value} (h : v.IsToken) : ∃ s, v.inMessage = .ok s := by
  cases h with
  | bool b => exact ⟨_, rfl⟩
  | text s => exact ⟨s, rfl⟩

theorem allInMessage_eq_ok {xs : List Value} (h : ∀ x ∈ xs, ∃ s, x.inMessage = .ok s) :
    ∃ ss, allInMessage xs = .ok ss := by
  induction xs with
  | nil => exact ⟨[], rfl⟩
  | cons x xs ih =>
    obtain ⟨s, hs⟩ := h x List.mem_cons_self
    obtain ⟨ss, hss⟩ := ih fun y hy => h y (List.mem_cons_of_mem _ hy)
    exact ⟨s :: ss, by simp [allInMessage, hs, hss, bind, Except.bind, pure, Except.pure]⟩

/-- A parameter can be put in a message. -/
theorem IsParameter.inMessage {v : Value} (h : v.IsParameter) : ∃ s, v.inMessage = .ok s := by
  cases h with
  | token h => exact h.inMessage
  | list h =>
    obtain ⟨ss, hss⟩ := allInMessage_eq_ok fun y hy => (h y hy).inMessage
    exact ⟨_, by rw [Value.inMessage, hss]; rfl⟩

end Value

namespace Predicate

/-- A parameter names a field or not. -/
theorem fieldName?_eq_ok {v : Value} (h : v = .null ∨ v.IsParameter) :
    ∃ name, fieldName? v = .ok name := by
  rcases h with rfl | h
  · exact ⟨none, rfl⟩
  · cases h with
    | token h => cases h <;> exact ⟨_, rfl⟩
    | list h => exact ⟨none, rfl⟩

theorem plainTexts_eq_ok {xs : List Value} (h : ∀ x ∈ xs, x.IsToken) :
    ∃ ss, plainTexts xs = .ok ss := by
  induction xs with
  | nil => exact ⟨[], rfl⟩
  | cons x xs ih =>
    obtain ⟨s, hs⟩ := (h x List.mem_cons_self).plainText
    obtain ⟨ss, hss⟩ := ih fun y hy => h y (List.mem_cons_of_mem _ hy)
    exact ⟨s :: ss, by simp [plainTexts, hs, hss, bind, Except.bind, pure, Except.pure]⟩

/-- Parameters can be read as options. -/
theorem options_eq_ok {ps : List Value} (h : ∀ p ∈ ps, p.IsParameter) :
    ∃ ss, options ps = .ok ss := by
  induction ps with
  | nil => exact ⟨[], rfl⟩
  | cons p ps ih =>
    obtain ⟨ss, hss⟩ := ih fun q hq => h q (List.mem_cons_of_mem _ hq)
    cases h p List.mem_cons_self with
    | token htoken =>
      obtain ⟨s, hs⟩ := htoken.plainText
      cases htoken <;>
        exact ⟨s :: ss, by simp [options, hs, hss, bind, Except.bind, pure, Except.pure]⟩
    | list htokens =>
      obtain ⟨ts, hts⟩ := plainTexts_eq_ok htokens
      exact ⟨ts ++ ss, by rw [options, hts, hss]; rfl⟩

variable {actual : Value} {fault : Fault}

/-- A value with a text can be compared with a token. -/
theorem meets_eq_ok {s : String} (hactual : actual.plainText = .ok s) {v : Value} (h : v.IsToken) :
    ∃ b, meets actual v = .ok b := by
  cases h with
  | bool b => cases actual <;> simp [meets, hactual, bind, Except.bind, pure, Except.pure]
  | text t => exact ⟨s == t, by simp [meets, hactual, bind, Except.bind, pure, Except.pure]⟩

/-- A value with a text can be compared with several tokens. -/
theorem meetsAny_eq_ok {s : String} (hactual : actual.plainText = .ok s) {xs : List Value}
    (h : ∀ x ∈ xs, x.IsToken) : ∃ b, meetsAny actual xs = .ok b := by
  induction xs with
  | nil => exact ⟨false, rfl⟩
  | cons x xs ih =>
    obtain ⟨b, hb⟩ := meets_eq_ok hactual (h x List.mem_cons_self)
    obtain ⟨b', hb'⟩ := ih fun y hy => h y (List.mem_cons_of_mem _ hy)
    cases b <;> simp [meetsAny, hb, hb', bind, Except.bind, pure, Except.pure]

/-- A value without text cannot be compared with a token. -/
theorem meets_eq_error (hactual : actual.plainText = .error fault) {v : Value} (h : v.IsToken) :
    meets actual v = .error fault := by
  cases h with
  | bool b =>
    cases actual with
    | bool a => cases hactual
    | _ => simp [meets, hactual, bind, Except.bind]
  | text t => simp [meets, hactual, bind, Except.bind]

/-- The only thing that may be in the way of a comparison with an expectation is a value without
text. -/
theorem meets_eq_error_iff {p : Value} (hp : p.IsParameter) :
    meets actual p = .error fault ↔ actual.plainText = .error fault := by
  rcases hactual : actual.plainText with fault' | s
  · have hmeets : meets actual p = .error fault' := by
      cases hp with
      | token h => exact meets_eq_error hactual h
      | list h =>
        have hfirst := meets_eq_error hactual (h _ List.mem_cons_self)
        simp [meets, meetsAny, hfirst, bind, Except.bind]
    simp [hmeets]
  · have hmeets : ∃ b, meets actual p = .ok b := by
      cases hp with
      | token h => exact meets_eq_ok hactual h
      | list h => exact meetsAny_eq_ok hactual h
    obtain ⟨b, hb⟩ := hmeets
    simp [hb]

end Predicate

end FormRules
