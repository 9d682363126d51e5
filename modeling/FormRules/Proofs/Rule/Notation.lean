import FormRules.Proofs.Attempt
import FormRules.Proofs.Rule.Parameters
import FormRules.Proofs.Text.Split
import Mathlib.Logic.Equiv.Defs

/-!
# Rule texts and the rules they write

Reading a rule text loses nothing of it: writing the rule that was read gives the text back
(`Config.render_parse`). If the two delimiters are single characters, and different ones, every rule
whose parts hold no delimiter that would cut them (`Rule.Clean`) is read back from what it is
written as (`Config.parse_render`), and no other rule is ever read. So there is one rule for each
text, and one text for each of these rules (`Config.parse_lossless`).
-/

namespace FormRules

open Text

/-- The parts of a parameter hold neither delimiter, and a list has at least two of them. -/
def Parameter.Clean (p l : Char) : Parameter → Prop
  | .single token => p ∉ token.toList ∧ l ∉ token.toList
  | .several tokens => 2 ≤ tokens.length ∧ ∀ t ∈ tokens, p ∉ t.toList ∧ l ∉ t.toList

/-- The method of a rule does not hold the delimiter of parameters, and its parameters are clean. -/
structure Rule.Clean (p l : Char) (r : Rule) : Prop where
  method : p ∉ r.method.toList
  parameters : ∀ q ∈ r.parameters, q.Clean p l

namespace Config

variable {c : Config} {p l : Char}

/-! ## Writing what was read -/

/-- What is cut has a delimiter to be cut at. -/
theorem of_cut? {delimiter s : String} {ts : List String} (h : cut? delimiter s = .ok (some ts)) :
    delimiter.isEmpty = false ∧ ts = splitText delimiter s := by
  unfold cut? at h
  split at h
  · split at h
    · cases h
    · rename_i hdelimiter
      cases h
      exact ⟨Bool.eq_false_iff.mpr hdelimiter, rfl⟩
  · cases h

/-- A parameter is written as it was read. -/
theorem render_parameter {segment : String} {q : Parameter} (h : c.parameter segment = .ok q) :
    q.render c = segment := by
  unfold parameter at h
  rcases hcut : cut? c.listDelimiter segment with fault | _ | tokens <;> rw [hcut] at h <;> cases h
  · rfl
  · obtain ⟨hdelimiter, rfl⟩ := of_cut? hcut
    exact joinTexts_splitText hdelimiter segment

/-- So are several parameters. -/
theorem render_parameters {segments : List String} {qs : List Parameter}
    (h : List.Forall₂ (fun segment q => c.parameter segment = .ok q) segments qs) :
    qs.map (Parameter.render c) = segments := by
  induction h with
  | nil => rfl
  | cons hq _ ih => rw [List.map_cons, render_parameter hq, ih]

/-- A rule is read from a text without delimiter, or from the pieces of a text that has it. -/
theorem parse_eq_ok_iff {text : String} {r : Rule} : c.parse text = .ok r ↔
    (cut? c.parameterDelimiter text = .ok none ∧ r = ⟨text, []⟩) ∨
      ∃ segments, cut? c.parameterDelimiter text = .ok (some (r.method :: segments)) ∧
        List.Forall₂ (fun segment q => c.parameter segment = .ok q) segments r.parameters := by
  obtain ⟨method, parameters⟩ := r
  simp only [← Attempt.mapM_eq_ok_iff]
  unfold parse
  rcases hcut : cut? c.parameterDelimiter text with fault | _ | _ | ⟨method', segments⟩
  · simp [bind, Except.bind]
  · simp [bind, Except.bind, pure, Except.pure, eq_comm]
  · obtain ⟨-, hnil⟩ := of_cut? hcut
    exact absurd hnil.symm (by simp [splitText, split_ne_nil])
  · rcases hparameters : segments.mapM c.parameter with fault | qs
    · simp +contextual [bind, Except.bind, hparameters]
    · simp +contextual [bind, Except.bind, pure, Except.pure, hparameters]

/-- **Writing the rule that was read gives the text back.** -/
theorem render_parse {text : String} {r : Rule} (h : c.parse text = .ok r) : r.render c = text := by
  rcases parse_eq_ok_iff.mp h with ⟨-, rfl⟩ | ⟨segments, hcut, hparameters⟩
  · exact String.ofList_toList
  · obtain ⟨hdelimiter, hpieces⟩ := of_cut? hcut
    rw [Rule.render, render_parameters hparameters, hpieces, joinTexts_splitText hdelimiter]

/-- Every text is read as a rule. -/
theorem parse_eq_ok (hc : c.Cuts) (text : String) : ∃ r, c.parse text = .ok r := by
  rcases cut?_eq_ok hc.parameter text with hcut | ⟨method, segments, hcut⟩
  · exact ⟨⟨text, []⟩, parse_eq_ok_iff.mpr (.inl ⟨hcut, rfl⟩)⟩
  · obtain ⟨qs, hqs, -⟩ := parameters_eq_ok hc segments
    exact ⟨⟨method, qs⟩, parse_eq_ok_iff.mpr (.inr ⟨segments, hcut, Attempt.mapM_eq_ok_iff.mp hqs⟩)⟩

/-! ## Reading what was written -/

/-- A text is cut at a delimiter that is in it. -/
theorem cut?_singleton (d : Char) (s : String) : cut? (.singleton d) s =
    .ok (if d ∈ s.toList then some (splitText (.singleton d) s) else none) := by
  have hoccurs : occursIn (String.singleton d).toList s.toList = true ↔ d ∈ s.toList := by
    rw [occursIn_iff, String.toList_singleton, singleton_infix_iff]
  unfold cut?
  by_cases hd : d ∈ s.toList
  · rw [if_pos (hoccurs.mpr hd), if_pos hd, if_neg (by simp)]
  · rw [if_neg (mt hoccurs.mp hd), if_neg hd]

/-- What is read as a parameter is clean. -/
theorem clean_parameter (hl : c.listDelimiter = .singleton l) {segment : String}
    (hsegment : p ∉ segment.toList) {q : Parameter} (h : c.parameter segment = .ok q) :
    q.Clean p l := by
  unfold parameter at h
  rw [hl, cut?_singleton] at h
  by_cases hmem : l ∈ segment.toList
  · rw [if_pos hmem] at h
    cases h
    refine ⟨?_, fun t ht => ?_⟩
    · have htwo := one_lt_length_split (List.cons_ne_nil l []) (singleton_infix_iff.mpr hmem)
      simp only [splitText, String.toList_singleton, List.length_map]
      omega
    · obtain ⟨piece, hpiece, rfl⟩ := List.mem_map.mp ht
      rw [String.toList_singleton] at hpiece
      rw [String.toList_ofList]
      have hsubset := subset_of_mem_split (List.cons_ne_nil l []) hpiece
      exact ⟨fun hp => hsegment (hsubset hp), not_mem_of_mem_split hpiece⟩
  · rw [if_neg hmem] at h
    cases h
    exact ⟨hsegment, hmem⟩

/-- So are several parameters. -/
theorem clean_parameters (hl : c.listDelimiter = .singleton l) {segments : List String}
    {qs : List Parameter}
    (h : List.Forall₂ (fun segment q => c.parameter segment = .ok q) segments qs)
    (hsegments : ∀ segment ∈ segments, p ∉ segment.toList) : ∀ q ∈ qs, q.Clean p l := by
  induction h with
  | nil => exact List.forall_mem_nil _
  | cons hq _ ih =>
    rw [List.forall_mem_cons] at hsegments ⊢
    exact ⟨clean_parameter hl hsegments.1 hq, ih hsegments.2⟩

/-- A clean parameter is read as it was written. -/
theorem parameter_render (hl : c.listDelimiter = .singleton l) {q : Parameter} (hq : q.Clean p l) :
    c.parameter (q.render c) = .ok q := by
  unfold parameter
  rw [hl, cut?_singleton]
  cases q with
  | single token =>
    have hmem : l ∉ ((Parameter.single token).render c).toList := hq.2
    rw [if_neg hmem]
    rfl
  | several tokens =>
    obtain ⟨hlength, htokens⟩ := hq
    have hne : tokens ≠ [] := fun h => by simp [h] at hlength
    have hmem : l ∈ (joinTexts (.singleton l) tokens).toList :=
      mem_joinTexts.mpr (.inl ⟨rfl, hlength⟩)
    rw [Parameter.render, hl, if_pos hmem, splitText_joinTexts hne fun t ht => (htokens t ht).2]
    rfl

/-- A clean parameter is written without the delimiter of parameters. -/
theorem not_mem_render (hl : c.listDelimiter = .singleton l) (hpl : p ≠ l) {q : Parameter}
    (hq : q.Clean p l) : p ∉ (q.render c).toList := by
  cases q with
  | single token => exact hq.1
  | several tokens =>
    rw [Parameter.render, hl, mem_joinTexts]
    rintro (⟨h, -⟩ | ⟨t, ht, hp⟩)
    · exact hpl h
    · exact (hq.2 t ht).1 hp

variable (hp : c.parameterDelimiter = .singleton p) (hl : c.listDelimiter = .singleton l)

include hp hl

/-- What is read as a rule is clean. -/
theorem clean_parse {text : String} {r : Rule} (h : c.parse text = .ok r) : r.Clean p l := by
  rw [parse_eq_ok_iff, hp, cut?_singleton] at h
  by_cases hmem : p ∈ text.toList
  · rw [if_pos hmem] at h
    rcases h with ⟨hcut, -⟩ | ⟨segments, hcut, hparameters⟩
    · cases hcut
    · have hpieces : ∀ t ∈ r.method :: segments, p ∉ t.toList := fun t ht => by
        rw [← Option.some.inj (Except.ok.inj hcut)] at ht
        obtain ⟨piece, hpiece, rfl⟩ := List.mem_map.mp ht
        rw [String.toList_singleton] at hpiece
        rw [String.toList_ofList]
        exact not_mem_of_mem_split hpiece
      rw [List.forall_mem_cons] at hpieces
      exact ⟨hpieces.1, clean_parameters hl hparameters hpieces.2⟩
  · rw [if_neg hmem] at h
    rcases h with ⟨-, rfl⟩ | ⟨segments, hcut, -⟩
    · exact ⟨hmem, List.forall_mem_nil _⟩
    · cases hcut

/-- **Reading what a clean rule is written as gives the rule back.** -/
theorem parse_render (hpl : p ≠ l) {r : Rule} (hr : r.Clean p l) :
    c.parse (r.render c) = .ok r := by
  obtain ⟨method, qs⟩ := r
  rw [parse_eq_ok_iff, hp, cut?_singleton, Rule.render, hp]
  rcases qs with _ | ⟨q, qs⟩
  · -- without parameters nothing is joined, and the method alone is not cut
    have hmethod : joinTexts (.singleton p) [method] = method := String.ofList_toList
    rw [List.map_nil, hmethod, if_neg hr.method]
    exact .inl ⟨rfl, rfl⟩
  · have hpieces : ∀ t ∈ method :: (q :: qs).map (Parameter.render c), p ∉ t.toList := by
      rw [List.forall_mem_cons, List.forall_mem_map]
      exact ⟨hr.method, fun q hq => not_mem_render hl hpl (hr.parameters q hq)⟩
    have hmem : p ∈ (joinTexts (.singleton p)
        (method :: (q :: qs).map (Parameter.render c))).toList :=
      mem_joinTexts.mpr (.inl ⟨rfl, by simp⟩)
    rw [if_pos hmem, splitText_joinTexts (List.cons_ne_nil _ _) hpieces]
    refine .inr ⟨_, rfl, ?_⟩
    rw [List.forall₂_map_left_iff, List.forall₂_same]
    exact fun q hq => parameter_render hl (hr.parameters q hq)

omit hp hl in
/-- **Rule texts and clean rules are the same thing in two forms.** -/
theorem parse_lossless (hc : c.Cuts) :
    (∀ text, ∃ r, c.parse text = .ok r ∧ r.render c = text) ∧
      ∀ p l : Char, p ≠ l → c.parameterDelimiter = .singleton p → c.listDelimiter = .singleton l →
        ∃ e : String ≃ {r : Rule // r.Clean p l},
          (∀ text, c.parse text = .ok (e text).1) ∧ ∀ r, e.symm r = r.1.render c := by
  choose read hread using parse_eq_ok hc
  refine ⟨fun text => ⟨read text, hread text, render_parse (hread text)⟩, fun p l hpl hp hl => ?_⟩
  refine ⟨⟨fun text => ⟨read text, clean_parse hp hl (hread text)⟩, fun r => r.1.render c,
    fun text => render_parse (hread text), fun r => ?_⟩, hread, fun r => rfl⟩
  have hrender := hread (r.1.render c)
  rw [parse_render hp hl hpl r.2] at hrender
  exact Subtype.ext (Except.ok.inj hrender).symm

end Config

namespace BetweenRule

/-- The default configuration cuts at two single characters, so it reads and writes its rules
without loss, an empty parameter included. -/
theorem default_lossless :
    (({} : Config).Cuts ∧ ':' ≠ ',' ∧ ({} : Config).parameterDelimiter = .singleton ':' ∧
      ({} : Config).listDelimiter = .singleton ',') ∧
      ∃ e : String ≃ {r : Rule // r.Clean ':' ','},
        (e "between:1,10:").1 = ⟨"between", [.several ["1", "10"], .single ""]⟩ ∧
          ∀ r, e.symm r = r.1.render {} := by
  refine ⟨⟨Config.cuts_default, by decide, rfl, rfl⟩, ?_⟩
  obtain ⟨-, hlossless⟩ := Config.parse_lossless Config.cuts_default
  obtain ⟨e, hparse, hrender⟩ := hlossless ':' ',' (by decide) rfl rfl
  refine ⟨e, Except.ok.inj ((hparse "between:1,10:").symm.trans ?_), hrender⟩
  decide +kernel

end BetweenRule

end FormRules
