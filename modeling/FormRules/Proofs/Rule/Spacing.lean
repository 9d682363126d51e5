import FormRules.Proofs.Rule.Notation
import FormRules.Proofs.RuleSet.Normal
import FormRules.Proofs.Text.Place
import Mathlib.Logic.Relation

/-!
# White space around delimiters

Rules, methods and tokens are trimmed after they are cut out of a text, each at its own stage. So it
makes no difference whether there is white space around a delimiter, or how much of it
(`Config.spacing_irrelevant`).

White space is put into a text at a place (`Config.Spaced`), and the place is followed through the
stages. Where the text is cut at the delimiter beside the place, the place is at an end of a piece,
and stays at an end of a piece until this piece is trimmed. A delimiter of lists cuts parameters
only, so in front of the first parameter of a rule it is a character like any other.
-/

namespace FormRules

open Text

/-! ## Places -/

namespace Config

/-- The text ends inside a parameter: in its last rule there is a delimiter of parameters. -/
def InParameter (r p : Char) (before : List Char) : Prop :=
  ∃ front parameter, before = front ++ p :: parameter ∧ r ∉ parameter

/-- Behind the text `before`, the character `d` is a delimiter. -/
def Delimits (r p l : Char) (before : List Char) (d : Char) : Prop :=
  d = r ∨ d = p ∨ (d = l ∧ InParameter r p before)

/-- A place where white space makes no difference: at an end of the text, or beside a delimiter. -/
inductive Gap (r p l : Char) : List Char → List Char → Prop
  /-- at the start of the text -/
  | start (after : List Char) : Gap r p l [] after
  /-- at the end of the text -/
  | finish (before : List Char) : Gap r p l before []
  /-- behind a delimiter -/
  | behind {d : Char} (before after : List Char) (hd : Delimits r p l before d) :
      Gap r p l (before ++ [d]) after
  /-- in front of a delimiter -/
  | ahead {d : Char} (before after : List Char) (hd : Delimits r p l before d) :
      Gap r p l before (d :: after)

/-- The second text is the first one with white space at one such place. -/
def Spaced (r p l : Char) (s t : String) : Prop :=
  ∃ before space after, s.toList = before ++ after ∧ t.toList = before ++ (space ++ after) ∧
    isBlankText space = true ∧ Gap r p l before after

/-- A place in a rule that is at an end of it, or beside a delimiter. -/
def RuleEdge (p l : Char) (x y : List Char) : Prop := Edge [p] x y ∨ (p ∈ x ∧ Edge [l] x y)

variable {r p l : Char} {x y u v w : List Char} {front back : List (List Char)}

theorem InParameter.concat {d : Char} (h : InParameter r p x) (hd : r ≠ d) :
    InParameter r p (x ++ [d]) := by
  obtain ⟨front, parameter, rfl, hr⟩ := h
  exact ⟨front, parameter ++ [d], by simp, by simp [hr, hd]⟩

/-- White space in a gap is beside a delimiter of rules or parameters, or of lists. -/
theorem Gap.edge (hrl : r ≠ l) (h : Gap r p l x y) :
    Edge [r, p] x y ∨ (InParameter r p x ∧ Edge [l] x y) := by
  cases h with
  | start => exact .inl (.start y)
  | finish => exact .inl (.finish x)
  | @behind d before _ hd =>
    rcases hd with rfl | rfl | ⟨rfl, hin⟩
    · exact .inl (.behind (by simp) before y)
    · exact .inl (.behind (by simp) before y)
    · exact .inr ⟨hin.concat hrl, .behind (by simp) before y⟩
  | @ahead d _ after hd =>
    rcases hd with rfl | rfl | ⟨rfl, hin⟩
    · exact .inl (.ahead (by simp) x after)
    · exact .inl (.ahead (by simp) x after)
    · exact .inr ⟨hin, .ahead (by simp) x after⟩

/-- What is in a parameter is so in its own rule. -/
theorem InParameter.mem (hrp : r ≠ p) (h : InParameter r p x)
    (haround : Around r x y front u v back) :
    p ∈ u := by
  obtain ⟨start, parameter, hx, hr⟩ := h
  have hparameter : p :: parameter <:+ x := ⟨start, hx.symm⟩
  rcases haround.before with ⟨-, rfl⟩ | ⟨-, s, hs⟩
  · exact hparameter.subset List.mem_cons_self
  · have hrule : r :: u <:+ x := ⟨s, hs.symm⟩
    rcases List.suffix_or_suffix_of_suffix hparameter hrule with hin | hout
    · rcases List.suffix_cons_iff.mp hin with heq | hin
      · exact absurd (List.cons.inj heq).1.symm hrp
      · exact hin.subset List.mem_cons_self
    · -- then the rule would begin behind the delimiter, inside the parameter
      rcases List.mem_cons.mp (hout.subset List.mem_cons_self) with h | h
      · exact absurd h hrp
      · exact absurd h hr

/-- A gap in a text is a gap in the rule that it stands in. -/
theorem Gap.ruleEdge (hrp : r ≠ p) (hrl : r ≠ l) (h : Gap r p l x y)
    (haround : Around r x y front u v back) : RuleEdge p l u v := by
  rcases h.edge hrl with hedge | ⟨hin, hedge⟩
  · exact .inl (haround.edge hedge)
  · exact .inr ⟨hin.mem hrp haround, haround.edge (hedge.mono (List.subset_cons_self r [l]))⟩

/-! ## Parameters -/

/-- A parameter, cut at the delimiter of lists. -/
def cutParameter (l : Char) (segment : List Char) : Parameter :=
  if l ∈ segment then .several ((split [l] segment).map String.ofList)
    else .single (String.ofList segment)

variable {c : Config}

/-- A segment is cut at the delimiters of lists. -/
theorem parameter_ofList (hl : c.listDelimiter = .singleton l) (segment : List Char) :
    c.parameter (String.ofList segment) = .ok (cutParameter l segment) := by
  rw [parameter, hl, cut?_singleton, String.toList_ofList, cutParameter]
  by_cases hmem : l ∈ segment
  · rw [if_pos hmem, if_pos hmem, splitText, String.toList_ofList, String.toList_singleton]
    rfl
  · rw [if_neg hmem, if_neg hmem]
    rfl

/-- White space at an end is trimmed. -/
theorem strip_insert (h : Edge [] x y) (hw : isBlankText w = true) :
    strip (String.ofList (x ++ (w ++ y))) = strip (String.ofList (x ++ y)) := by
  simp only [strip, String.toList_ofList, h.trim_insert hw]

/-- So it makes no difference to a token. -/
theorem coerceText_insert (h : Edge [] x y) (hw : isBlankText w = true) :
    c.coerceText (String.ofList (x ++ (w ++ y))) = c.coerceText (String.ofList (x ++ y)) := by
  simp only [coerceText, strip_insert h hw]

/-- White space at an end of a parameter, or beside a delimiter of lists in it. -/
theorem coerceParameter_insert (hl : isBlank l = false) (h : Edge [l] x y)
    (hw : isBlankText w = true) :
    c.coerceParameter (cutParameter l (x ++ (w ++ y))) =
      c.coerceParameter (cutParameter l (x ++ y)) := by
  have hlw : l ∉ w := not_mem_of_isBlankText hw hl
  by_cases hmem : l ∈ x ++ y
  · have hmem' : l ∈ x ++ (w ++ y) := by
      rcases List.mem_append.mp hmem with hx | hy
      · exact List.mem_append_left _ hx
      · exact List.mem_append_right _ (List.mem_append_right w hy)
    obtain ⟨front, u, v, back, haround⟩ := exists_around l x y
    have hedge : Edge [] u v := haround.edge h
    rw [cutParameter, cutParameter, if_pos hmem, if_pos hmem', haround.split_eq,
      haround.split_insert w hlw]
    simp only [coerceParameter, List.map_append, List.map_cons, coerceText_insert hedge hw]
  · have hmem' : l ∉ x ++ (w ++ y) := by
      simp only [List.mem_append, not_or] at hmem ⊢
      exact ⟨hmem.1, hlw, hmem.2⟩
    have hedge : Edge [] x y := (around_of_not_mem hmem).edge h
    rw [cutParameter, cutParameter, if_neg hmem, if_neg hmem']
    exact coerceText_insert hedge hw

/-! ## Rules -/

section

variable (hp : c.parameterDelimiter = .singleton p) (hl : c.listDelimiter = .singleton l)

include hp hl

/-- A rule is read piece by piece, also if it is the only one. -/
theorem prepare_ofList {text method : List Char} {segments : List (List Char)}
    (h : split [p] text = method :: segments) : c.prepare (String.ofList text) =
      .ok ⟨strip (String.ofList method), segments.map fun s =>
        c.coerceParameter (cutParameter l s)⟩ := by
  have hparse : c.parse (String.ofList text) =
      .ok ⟨String.ofList method, segments.map (cutParameter l)⟩ := by
    rw [parse_eq_ok_iff, hp, cut?_singleton, String.toList_ofList]
    by_cases hmem : p ∈ text
    · refine .inr ⟨segments.map String.ofList, ?_, ?_⟩
      · rw [if_pos hmem, splitText, String.toList_ofList, String.toList_singleton, h]
        rfl
      · rw [List.forall₂_map_left_iff, List.forall₂_map_right_iff, List.forall₂_same]
        exact fun segment _ => parameter_ofList hl segment
    · rw [split_of_not_mem hmem] at h
      obtain ⟨rfl, rfl⟩ := List.cons.inj h
      exact .inl ⟨by rw [if_neg hmem], rfl⟩
  have hparameters : (segments.map (cutParameter l)).map c.coerceParameter =
      segments.map fun s => c.coerceParameter (cutParameter l s) := List.map_map
  rw [prepare, hparse, ← hparameters]
  rfl

/-- White space at an end of a rule, or beside a delimiter in it. -/
theorem prepare_insert (hpblank : isBlank p = false) (hlblank : isBlank l = false)
    (h : RuleEdge p l x y)
    (hw : isBlankText w = true) :
    c.prepare (String.ofList (x ++ (w ++ y))) = c.prepare (String.ofList (x ++ y)) := by
  have hpw : p ∉ w := not_mem_of_isBlankText hw hpblank
  obtain ⟨front, u, v, back, haround⟩ := exists_around p x y
  have hbefore := haround.split_eq
  have hafter := haround.split_insert w hpw
  cases front with
  | nil =>
    -- the place is in the method, where the delimiter of lists is none
    have hx : x = u := by
      rcases haround.before with ⟨-, hx⟩ | ⟨hne, -⟩
      · exact hx
      · exact absurd rfl hne
    have hedge : Edge [] u v := by
      rcases h with h | ⟨hin, -⟩
      · exact haround.edge h
      · exact absurd (hx ▸ hin) haround.not_mem_before
    rw [prepare_ofList hp hl hbefore, prepare_ofList hp hl hafter, strip_insert hedge hw]
  | cons method front =>
    have hedge : Edge [l] u v := by
      rcases h with h | ⟨-, h⟩
      · exact (haround.edge h).mono (List.nil_subset [l])
      · exact haround.edge (h.mono (List.subset_cons_self p [l]))
    rw [List.cons_append] at hbefore hafter
    rw [prepare_ofList hp hl hbefore, prepare_ofList hp hl hafter]
    simp only [List.map_append, List.map_cons, coerceParameter_insert hlblank hedge hw]

/-- A rule is read like the trimmed rule. -/
theorem prepare_strip (hpblank : isBlank p = false) (hlblank : isBlank l = false) (text : String) :
    c.prepare (strip text) = c.prepare text := by
  obtain ⟨before, after, hbefore, hafter, htext⟩ := exists_trim text.toList
  have hstart := prepare_insert hp hl hpblank hlblank
    (.inl (.start (trim text.toList ++ after))) hbefore
  have hend := prepare_insert hp hl hpblank hlblank (.inl (.finish (trim text.toList))) hafter
  simp only [List.append_nil] at hend
  simp only [List.nil_append] at hstart
  rw [← htext, String.ofList_toList, hend] at hstart
  exact hstart.symm

end

/-! ## Declarations -/

/-- The rules of a field, read. -/
def prepareAll (c : Config) (rules : Value) (place : String) : Attempt (List PreparedRule) := do
  (← c.splitRules rules place).mapM c.prepare

section

variable (hr : c.ruleDelimiter = .singleton r) (hp : c.parameterDelimiter = .singleton p)
  (hl : c.listDelimiter = .singleton l)

include hr hp hl

/-- The pieces that are not blank, read. -/
theorem prepareAll_text (hpblank : isBlank p = false) (hlblank : isBlank l = false)
    {read : String → PreparedRule} (hread : ∀ text, c.prepare text = .ok (read text))
    (s place : String) :
    c.prepareAll (.text s) place =
      .ok (((split [r] s.toList).filter fun piece => !isBlankText piece).map fun piece =>
        read (String.ofList piece)) := by
  have hcut : c.ruleDelimiter.isEmpty = false := by simp [hr]
  have hsplit := (splitRules_settles (fun _ _ => hcut) place).eq_ok fun _ hfault =>
    hfault.2 (.text s)
  have htrimmed (text : String) : read (strip text) = read text := by
    have hprepare := prepare_strip hp hl hpblank hlblank text
    rw [hread, hread] at hprepare
    exact Except.ok.inj hprepare
  rw [prepareAll, hsplit]
  change (kept (c.declared (.text s))).mapM c.prepare = _
  rw [Attempt.mapM_eq_ok hread, declared, hr, splitText, String.toList_singleton, kept,
    List.filter_map, List.map_map, List.map_map]
  simp only [Function.comp_def, String.toList_ofList, htrimmed]

variable (hrp : r ≠ p) (hrl : r ≠ l) (hblank : ∀ d ∈ [r, p, l], isBlank d = false)

include hrp hrl hblank

/-- White space at a single place. -/
theorem prepareAll_insert {read : String → PreparedRule}
    (hread : ∀ text, c.prepare text = .ok (read text))
    {s t : String} (h : Spaced r p l s t) (place : String) :
    c.prepareAll (.text t) place = c.prepareAll (.text s) place := by
  have hpblank := hblank p (by simp)
  have hlblank := hblank l (by simp)
  obtain ⟨x, w, y, hs, ht, hw, hgap⟩ := h
  obtain ⟨front, u, v, back, haround⟩ := exists_around r x y
  have hpiece : read (String.ofList (u ++ (w ++ v))) = read (String.ofList (u ++ v)) := by
    have hprepare := prepare_insert hp hl hpblank hlblank (hgap.ruleEdge hrp hrl haround) hw
    rw [hread, hread] at hprepare
    exact Except.ok.inj hprepare
  rw [prepareAll_text hr hp hl hpblank hlblank hread,
    prepareAll_text hr hp hl hpblank hlblank hread, hs, ht, haround.split_eq,
    haround.split_insert w (not_mem_of_isBlankText hw (hblank r (by simp)))]
  simp only [List.filter_append, List.filter_cons, List.map_append, isBlankText_insert hw]
  split
  · rw [List.map_cons, List.map_cons, hpiece]
  · rfl

/-- **White space around delimiters makes no difference.** However much of it is put beside the
delimiters of rules and parameters, beside the delimiters of lists in a parameter, and at the ends
of the text, the text declares the same rules, with the same methods and parameters. -/
theorem spacing_irrelevant {s t : String} (h : Relation.ReflTransGen (Spaced r p l) s t)
    (place : String) :
    ∃ rules, c.prepareAll (.text s) place = .ok rules ∧
      c.prepareAll (.text t) place = .ok rules := by
  have hcuts : c.Cuts := ⟨by simp [hp], by simp [hl]⟩
  choose read hread _ using prepare_eq_ok hcuts
  have hsame : c.prepareAll (.text t) place = c.prepareAll (.text s) place := by
    induction h with
    | refl => rfl
    | tail _ hstep ih =>
      exact (prepareAll_insert hr hp hl hrp hrl hblank hread hstep place).trans ih
  have hrules := prepareAll_text hr hp hl (hblank p (by simp)) (hblank l (by simp)) hread s place
  exact ⟨_, hrules, hsame.trans hrules⟩

end

end Config

namespace SpacedOut

open Config

/-- The rules of both texts. -/
def rules : List PreparedRule := [⟨"between", [.list [.text "1", .text "10"]]⟩, ⟨"required", []⟩]

/-- A list and a second rule, with white space in front of the comma, behind the colon and behind
the bar. White space inside of a name is another matter. -/
theorem between_spaced_out :
    Relation.ReflTransGen (Spaced '|' ':' ',') "between:1,10|required"
        "between: 1 ,10|\t required" ∧
      ({} : Config).prepareAll (.text "between:1,10|required") "" = .ok rules ∧
      ({} : Config).prepareAll (.text "between: 1 ,10|\t required") "" = .ok rules ∧
      ({} : Config).prepareAll (.text "between:1,10|re quired") "" =
        .ok [⟨"between", [.list [.text "1", .text "10"]]⟩, ⟨"re quired", []⟩] := by
  have hcomma : Spaced '|' ':' ',' "between:1,10|required" "between:1 ,10|required" :=
    ⟨"between:1".toList, [' '], ",10|required".toList, rfl, rfl, by decide,
      .ahead _ _ (.inr (.inr ⟨rfl, "between".toList, ['1'], rfl, by decide⟩))⟩
  have hcolon : Spaced '|' ':' ',' "between:1 ,10|required" "between: 1 ,10|required" :=
    ⟨"between:".toList, [' '], "1 ,10|required".toList, rfl, rfl, by decide,
      .behind "between".toList _ (.inr (.inl rfl))⟩
  have hbar : Spaced '|' ':' ',' "between: 1 ,10|required" "between: 1 ,10|\t required" :=
    ⟨"between: 1 ,10|".toList, ['\t', ' '], "required".toList, rfl, rfl, by decide,
      .behind "between: 1 ,10".toList _ (.inl rfl)⟩
  have hspaced := ((Relation.ReflTransGen.single hcomma).tail hcolon).tail hbar
  have hblank : ∀ d ∈ ['|', ':', ','], isBlank d = false := by
    intro d hd
    simp only [List.mem_cons, List.not_mem_nil, or_false] at hd
    rcases hd with rfl | rfl | rfl <;> rfl
  obtain ⟨found, hfound, hsame⟩ :=
    spacing_irrelevant (c := {}) rfl rfl rfl (by decide) (by decide) hblank hspaced ""
  have hrules : ({} : Config).prepareAll (.text "between:1,10|required") "" = .ok rules := rfl
  obtain rfl := Except.ok.inj (hfound.symm.trans hrules)
  exact ⟨hspaced, hrules, hsame, rfl⟩

end SpacedOut

end FormRules
