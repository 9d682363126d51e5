import FormRules.Predicate.Builtin
import FormRules.Proofs.Rule.Parameters
import FormRules.Proofs.Table

/-!
# Legible templates

A position in a template is written by digits, and there may be too many of them to be read. A
template without such a position is legible (`Template.Legible`). A composer whose templates are
legible has a message for every failed rule (`Composer.Legible.compose_eq_ok`).
-/

namespace FormRules

/-- Every character of a text takes at least one byte. -/
theorem Text.length_le_utf8ByteSize (s : String) : s.toList.length ≤ s.utf8ByteSize := by
  rw [← String.size_toByteArray, ← String.utf8Encode_toList]
  generalize s.toList = cs
  induction cs with
  | nil => simp
  | cons c cs ih =>
    have hc : [c].utf8Encode.size = c.utf8Size := by simp [List.utf8Encode_singleton]
    have hpos := c.utf8Size_pos
    rw [List.utf8Encode_cons, ByteArray.size_append, hc, List.length_cons]
    omega

/-- The number of a position. -/
def Segment.number? : Segment → Option Nat
  | .position digits => some (Text.valueOf 10 digits)
  | .char _ | .field => none

/-- What is put in for a piece: the text of its position, which is empty if there is none, or the
name of the field. -/
def Segment.text (positions : List String) (name : String) : Segment → String
  | .char c => String.singleton c
  | .position digits => positions.getD (Text.valueOf 10 digits) ""
  | .field => name

/-- The piece is no position with too many digits. -/
def Segment.Legible : Segment → Prop
  | .position digits => digits.length ≤ maxDigits
  | .char _ | .field => True

namespace Template

/-- No position in the template has too many digits. -/
def Legible (template : String) : Prop := ∀ s ∈ segments template, s.Legible

/-- A placeholder has no more digits than the text has characters. -/
theorem length_of_placeholder? {s : List Char} {digits : List Nat} {n : Nat}
    (h : placeholder? s = some (.position digits, n)) : digits.length ≤ s.length := by
  unfold placeholder? at h
  extract_lets found at h
  split at h
  · obtain ⟨rfl, -⟩ : found.filterMap Text.decimalValue? = digits ∧ _ := by simpa using h
    exact Nat.le_trans (List.length_filterMap_le _ _) (List.takeWhile_sublist _).length_le
  · split at h <;> simp at h

/-- So it is with every placeholder in a text. -/
theorem length_of_mem_segmentsFrom {s : List Char} {digits : List Nat} :
    ∀ {k : Nat}, .position digits ∈ segmentsFrom k s → digits.length ≤ s.length := by
  induction s with
  | nil =>
    intro k h
    cases k <;> simp [segmentsFrom] at h
  | cons c s ih =>
    intro k h
    have hrest {k : Nat} (h : .position digits ∈ segmentsFrom k s) :
        digits.length ≤ (c :: s).length := by
      have := ih h
      simp
      omega
    cases k with
    | succ k => exact hrest h
    | zero =>
      unfold segmentsFrom at h
      split at h
      · split at h
        · next piece n hpiece =>
          rcases List.mem_cons.mp h with rfl | h
          · have := length_of_placeholder? hpiece
            simp
            omega
          · exact hrest h
        · exact hrest ((List.mem_cons.mp h).resolve_left nofun)
      · exact hrest ((List.mem_cons.mp h).resolve_left nofun)

/-- A short template is legible. -/
theorem legible_of_size_le {template : String} (h : template.utf8ByteSize ≤ maxDigits) :
    Legible template := by
  intro s hs
  cases s with
  | position digits =>
    have hdigits := length_of_mem_segmentsFrom hs
    have hbytes := Text.length_le_utf8ByteSize template
    change digits.length ≤ maxDigits
    omega
  | char c => trivial
  | field => trivial

/-- A number with few digits is read. -/
theorem index_eq_ok {digits : List Nat} (h : digits.length ≤ maxDigits) :
    index digits = .ok (Text.valueOf 10 digits) := by
  simp [index, h]

/-- The positions of a legible template are read. -/
theorem indexes_eq_ok {ss : List Segment} (h : ∀ s ∈ ss, s.Legible) :
    indexes ss = .ok (ss.filterMap Segment.number?) := by
  induction ss with
  | nil => rfl
  | cons s ss ih =>
    have hrest := ih fun s' hs' => h s' (List.mem_cons_of_mem _ hs')
    cases s with
    | char c => exact hrest
    | field => exact hrest
    | position digits =>
      have hindex := index_eq_ok (h _ List.mem_cons_self : digits.length ≤ maxDigits)
      rw [indexes, hindex, hrest]
      rfl

/-- A legible segment can be filled in. -/
theorem fill_eq_ok {s : Segment} (h : s.Legible) (positions : List String) (name : String) :
    fill positions (.ok name) s = .ok (s.text positions name) := by
  cases s with
  | char c => rfl
  | field => rfl
  | position digits =>
    rw [fill, index_eq_ok h]
    rfl

/-- A legible template can be rendered. -/
theorem render_eq_ok {ss : List Segment} (h : ∀ s ∈ ss, s.Legible) (positions : List String)
    (name : String) : render positions (.ok name) ss =
      .ok (String.join (ss.map (Segment.text positions name))) := by
  induction ss with
  | nil => rfl
  | cons s ss ih =>
    have hpiece := fill_eq_ok (h s List.mem_cons_self) positions name
    rw [render, hpiece, ih fun s' hs' => h s' (List.mem_cons_of_mem _ hs'), List.map_cons,
      String.join_cons]
    rfl

/-- A message is put together from the pieces of its template. -/
theorem compose_eq_join {template : String} (h : Legible template) {parameters : List Value}
    {field : Value}
    {texts : List String} {name : String}
    (htexts : positions (segments template) parameters = .ok texts)
    (hname : field.asFieldName = .ok name) : compose template parameters field =
      .ok (String.join ((segments template).map (Segment.text texts name))) := by
  rw [compose, htexts, hname]
  exact render_eq_ok h texts name

variable {parameters : List Value} (hparameters : ∀ p ∈ parameters, p.IsParameter)
include hparameters

theorem positions_eq_ok {ss : List Segment} (h : ∀ s ∈ ss, s.Legible) :
    ∃ texts, positions ss parameters = .ok texts := by
  obtain ⟨joined, hjoined⟩ := Value.allInMessage_eq_ok fun p hp => (hparameters p hp).inMessage
  unfold positions
  rw [indexes_eq_ok h]
  split
  · next xs =>
    -- the items of the only parameter have texts just as the parameter itself
    have hitems : ∃ ss, Value.allInMessage xs = .ok ss := by
      cases hparameters _ List.mem_cons_self with
      | token h => cases h
      | list h => exact Value.allInMessage_eq_ok fun y hy => (h y hy).inMessage
    obtain ⟨spread, hspread⟩ := hitems
    simp only [bind, Except.bind]
    split
    · exact ⟨spread, hspread⟩
    · exact ⟨joined, hjoined⟩
  · exact ⟨joined, hjoined⟩

/-- A legible template gives a message for any parameters that can be written. -/
theorem compose_eq_ok {template : String} (h : Legible template) (field : String) :
    ∃ message, compose template parameters (.text field) = .ok message := by
  obtain ⟨texts, htexts⟩ := positions_eq_ok hparameters h
  have hname : ∃ name, (Value.text field).asFieldName = .ok name := by
    unfold Value.asFieldName
    split <;> exact ⟨_, rfl⟩
  obtain ⟨name, hname⟩ := hname
  exact ⟨_, compose_eq_join h htexts hname⟩

end Template

/-- The templates of the composer are legible. -/
structure Composer.Legible (c : Composer) : Prop where
  general : ∀ e ∈ c.general.entries, Template.Legible e.2
  ofForm : ∀ f ∈ c.ofForm.entries, ∀ e ∈ f.2.entries, Template.Legible e.2

namespace Composer

/-- The template in force for a text form can be told, and is one of the composer's. -/
theorem Legible.templateFor {c : Composer} (hc : c.Legible) (method form : String) :
    ∃ found, c.templateFor method (.text form) = .ok found ∧
      ∀ template ∈ found, Template.Legible template := by
  have hform : c.templatesOf (.text form) = .ok ((c.ofForm.get? (.text form)).getD ∅) := rfl
  unfold Composer.templateFor
  rw [hform]
  simp only [bind, Except.bind]
  split
  · next template h =>
    refine ⟨some template, rfl, fun _ ht => ?_⟩
    obtain rfl := Option.some.inj ht
    rcases hfound : c.ofForm.get? (.text form) with _ | templates
    · rw [hfound] at h
      cases h
    · rw [hfound] at h
      obtain ⟨f, hf, rfl⟩ := Table.exists_mem_of_get? hfound
      obtain ⟨e, he, rfl⟩ := Table.exists_mem_of_get? (t := f.2) h
      exact hc.ofForm f hf e he
  · refine ⟨_, rfl, fun template h => ?_⟩
    obtain ⟨e, he, rfl⟩ := Table.exists_mem_of_get? h
    exact hc.general e he

/-- A composer with legible templates has a message for every failed rule. -/
theorem Legible.compose_eq_ok {c : Composer} (hc : c.Legible) {method : String}
    (hmethod : Template.Legible (Template.fallback method)) {parameters : List Value}
    (hparameters : ∀ p ∈ parameters, p.IsParameter) (form field : String) :
    ∃ records message, c.compose method parameters (.text form) (.text field) =
      (records, .ok message) := by
  obtain ⟨found, hfound, hlegible⟩ := hc.templateFor method form
  unfold Composer.compose
  rw [hfound]
  rcases found with _ | template
  · obtain ⟨message, h⟩ := Template.compose_eq_ok hparameters hmethod field
    exact ⟨_, message, by rw [← h]⟩
  · obtain ⟨message, h⟩ := Template.compose_eq_ok hparameters (hlegible _ rfl) field
    exact ⟨_, message, by rw [← h]⟩

/-- The standard templates are legible. -/
theorem legible_standard : standard.Legible := by
  refine ⟨fun e he => Template.legible_of_size_le ?_, fun _ h => nomatch h⟩
  obtain ⟨e, hmem, rfl⟩ := List.mem_map.mp he
  have hshort : ∀ e ∈ Template.standard, e.2.utf8ByteSize ≤ maxDigits := by decide +kernel
  exact hshort e hmem

/-- The templates that stand in for missing ones are legible for the built-in predicates. -/
theorem legible_fallback {d : Definition} (hd : d ∈ Catalog.builtinDefinitions) :
    Template.Legible (Template.fallback d.name) := by
  have hshort : ∀ d ∈ Catalog.builtinDefinitions,
      (Template.fallback d.name).utf8ByteSize ≤ maxDigits := by
    decide +kernel
  exact Template.legible_of_size_le (hshort d hd)

end Composer

end FormRules
