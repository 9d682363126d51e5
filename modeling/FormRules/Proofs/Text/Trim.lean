import FormRules.Text.Blank
import Mathlib.Data.List.DropRight

/-!
# Trimmed texts

Trimming leaves nothing of a text exactly if the text is blank (`trim_eq_nil_iff`), and trimming
what was trimmed changes nothing (`strip_strip`): neither the first nor the last character that is
left is blank. No other texts are left as they are (`strip_eq_self_iff`).

White space in front of a text or behind it is trimmed off (`trim_append_left`, `trim_append_right`,
`trim_around`), and nothing else is (`exists_trim`, `mem_trim`).
-/

namespace FormRules.Text

variable {s w : List Char}

/-- Trimming leaves nothing just if the text is blank. -/
theorem trim_eq_nil_iff : trim s = [] ↔ isBlankText s = true := by
  have htrim : trim s = [] ↔ ∀ c ∈ s.dropWhile isBlank, isBlank c = true :=
    List.rdropWhile_eq_nil_iff
  rw [htrim, isBlankText, List.all_eq_true]
  constructor
  · intro h
    rw [← List.dropWhile_eq_nil_iff]
    -- the first character that is left would not be blank
    have hhead := List.head?_dropWhile_not isBlank s
    cases hrest : s.dropWhile isBlank with
    | nil => rfl
    | cons c t => simp [hrest, h c] at hhead
  · intro h c hc
    exact h c ((List.dropWhile_sublist _).subset hc)

/-- A trimmed text does not begin with white space. -/
theorem trimStart_trim (s : List Char) : trimStart (trim s) = trim s := by
  refine List.dropWhile_eq_self_iff.mpr fun hlength => ?_
  -- it begins as it did before its end was trimmed
  have hbegins : trim s <+: trimStart s := List.rdropWhile_prefix isBlank (s.dropWhile isBlank)
  have hstart : trimStart (trimStart s) = trimStart s :=
    List.dropWhile_idempotent isBlank s
  rw [hbegins.getElem hlength]
  exact List.dropWhile_eq_self_iff.mp hstart _

theorem trim_trim (s : List Char) : trim (trim s) = trim s := by
  have hend : trimEnd (trim s) = trim s := List.rdropWhile_idempotent isBlank (trimStart s)
  rw [trim, trimStart_trim, hend]

theorem isBlankText_append (s t : List Char) :
    isBlankText (s ++ t) = (isBlankText s && isBlankText t) :=
  List.all_append

/-- White space in front of a text is trimmed off. -/
theorem trim_append_left (hw : isBlankText w = true) (s : List Char) : trim (w ++ s) = trim s := by
  rw [trim, trimStart, List.dropWhile_append_of_pos (List.all_eq_true.mp hw)]
  rfl

/-- White space behind a text is trimmed off. -/
theorem trim_append_right (hw : isBlankText w = true) (s : List Char) : trim (s ++ w) = trim s := by
  have hend (t : List Char) : trimEnd (t ++ w) = trimEnd t := by
    have hreverse : ∀ c ∈ w.reverse, isBlank c = true := by simpa [isBlankText] using hw
    rw [trimEnd, List.reverse_append, List.dropWhile_append_of_pos hreverse]
    rfl
  by_cases hs : trimStart s = []
  · -- nothing is left of either of them
    have hblank : trimStart w = [] := List.dropWhile_eq_nil_iff.mpr (List.all_eq_true.mp hw)
    have hboth : trimStart (s ++ w) = [] := by
      rw [trimStart] at hs hblank ⊢
      simp [List.dropWhile_append, hs, hblank]
    rw [trim, trim, hboth, hs]
  · have hboth : trimStart (s ++ w) = trimStart s ++ w := by
      rw [trimStart] at hs ⊢
      simp [List.dropWhile_append, hs, trimStart]
    rw [trim, hboth, hend, ← trim]

/-- What is trimmed off a text is white space. -/
theorem exists_trim (s : List Char) : ∃ before after,
    isBlankText before = true ∧ isBlankText after = true ∧ s = before ++ (trim s ++ after) := by
  refine ⟨s.takeWhile isBlank, (trimStart s).rtakeWhile isBlank, ?_, ?_, ?_⟩
  · exact List.all_takeWhile
  · exact List.all_eq_true.mpr fun c hc => List.mem_rtakeWhile_imp hc
  · have hend : trim s ++ (trimStart s).rtakeWhile isBlank = trimStart s :=
      List.rdropWhile_append_rtakeWhile
    rw [hend]
    exact List.takeWhile_append_dropWhile.symm

theorem mem_trim {c : Char} (hc : c ∈ s) (hblank : isBlank c = false) : c ∈ trim s := by
  obtain ⟨before, after, hbefore, hafter, hs⟩ := exists_trim s
  have hnot {w : List Char} (hw : isBlankText w = true) : c ∉ w := by
    intro hmem
    rw [List.all_eq_true.mp hw c hmem] at hblank
    cases hblank
  rw [hs] at hc
  simpa [hnot hbefore, hnot hafter] using hc

theorem trim_subset (s : List Char) : trim s ⊆ s := by
  obtain ⟨before, after, -, -, hs⟩ := exists_trim s
  intro c hc
  rw [hs]
  simp [hc]

/-! ## Strings -/

/-- A text without white space at either end. -/
def Trimmed (s : String) : Prop :=
  ∀ c, s.toList.head? = some c ∨ s.toList.getLast? = some c → isBlank c = false

theorem isEmpty_strip (s : String) : (strip s).isEmpty = isBlankText s.toList := by
  rw [Bool.eq_iff_iff, String.isEmpty_iff, ← String.toList_eq_nil_iff, toList_strip,
    trim_eq_nil_iff]

/-- **Trimming what was trimmed changes nothing.** -/
theorem strip_strip (s : String) : strip (strip s) = strip s := by
  rw [← String.toList_inj, toList_strip, toList_strip, trim_trim]

/-- **Trimming changes nothing just if the text is trimmed.** -/
theorem strip_eq_self_iff {s : String} : strip s = s ↔ Trimmed s := by
  rw [← String.toList_inj, toList_strip]
  constructor
  · intro htrim c hc
    have hstart : s.toList.dropWhile isBlank = s.toList := htrim ▸ trimStart_trim s.toList
    have hend : s.toList.rdropWhile isBlank = s.toList := by
      rw [← htrim]
      exact List.rdropWhile_idempotent isBlank _
    rcases hc with hc | hc
    · obtain ⟨hlength, rfl⟩ := List.getElem?_eq_some_iff.mp (List.head?_eq_getElem? ▸ hc)
      simpa using List.dropWhile_eq_self_iff.mp hstart hlength
    · obtain ⟨hne, rfl⟩ := List.mem_getLast?_eq_getLast hc
      simpa using List.rdropWhile_eq_self_iff.mp hend hne
  · intro h
    have hstart : trimStart s.toList = s.toList := by
      refine List.dropWhile_eq_self_iff.mpr fun hlength => ?_
      simpa using h _ (.inl (List.head?_eq_getElem? ▸ List.getElem?_eq_getElem hlength))
    have hend : trimEnd s.toList = s.toList := by
      refine List.rdropWhile_eq_self_iff.mpr fun hne => ?_
      simpa using h _ (.inr (List.getLast?_eq_some_getLast hne))
    rw [trim, hstart, hend]

theorem strip_of_not_blank {s : String} (h : ∀ c ∈ s.toList, isBlank c = false) : strip s = s := by
  refine strip_eq_self_iff.mpr fun c hc => h c ?_
  rcases hc with hfirst | hlast
  · exact List.mem_of_head? hfirst
  · exact List.mem_of_getLast? hlast

/-- White space around a text that has none at its ends is all that trimming takes away. -/
theorem trim_around {before s after : List Char} (hbefore : isBlankText before = true)
    (hafter : isBlankText after = true)
    (hends : ∀ c, s.head? = some c ∨ s.getLast? = some c → isBlank c = false) :
    trim (before ++ s ++ after) = s := by
  have htrimmed : strip (String.ofList s) = String.ofList s := by
    refine strip_eq_self_iff.mpr fun c hc => hends c ?_
    rwa [String.toList_ofList] at hc
  have hself : trim s = s := by
    have htext := congrArg String.toList htrimmed
    rwa [toList_strip, String.toList_ofList] at htext
  rw [trim_append_right hafter, trim_append_left hbefore, hself]

end FormRules.Text
