import FormRules.Proofs.Number.Decimal
import FormRules.Proofs.Predicate.Url

/-!
# Texts of digits as numbers

`Text.isDigits` and `Double.ofText?` have notions of a digit of their own. The one counts the digit
marks among the digits, the other reads the decimal digits of all scripts, and nothing else, as
digits. So a text of digits is a number just if there is no digit mark in it
(`Double.isSome_ofText?_iff`). Everything else that can be in a number, the underscores, signs,
points, exponents and the names of `inf` and `nan`, is out of the question, for none of it is read
from a digit (`IsReadDigit.not_mem`).
-/

namespace FormRules

open Text

namespace Text

variable {c : Char}

/-- No digit mark is in ASCII. -/
theorem le_toNat_of_mark (h : digitMarks.has c = true) : 0xb2 ≤ c.toNat := by
  have hlow : ∀ r ∈ digitMarks, 0xb2 ≤ r.1 := by decide
  obtain ⟨r, hr, hc, -⟩ := CharSet.has_iff.mp h
  exact (hlow r hr).trans hc

/-- The marks of numbers are not blank. -/
theorem isBlank_of_mark (h : digitMarks.has c = true) : isBlank c = false := by
  have hapart : ∀ r ∈ digitMarks, ∀ b ∈ blankRanges, r.2 < b.1 ∨ b.2 < r.1 := by decide
  obtain ⟨r, hr, hlow, hhigh⟩ := CharSet.has_iff.mp h
  refine Bool.eq_false_iff.mpr fun hblank => ?_
  obtain ⟨b, hb, hlow', hhigh'⟩ := CharSet.has_iff.mp hblank
  have hsides := hapart r hr b hb
  omega

/-- A digit mark has no place value. -/
theorem decimalValue?_of_mark (h : digitMarks.has c = true) : decimalValue? c = none := by
  have hapart : ∀ r ∈ digitMarks, ∀ z ∈ decimalZeros, r.2 < z ∨ z + 10 ≤ r.1 := by decide
  obtain ⟨r, hr, hlow, hhigh⟩ := CharSet.has_iff.mp h
  rw [decimalValue?, Option.map_eq_none_iff, List.find?_eq_none]
  intro z hz
  have hsides := hapart r hr z hz
  simp only [Bool.and_eq_true, decide_eq_true_eq]
  omega

theorem decimalValue?_lt {d : Nat} (h : decimalValue? c = some d) : d < 10 := by
  obtain ⟨z, hz, rfl⟩ := Option.map_eq_some_iff.mp h
  have hrun := List.find?_some hz
  simp only [Bool.and_eq_true, decide_eq_true_eq] at hrun
  omega

/-- A text is made of digits if there is one, and nothing else. -/
theorem isDigits_iff {s : List Char} : isDigits s = true ↔ s ≠ [] ∧ ∀ c ∈ s, isDigit c = true := by
  simp [isDigits]

end Text

/-- The digits of a number are digits. -/
theorem isDigits_toDigits (n : Nat) : isDigits (Nat.toDigits 10 n) = true := by
  have hall : asciiDigits.all isDigit = true := by decide
  exact isDigits_iff.mpr
    ⟨Nat.toDigits_ne_nil, fun c hc => List.all_eq_true.mp hall c (mem_toDigits n c hc)⟩

/-! ## What digits are read as -/

/-- A decimal digit of any script is read as a plain one. -/
theorem plainDigit_mem {c : Char} (h : isDecimal c = true) : plainDigit c ∈ asciiDigits := by
  obtain ⟨d, hd⟩ := Option.isSome_iff_exists.mp h
  have hten := decimalValue?_lt hd
  rw [plainDigit, hd]
  dsimp only
  interval_cases d <;> decide

/-- A mark of a number is read as it stands. -/
theorem plainDigit_of_mark {c : Char} (h : digitMarks.has c = true) : plainDigit c = c := by
  rw [plainDigit, decimalValue?_of_mark h]

/-- What is read from a digit: an ASCII digit, or a digit mark. -/
def IsReadDigit (c : Char) : Prop := c ∈ asciiDigits ∨ digitMarks.has c = true

/-- A digit is read as a digit. -/
theorem isReadDigit_plainDigit {c : Char} (h : isDigit c = true) : IsReadDigit (plainDigit c) := by
  rcases Bool.or_eq_true_iff.mp h with hdecimal | hmark
  · exact .inl (plainDigit_mem hdecimal)
  · exact .inr ((plainDigit_of_mark hmark).symm ▸ hmark)

namespace IsReadDigit

variable {c : Char}

/-- None of the characters that mean something else in a number, or begin a name, is read from a
digit. -/
theorem not_mem (h : IsReadDigit c) : c ∉ ['_', '-', '+', '.', 'e', 'E', 'i', 'I', 'n', 'N'] := by
  rcases h with h | h
  · have hall : asciiDigits.all (fun c => c ∉ ['_', '-', '+', '.', 'e', 'E', 'i', 'I', 'n', 'N']) =
        true := by
      decide
    exact of_decide_eq_true (List.all_eq_true.mp hall c h)
  · have hall : ['_', '-', '+', '.', 'e', 'E', 'i', 'I', 'n', 'N'].all (·.toNat < 0xb2) =
        true := by decide
    have hlow := le_toNat_of_mark h
    exact fun hc => absurd (of_decide_eq_true (List.all_eq_true.mp hall c hc)) (Nat.not_lt.mpr hlow)

theorem toLower_ne (h : IsReadDigit c) : c.toLower ≠ 'i' ∧ c.toLower ≠ 'n' := by
  have hc := h.not_mem
  constructor
  · rw [Ne, toLower_eq_iff (by decide)]
    rintro (rfl | rfl) <;> exact hc (by decide)
  · rw [Ne, toLower_eq_iff (by decide)]
    rintro (rfl | rfl) <;> exact hc (by decide)

end IsReadDigit

/-! ## Reading -/

section

variable {s : List Char} (hs : ∀ c ∈ s, IsReadDigit c)
include hs

/-- A text that begins with a digit has no sign. -/
theorem spanSign_of_isReadDigit : spanSign s = (false, s) := by
  unfold spanSign
  split
  · exact absurd (hs _ List.mem_cons_self).not_mem (by decide)
  · exact absurd (hs _ List.mem_cons_self).not_mem (by decide)
  · rfl

/-- A text that begins with a digit is read as a number without sign. -/
theorem ofPlain?_of_isReadDigit (hne : s ≠ []) : Double.ofPlain? s = unsigned? false s := by
  obtain ⟨c, r, rfl⟩ := List.exists_cons_of_ne_nil hne
  obtain ⟨hi, hn⟩ := (hs c List.mem_cons_self).toLower_ne
  simp [Double.ofPlain?, spanSign_of_isReadDigit hs, hi, hn]

/-- A digit mark ends the digits, and nothing that may follow them begins with it. -/
theorem unsigned?_of_mark {c : Char} (hc : c ∈ s) (hmark : digitMarks.has c = true)
    (negative : Bool) :
    unsigned? negative s = none := by
  have hnotAscii : isAsciiDigit c = false := by
    have hall : asciiDigits.all (·.toNat < 0xb2) = true := by decide
    refine Bool.eq_false_iff.mpr fun hascii => ?_
    have hlow : c.toNat < 0xb2 :=
      of_decide_eq_true (List.all_eq_true.mp hall c (mem_asciiDigits hascii))
    exact absurd (le_toNat_of_mark hmark) (Nat.not_le.mpr hlow)
  obtain ⟨m, r, hrest⟩ : ∃ m r, s.dropWhile isAsciiDigit = m :: r := by
    refine List.exists_cons_of_ne_nil fun hnil => ?_
    rw [List.dropWhile_eq_nil_iff.mp hnil c hc] at hnotAscii
    cases hnotAscii
  have hm := (hs m ((List.dropWhile_sublist _).subset (hrest ▸ List.mem_cons_self))).not_mem
  obtain ⟨hpoint, he, hE⟩ : m ≠ '.' ∧ m ≠ 'e' ∧ m ≠ 'E' := by
    simp only [List.mem_cons, not_or] at hm
    tauto
  have hexponent : exponent? (m :: r) = none := by simp [exponent?, he, hE]
  simp [unsigned?, spanDigits, hrest, hpoint, hexponent]

end

/-- **A text of digits is a number just if there is no digit mark in it.** -/
theorem Double.isSome_ofText?_iff {s : List Char} (h : isDigits (trim s) = true) :
    (ofText? s).isSome = true ↔ ∀ c ∈ s, digitMarks.has c = false := by
  obtain ⟨hne, hdigit⟩ := isDigits_iff.mp h
  have hread : ∀ c ∈ (trim s).map plainDigit, IsReadDigit c := by
    intro c hc
    obtain ⟨d, hd, rfl⟩ := List.mem_map.mp hc
    exact isReadDigit_plainDigit (hdigit d hd)
  have hunderscore : '_' ∉ (trim s).map plainDigit := fun hc => (hread _ hc).not_mem (by decide)
  have hsome : (trim s).map plainDigit ≠ [] := by simpa using hne
  have hunsigned : ofText? s = unsigned? false ((trim s).map plainDigit) := by
    rw [ofText?, dropUnderscores_eq_self hunderscore]
    exact ofPlain?_of_isReadDigit hread hsome
  rw [hunsigned]
  constructor
  · intro hnumber c hc
    by_contra hmark
    rw [Bool.not_eq_false] at hmark
    have hmem : c ∈ (trim s).map plainDigit :=
      List.mem_map.mpr ⟨c, mem_trim hc (isBlank_of_mark hmark), plainDigit_of_mark hmark⟩
    rw [unsigned?_of_mark hread hmem hmark] at hnumber
    cases hnumber
  · intro hnone
    have hascii : ∀ c ∈ (trim s).map plainDigit, c ∈ asciiDigits := by
      intro c hc
      obtain ⟨d, hd, rfl⟩ := List.mem_map.mp hc
      have hdecimal := hdigit d hd
      rw [isDigit, hnone d (trim_subset s hd), Bool.or_false] at hdecimal
      exact plainDigit_mem hdecimal
    rw [unsigned?_digits hascii hsome]
    rfl

end FormRules
