import FormRules.Number.Reader
import FormRules.Proofs.Number.Nearest
import FormRules.Proofs.Text.Trim
import Mathlib.Tactic.IntervalCases

/-!
# Reading whole numbers

The decimal text of a whole number, read as a number, gives the nearest double
(`Double.ofText?_toString`). Nothing is in the way: the text has no white space and no underscore,
it spells no infinity, and its digits are read without rounding until the end.
-/

namespace FormRules

open Text

/-- The ASCII digits. -/
def asciiDigits : List Char := ['0', '1', '2', '3', '4', '5', '6', '7', '8', '9']

theorem mem_asciiDigits {c : Char} (h : c.isDigit = true) : c ∈ asciiDigits := by
  rw [Char.isDigit_iff_toNat] at h
  obtain ⟨hlow, hhigh⟩ : 48 ≤ c.toNat ∧ c.toNat ≤ 57 := h
  rw [← Char.ofNat_toNat c]
  generalize c.toNat = n at hlow hhigh
  interval_cases n <;> decide

/-- The characters of a decimal text are read as they are. -/
theorem plain_of_mem_asciiDigits : ∀ c ∈ '-' :: asciiDigits,
    isBlank c = false ∧ plainDigit c = c ∧ c ≠ '_' := by
  have hall : ('-' :: asciiDigits).all (fun c => !isBlank c && plainDigit c == c && c != '_') =
      true := by
    decide
  intro c hc
  simpa [and_assoc] using List.all_eq_true.mp hall c hc

/-- A text without underscores stays as it is. -/
theorem dropUnderscores_eq_self {s : List Char} (h : '_' ∉ s) (digit : Bool) :
    dropUnderscores digit s = some s := by
  induction s generalizing digit with
  | nil => rfl
  | cons c s ih =>
    obtain ⟨hc, hs⟩ : '_' ≠ c ∧ '_' ∉ s := by simpa using h
    rw [dropUnderscores, if_neg (Ne.symm hc), ih hs]
    · rfl
    · intro _ _ h
      exact absurd h.symm hc

/-- Digits have no sign in front. -/
theorem spanSign_of_mem {s : List Char} (h : ∀ c ∈ s, c ∈ asciiDigits) :
    spanSign s = (false, s) := by
  unfold spanSign
  split
  · exact absurd (h _ List.mem_cons_self) (by decide)
  · exact absurd (h _ List.mem_cons_self) (by decide)
  · rfl

/-- Digits are read to their end. -/
theorem spanDigits_of_mem {s : List Char} (h : ∀ c ∈ s, c ∈ asciiDigits) :
    spanDigits s = (s.map fun c => c.toNat - 48, []) := by
  have hdigits : asciiDigits.all isAsciiDigit = true := by decide
  have hs : ∀ c ∈ s, isAsciiDigit c = true := fun c hc => List.all_eq_true.mp hdigits c (h c hc)
  rw [spanDigits, List.takeWhile_eq_self_iff.mpr hs, List.dropWhile_eq_nil_iff.mpr hs]

/-- The digits of a number are worth the number. -/
theorem valueOf_toDigits (n : Nat) :
    valueOf 10 ((Nat.toDigits 10 n).map fun c => c.toNat - 48) = n := by
  have hread := Nat.ofDigitChars_ten_toDigits (n := n)
  simp only [Nat.ofDigitChars_eq_foldl, Nat.mul_comm 10] at hread
  rw [valueOf, List.foldl_map]
  exact hread

theorem Double.ofDecimal_zero_exponent {n : Nat} (hn : n ≠ 0) (negative : Bool) (width : Nat) :
    ofDecimal negative n width 0 = nearest negative n 1 := by
  rw [ofDecimal, if_neg hn, if_neg (by decide), if_neg (by omega)]
  change nearest negative (n * 1) 1 = _
  rw [Nat.mul_one]

section

variable {digits : List Char} (hdigits : ∀ c ∈ digits, c ∈ asciiDigits) (hne : digits ≠ [])
include hdigits hne

/-- Digits are read as the double that is nearest to what they are worth. -/
theorem unsigned?_digits (negative : Bool) :
    unsigned? negative digits = some (Double.ofDecimal negative
    (valueOf 10 (digits.map fun c => c.toNat - 48)) digits.length 0) := by
  simp [unsigned?, spanDigits_of_mem hdigits, hne, exponent?]

/-- What begins with a digit is the name of no infinity, and is not `nan`. -/
theorem ofPlain?_digits : Double.ofPlain? digits = unsigned? false digits ∧
    Double.ofPlain? ('-' :: digits) = unsigned? true digits := by
  obtain ⟨c, s, rfl⟩ := List.exists_cons_of_ne_nil hne
  have hfirst : asciiDigits.all (fun c => c.toLower != 'i' && c.toLower != 'n') = true := by decide
  obtain ⟨hi, hn⟩ : c.toLower ≠ 'i' ∧ c.toLower ≠ 'n' := by
    simpa using List.all_eq_true.mp hfirst c (hdigits c List.mem_cons_self)
  constructor
  · simp [Double.ofPlain?, spanSign_of_mem hdigits, hi, hn]
  · simp [Double.ofPlain?, spanSign, hi, hn]

end

/-- The text of a whole number: its digits, behind a minus sign if it is negative. -/
theorem toList_toString (i : Int) : (toString i).toList =
    if i < 0 then '-' :: Nat.toDigits 10 i.natAbs else Nat.toDigits 10 i.natAbs := by
  rw [Int.toString_eq_repr, Int.repr_eq_if]
  rcases lt_or_ge i 0 with hi | hi
  · rw [if_neg (Int.not_le.mpr hi), if_pos hi, String.toList_append, Nat.toList_repr]
    have habs : (-i).toNat = i.natAbs := by omega
    rw [habs]
    rfl
  · rw [if_pos hi, if_neg (Int.not_lt.mpr hi), Nat.toList_repr]
    have habs : i.toNat = i.natAbs := by omega
    rw [habs]

theorem mem_toDigits (n : Nat) : ∀ c ∈ Nat.toDigits 10 n, c ∈ asciiDigits :=
  fun _ hc => mem_asciiDigits (Nat.isDigit_of_mem_toDigits (by decide) (by decide) hc)

/-- An integer is written with digits and perhaps a dash. -/
theorem mem_of_mem_toString {i : Int} {c : Char} (hc : c ∈ (toString i).toList) :
    c ∈ '-' :: asciiDigits := by
  rw [toList_toString] at hc
  split at hc
  · exact List.mem_cons.mpr ((List.mem_cons.mp hc).imp_right (mem_toDigits i.natAbs c))
  · exact List.mem_cons_of_mem _ (mem_toDigits i.natAbs c hc)

/-- An integer that is written is not blank. -/
theorem isBlankText_toString (i : Int) : isBlankText (toString i).toList = false := by
  have hne : (toString i).toList ≠ [] := by
    rw [toList_toString]
    split
    · exact List.cons_ne_nil _ _
    · exact Nat.toDigits_ne_nil
  obtain ⟨c, hc⟩ := List.exists_mem_of_ne_nil _ hne
  have hblank := (plain_of_mem_asciiDigits c (mem_of_mem_toString hc)).1
  exact List.all_eq_false.mpr ⟨c, hc, by simp [hblank]⟩

namespace Double

/-- A text is read as it is if all its characters are. -/
theorem ofText?_of_plain {s : String}
    (h : ∀ c ∈ s.toList, isBlank c = false ∧ plainDigit c = c ∧ c ≠ '_') :
    ofText? s.toList = ofPlain? s.toList := by
  have htrim : trim s.toList = s.toList := by
    rw [← toList_strip, strip_of_not_blank fun c hc => (h c hc).1]
  have hmap : s.toList.map plainDigit = s.toList := by
    rw [List.map_congr_left fun c hc => (h c hc).2.1, List.map_id']
  rw [ofText?, htrim, hmap, dropUnderscores_eq_self fun hc => (h _ hc).2.2 rfl]
  rfl

/-- A text of digits, perhaps behind a minus sign, is read as it is. -/
theorem ofText?_of_mem {s : String} (h : ∀ c ∈ s.toList, c ∈ '-' :: asciiDigits) :
    ofText? s.toList = ofPlain? s.toList :=
  ofText?_of_plain fun c hc => plain_of_mem_asciiDigits c (h c hc)

/-- The digits of an integer are read as its double. -/
theorem ofDecimal_natAbs (i : Int) (width : Nat) :
    ofDecimal (i < 0) i.natAbs width 0 = ofInt i := by
  rcases eq_or_ne i 0 with rfl | hi
  · rw [ofInt_eq_exactly (by decide), exactly, Int.natAbs_zero, Nat.zero_mul]
    rfl
  · rw [ofDecimal_zero_exponent (Int.natAbs_ne_zero.mpr hi), ofInt]

/-- **The text of a whole number is read as the nearest double.** -/
theorem ofText?_toString (i : Int) : ofText? (toString i).toList = some (ofInt i) := by
  have hdigits := mem_toDigits i.natAbs
  have hne : Nat.toDigits 10 i.natAbs ≠ [] := Nat.toDigits_ne_nil
  have hunsigned (negative : Bool) := unsigned?_digits hdigits hne negative
  simp only [valueOf_toDigits] at hunsigned
  rw [ofText?_of_mem fun c => mem_of_mem_toString, toList_toString, ← ofDecimal_natAbs i]
  split
  · next hi => rw [(ofPlain?_digits hdigits hne).2, hunsigned, decide_eq_true hi]
  · next hi => rw [(ofPlain?_digits hdigits hne).1, hunsigned, decide_eq_false hi]

end Double

end FormRules
