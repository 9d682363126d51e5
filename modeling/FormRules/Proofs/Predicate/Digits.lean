import FormRules.Proofs.Number.Digits
import FormRules.Proofs.Predicate.Aborts
import FormRules.Proofs.Predicate.Ranges

/-!
# Digits and numbers

Two predicates ask for digits and one for a number, and what the two accept should be a number.
Nothing but texts and numbers consists of digits (`Value.cases_of_isDigits`), and what does so is a
number, but for the texts with a digit mark and the whole numbers that are too large for a double
(`Catalog.digits_are_numbers`). Some values of either kind are accepted
(`Superscript.digits_without_number`).
-/

namespace FormRules

open Text

namespace Value

/-- The value is a text with a digit mark in it. -/
def HasDigitMark (v : Value) : Prop := ∃ s, v = .text s ∧ ∃ c ∈ s.toList, digitMarks.has c = true

/-- The value is a whole number that is too large for a double. -/
def BeyondDoubles (v : Value) : Prop := ∃ i, v = .int i ∧ Double.overflow ≤ i.natAbs

/-- Characters that are no digits, one of which is in the text of any value other than a text or
number. -/
def frame : List Char := ['N', 'e', '[', '(', '\x7b', 's', '-', 'b']

/-- A text with a character of a frame is not made of digits. -/
theorem isDigits_trim_of_frame {s : List Char} {c : Char} (hc : c ∈ s) (hframe : c ∈ frame) :
    isDigits (trim s) = false := by
  have hall : frame.all (fun c => !isBlank c && !isDigit c) = true := by decide
  obtain ⟨hblank, hdigit⟩ : isBlank c = false ∧ isDigit c = false := by
    simpa using List.all_eq_true.mp hall c hframe
  refine Bool.eq_false_iff.mpr fun h => ?_
  rw [(isDigits_iff.mp h).2 c (mem_trim hc hblank)] at hdigit
  cases hdigit

/-- Values that are neither texts nor numbers are written in a frame. -/
theorem exists_frame {v : Value} {s : String} (h : v.plainText = .ok s) (htext : ∀ s, v ≠ .text s)
    (hint : ∀ i, v ≠ .int i) (hfloat : ∀ d, v ≠ .float d) : ∃ c ∈ s.toList, c ∈ frame := by
  cases v with
  | text s => exact absurd rfl (htext s)
  | int i => exact absurd rfl (hint i)
  | float d => exact absurd rfl (hfloat d)
  | null => cases h; exact ⟨'N', by decide, by decide⟩
  | bool b => cases h; exact ⟨'e', by cases b <;> decide, by decide⟩
  | list xs =>
    obtain ⟨t, -, ht⟩ := Run.eq_ok_of_bind h
    cases ht
    exact ⟨'[', by simp, by decide⟩
  | tuple xs =>
    obtain ⟨t, -, ht⟩ := Run.eq_ok_of_bind h
    refine ⟨'(', ?_, by decide⟩
    split at ht <;> cases ht <;> simp
  | map es =>
    obtain ⟨t, -, ht⟩ := Run.eq_ok_of_bind h
    cases ht
    exact ⟨'\x7b', by simp, by decide⟩
  | set xs =>
    obtain ⟨t, -, ht⟩ := Run.eq_ok_of_bind h
    split at ht
    · cases ht
      exact ⟨'s', by decide, by decide⟩
    · cases ht
      exact ⟨'\x7b', by simp, by decide⟩
  | date d =>
    obtain rfl : String.ofList d.iso = s := Except.ok.inj h
    exact ⟨'-', by simp [Date.iso], by decide⟩
  | moment m =>
    obtain rfl : String.ofList (m.iso ' ') = s := Except.ok.inj h
    exact ⟨'-', by simp [Moment.iso, Date.iso], by decide⟩
  | bytes bs =>
    obtain rfl : String.ofList (quotedBytes bs) = s := Except.ok.inj h
    exact ⟨'b', by simp [quotedBytes], by decide⟩

variable {v : Value} {text : List Char}

/-! ## Whole numbers -/

/-- The text of a whole number that is not negative consists of its digits. -/
theorem trimmedText_natCast {n : Nat} (hn : n < Nat.pow 10 maxDigits) :
    Predicate.trimmedText (.int n) = .ok (Nat.toDigits 10 n) := by
  have htext : intText n = .ok (toString (n : Int)) := by
    rw [intText, if_pos (by rwa [Int.natAbs_natCast])]
  have hdigits : (toString (n : Int)).toList = Nat.toDigits 10 n := by
    rw [toList_toString, if_neg (by omega), Int.natAbs_natCast]
  have hstrip : strip (toString (n : Int)) = toString (n : Int) :=
    strip_of_not_blank fun c hc => (plain_of_mem_asciiDigits c (mem_of_mem_toString hc)).1
  have hplain : (Value.int n).plainText = intText n := rfl
  rw [Predicate.trimmedText, hplain, htext]
  change Except.ok (trim (toString (n : Int)).toList) = _
  rw [← toList_strip, hstrip, hdigits]

/-! ## Values that consist of digits -/

theorem HasDigitMark.isEmpty (h : v.HasDigitMark) : v.isEmpty = false := by
  obtain ⟨s, rfl, c, hc, hmark⟩ := h
  exact List.all_eq_false.mpr ⟨c, hc, by simp [isBlank_of_mark hmark]⟩

theorem BeyondDoubles.isEmpty (h : v.BeyondDoubles) : v.isEmpty = false := by
  obtain ⟨i, rfl, -⟩ := h
  rfl

/-- Taking it for a number fails. -/
theorem BeyondDoubles.toNumber (h : v.BeyondDoubles) : v.toNumber = .error .beyondDoubles := by
  obtain ⟨i, rfl, hi⟩ := h
  rw [toNumber_int, Double.ofInt?_eq_none hi, Option.elim_none]

section

variable (htext : Predicate.trimmedText v = .ok text) (hdigits : isDigits text = true)
include htext hdigits

/-- Only the texts of texts and numbers consist of digits. -/
theorem cases_of_isDigits : (∃ s, v = .text s) ∨ (∃ i, v = .int i) ∨ ∃ d, v = .float d := by
  obtain ⟨s, hs, htrim⟩ := Run.eq_ok_of_bind htext
  obtain rfl : trim s.toList = text := Except.ok.inj htrim
  by_contra hnone
  simp only [not_or, not_exists] at hnone
  obtain ⟨c, hc, hframe⟩ := exists_frame hs hnone.1 hnone.2.1 hnone.2.2
  rw [isDigits_trim_of_frame hc hframe] at hdigits
  cases hdigits

/-- Digits of which one is no decimal are no number. -/
theorem toNumber_of_hasDigitMark (h : v.HasDigitMark) : v.toNumber = .ok none := by
  obtain ⟨s, rfl, c, hc, hmark⟩ := h
  obtain rfl : trim s.toList = text := Except.ok.inj htext
  have hnone : ¬(Double.ofText? s.toList).isSome = true := by
    rw [Double.isSome_ofText?_iff hdigits]
    intro hall
    rw [hall c hc] at hmark
    cases hmark
  exact congrArg Except.ok (Option.not_isSome_iff_eq_none.mp hnone)

/-- Digits that are decimals are a number. -/
theorem toNumber_of_isDigits (hmark : ¬v.HasDigitMark) (hbeyond : ¬v.BeyondDoubles) :
    ∃ d, v.toNumber = .ok (some d) := by
  rcases cases_of_isDigits htext hdigits with ⟨s, rfl⟩ | ⟨i, rfl⟩ | ⟨d, rfl⟩
  · obtain rfl : trim s.toList = text := Except.ok.inj htext
    have hnone : ∀ c ∈ s.toList, digitMarks.has c = false :=
      fun c hc => Bool.eq_false_iff.mpr fun hc' => hmark ⟨s, rfl, c, hc, hc'⟩
    obtain ⟨d, hd⟩ := Option.isSome_iff_exists.mp ((Double.isSome_ofText?_iff hdigits).mpr hnone)
    exact ⟨d, congrArg Except.ok hd⟩
  · have hi : i.natAbs < Double.overflow := Nat.not_le.mp fun hi => hbeyond ⟨i, rfl, hi⟩
    exact ⟨Double.ofInt i, by rw [toNumber_int, Double.ofInt?_eq_some hi, Option.elim_some]⟩
  · exact ⟨d, rfl⟩

end

end Value

namespace Predicate

variable {answer : (q : Request) → Attempt q.Reply} {value : Value} {parameters : List Value}

section

variable (hvalue : value.isEmpty = false)
include hvalue

/-- Whatever has an exact length is made of digits. -/
theorem digits_of_digitsLength (h : ((digitsLength value parameters).outcome answer).1 = .ok true) :
    ∃ text, trimmedText value = .ok text ∧ isDigits text = true := by
  rcases hlimit : upToOne parameters with fault | limit
  · simp [digitsLength, hlimit] at h
  · rw [outcome_digitsLength hvalue hlimit] at h
    obtain ⟨expected, -, h⟩ := Run.eq_ok_of_bind h
    obtain ⟨text, htext, h⟩ := Run.eq_ok_of_bind h
    refine ⟨text, htext, ?_⟩
    rcases expected with _ | d
    · cases h
    · by_contra hdigits
      simp [hdigits, pure, Except.pure] at h

/-- So is whatever has a length in a range. -/
theorem digits_of_digitsLengthBetween
    (h : ((digitsLengthBetween value parameters).outcome answer).1 = .ok true) :
    ∃ text, trimmedText value = .ok text ∧ isDigits text = true := by
  rw [outcome_digitsLengthBetween hvalue] at h
  obtain ⟨range, -, h⟩ := Run.eq_ok_of_bind h
  rcases range with _ | range
  · cases h
  · obtain ⟨text, htext, h⟩ := Run.eq_ok_of_bind h
    have hboth : (isDigits text && inRange range text.length) = true := Except.ok.inj h
    exact ⟨text, htext, (Bool.and_eq_true_iff.mp hboth).1⟩

end

end Predicate

namespace Catalog

variable (answer : (q : Request) → Attempt q.Reply) (context : Option Context) {name : String}
  {value : Value} {parameters : List Value}

/-- **What passes as digits is a number**, but for two kinds of values. A text with a digit mark in
it is none, and a whole number that is too large for a double cannot be asked. -/
theorem digits_are_numbers (hname : name ∈ ["digitsLength", "digitsLengthBetween"])
    (haccepts : verdict answer context name value parameters = .ok true) :
    (¬value.HasDigitMark → ¬value.BeyondDoubles →
      verdict answer context "number" value [] = .ok true) ∧
    (value.HasDigitMark → verdict answer context "number" value [] = .ok false) ∧
    (value.BeyondDoubles → verdict answer context "number" value [] = .error .beyondDoubles) := by
  have hnumber : verdict answer context "number" value [] = _ :=
    verdict_plain answer context rfl value []
  rw [hnumber]
  cases hvalue : value.isEmpty with
  | true =>
    rw [Predicate.number_of_isEmpty hvalue]
    exact ⟨fun _ _ => rfl, fun h => absurd hvalue (by simp [h.isEmpty]),
      fun h => absurd hvalue (by simp [h.isEmpty])⟩
  | false =>
    obtain ⟨text, htext, hdigits⟩ :
        ∃ text, Predicate.trimmedText value = .ok text ∧ isDigits text = true := by
      rcases List.mem_pair.mp hname with rfl | rfl <;>
        rw [verdict_plain answer context rfl] at haccepts
      · exact Predicate.digits_of_digitsLength hvalue haccepts
      · exact Predicate.digits_of_digitsLengthBetween hvalue haccepts
    rw [Predicate.outcome_number hvalue]
    refine ⟨fun hmark hbeyond => ?_, fun h => ?_, fun h => ?_⟩
    · obtain ⟨d, hd⟩ := Value.toNumber_of_isDigits htext hdigits hmark hbeyond
      rw [hd]
      rfl
    · rw [Value.toNumber_of_hasDigitMark htext hdigits h]
      rfl
    · rw [h.toNumber]
      rfl

end Catalog

namespace Superscript

/-- Three in one script and four in another are two digits, and a number. -/
theorem mixed_scripts_number :
    Catalog.verdict (fun _ => .error .noContext) none "digitsLength" (.text " ٣4 ") [.text "2"] =
      .ok true ∧
    Catalog.verdict (fun _ => .error .noContext) none "number" (.text " ٣4 ") [] = .ok true := by
  have haccepts : Catalog.verdict (fun _ => .error .noContext) none "digitsLength" (.text " ٣4 ")
      [.text "2"] = .ok true := by decide +kernel
  refine ⟨haccepts, (Catalog.digits_are_numbers _ _ (by decide) haccepts).1 ?_ ?_⟩
  · rintro ⟨s, hs, c, hc, hmark⟩
    cases hs
    have hnone : " ٣4 ".toList.any digitMarks.has = false := by decide
    exact List.any_eq_false.mp hnone c hc hmark
  · rintro ⟨i, hi, -⟩
    cases hi

/-- A superscript two is one digit long and no number, and the least whole number beyond the doubles
is 309 digits long and cannot be asked. -/
theorem digits_without_number :
    (¬∀ value parameters,
      Catalog.verdict (fun _ => .error .noContext) none "digitsLength" value parameters = .ok true →
        Catalog.verdict (fun _ => .error .noContext) none "number" value [] = .ok true) ∧
    Catalog.verdict (fun _ => .error .noContext) none "digitsLength" (.int Double.overflow)
      [.text "309"] = .ok true ∧
    Catalog.verdict (fun _ => .error .noContext) none "number" (.int Double.overflow) [] =
      .error .beyondDoubles := by
  refine ⟨fun h => ?_, ?_, ?_⟩
  · have hnumber := h (.text "²") [.text "1"] (by decide +kernel)
    have hno : Catalog.verdict (fun _ => .error .noContext) none "number" (.text "²") [] =
        .ok false := by
      decide
    rw [hno] at hnumber
    cases hnumber
  · have hlength : (Nat.toDigits 10 Double.overflow).length = 309 := by decide +kernel
    have hlimit : (Value.text "309").toNumber = .ok (some (.exactly 309)) := by decide +kernel
    have hwhole : (Double.exactly 309).wholePart = .ok 309 := by decide +kernel
    rw [Catalog.verdict_plain _ _ rfl, Predicate.outcome_digitsLength rfl rfl, hlimit,
      Value.trimmedText_natCast (by decide +kernel)]
    simp [isDigits_toDigits, hlength, hwhole, bind, Except.bind, pure, Except.pure]
  · rw [Catalog.verdict_plain _ _ rfl, Predicate.outcome_number rfl,
      Value.BeyondDoubles.toNumber ⟨_, rfl, by decide +kernel⟩]
    rfl

end Superscript

end FormRules
