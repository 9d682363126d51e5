import FormRules.Proofs.Number.Nearest
import FormRules.Proofs.Predicate.Aborts
import FormRules.Proofs.Predicate.Ranges

/-!
# Exact lengths and ranges

An exact count of digits should be the range from that count to itself. But the two predicates do
not read the count in the same way. The one takes the whole part of it, after it has asked the value
for its text, while the other compares the count as it is, and asks for the text only if there is a
count. These are all the differences (`Catalog.exact_length_iff_range`): where the two do not come
to the same, the range is not met (`Predicate.OffRange`).
-/

namespace FormRules

open Predicate

namespace Double

/-- A double that equals a whole number has that whole part. -/
theorem wholePart_of_equal {d : Double} {n : Nat} (h : d.equal (.exactly n) = true) :
    d.wholePart = .ok (n : Int) := by
  obtain ⟨hle, hge⟩ := Bool.and_eq_true_iff.mp h
  cases d with
  | nan => simp at hle
  | infinite negative =>
    cases negative with
    | true => cases hge
    | false => cases hle
  | finite negative steps =>
    rw [exactly, finite_le_finite, signed_mul_one, decide_eq_true_iff] at hle hge
    have hsteps : signed negative steps = n * one := Int.le_antisymm hle hge
    have hwhole : signed negative (steps / one) = n := by
      have hone := one_pos
      generalize one = k at hsteps hone ⊢
      cases negative with
      | false =>
        change (steps : Int) = n * k at hsteps
        obtain rfl : steps = n * k := by exact_mod_cast hsteps
        exact congrArg Nat.cast (Nat.mul_div_cancel n hone)
      | true =>
        -- only a negative zero is not below the number
        change -(steps : Int) = n * k at hsteps
        have hneg : -(steps : Int) = (n * k : Nat) := by exact_mod_cast hsteps
        obtain ⟨rfl, hn⟩ : steps = 0 ∧ n * k = 0 := by omega
        obtain rfl : n = 0 := (Nat.mul_eq_zero.mp hn).resolve_right hone.ne'
        simp [signed]
    exact congrArg Except.ok hwhole

end Double

namespace Predicate

variable {answer : (q : Request) → Attempt q.Reply} {value limit : Value}

/-- What an exact length comes to where it is not the same as the range. -/
inductive OffRange (value limit : Value) : Attempt Bool → Prop
  /-- the count is malformed, and the value has no text -/
  | unreadable {fault : Fault} (hlimit : limit.toNumber = .ok none)
      (htext : trimmedText value = .error fault) : OffRange value limit (.error fault)
  /-- the count has no whole part -/
  | noWholePart {d : Double} (hlimit : limit.toNumber = .ok (some d)) {text : List Char}
      (htext : trimmedText value = .ok text) (hdigits : Text.isDigits text = true) {fault : Fault}
      (hpart : d.wholePart = .error fault) : OffRange value limit (.error fault)
  /-- the count is not whole, and there are as many digits as its whole part -/
  | fraction {d : Double} (hlimit : limit.toNumber = .ok (some d)) {text : List Char}
      (htext : trimmedText value = .ok text) (hdigits : Text.isDigits text = true)
      (hpart : d.wholePart = .ok (text.length : Int))
      (hnot : d.equal (.exactly text.length) = false) :
      OffRange value limit (.ok true)

/-- Values off the range are not empty. -/
theorem OffRange.isEmpty {r : Attempt Bool} (h : OffRange value limit r) :
    value.isEmpty = false := by
  refine Bool.eq_false_iff.mpr fun hempty => ?_
  obtain ⟨text, htext, hdigits⟩ := Value.trimmedText_of_isEmpty hempty
  cases h with
  | unreadable _ h => rw [htext] at h; cases h
  | noWholePart _ h hdigits' | fraction _ h hdigits' =>
    rw [htext] at h
    cases h
    rw [hdigits] at hdigits'
    cases hdigits'

section

variable (hvalue : value.isEmpty = false)
include hvalue

theorem digitsLength_malformed (hlimit : limit.toNumber = .ok none) :
    ((digitsLength value [limit]).outcome answer).1 = (trimmedText value).map fun _ => false := by
  rw [outcome_digitsLength hvalue rfl, hlimit]
  cases trimmedText value <;> rfl

theorem digitsLengthBetween_malformed (hlimit : limit.toNumber = .ok none) :
    ((digitsLengthBetween value [limit, limit]).outcome answer).1 = .ok false := by
  rw [outcome_digitsLengthBetween hvalue, rangeOf_pair, hlimit]
  rfl

variable {d : Double} (hlimit : limit.toNumber = .ok (some d)) {text : List Char}
  (htext : trimmedText value = .ok text)
include hlimit htext

/-- Digits have the exact length that the whole part of the limit tells. -/
theorem digitsLength_number : ((digitsLength value [limit]).outcome answer).1 =
    if Text.isDigits text then d.wholePart.map fun n =>
      (text.length : Int) == n else .ok false := by
  rw [outcome_digitsLength hvalue rfl, hlimit, htext]
  dsimp only [bind, Except.bind]
  cases d.wholePart <;> rfl

/-- Digits are in the range of one length if that is the limit. -/
theorem digitsLengthBetween_number :
    ((digitsLengthBetween value [limit, limit]).outcome answer).1 =
      .ok (Text.isDigits text && d.equal (.exactly text.length)) := by
  rw [outcome_digitsLengthBetween hvalue, rangeOf_pair, hlimit, htext]
  rfl

end

/-- Off the range the two come to different results. -/
theorem outcome_offRange (answer : (q : Request) → Attempt q.Reply) {r : Attempt Bool}
    (h : OffRange value limit r) :
    ((digitsLength value [limit]).outcome answer).1 = r ∧
    ((digitsLengthBetween value [limit, limit]).outcome answer).1 = .ok false ∧ r ≠ .ok false := by
  have hvalue := h.isEmpty
  cases h with
  | unreadable hlimit htext =>
    rw [digitsLength_malformed hvalue hlimit, digitsLengthBetween_malformed hvalue hlimit, htext]
    exact ⟨rfl, rfl, by simp⟩
  | @noWholePart d hlimit text htext hdigits fault hpart =>
    have hnot : d.equal (.exactly text.length) = false := by
      refine Bool.eq_false_iff.mpr fun hequal => ?_
      rw [Double.wholePart_of_equal hequal] at hpart
      cases hpart
    rw [digitsLength_number hvalue hlimit htext, digitsLengthBetween_number hvalue hlimit htext,
      if_pos hdigits, hpart, hnot, Bool.and_false]
    exact ⟨rfl, rfl, by simp⟩
  | fraction hlimit htext hdigits hpart hnot =>
    rw [digitsLength_number hvalue hlimit htext, digitsLengthBetween_number hvalue hlimit htext,
      if_pos hdigits, hpart, hnot, Bool.and_false]
    exact ⟨by simp [Except.map], rfl, by simp⟩

/-- Where there is no such cause, the exact length comes to the same as the range. -/
theorem outcome_eq_or_offRange (answer : (q : Request) → Attempt q.Reply) (value limit : Value) :
    ((digitsLength value [limit]).outcome answer).1 =
      ((digitsLengthBetween value [limit, limit]).outcome answer).1 ∨ ∃ r,
        OffRange value limit r := by
  cases hvalue : value.isEmpty with
  | true =>
    exact .inl (by rw [digitsLength_of_isEmpty hvalue rfl, digitsLengthBetween_of_isEmpty hvalue])
  | false =>
    rcases hlimit : limit.toNumber with fault | _ | d
    · refine .inl ?_
      rw [outcome_digitsLength hvalue rfl, outcome_digitsLengthBetween hvalue, rangeOf_pair, hlimit]
      rfl
    · rcases htext : trimmedText value with fault | text
      · exact .inr ⟨_, .unreadable hlimit htext⟩
      · rw [digitsLength_malformed hvalue hlimit, digitsLengthBetween_malformed hvalue hlimit,
          htext]
        exact .inl rfl
    · rcases htext : trimmedText value with fault | text
      · refine .inl ?_
        rw [outcome_digitsLength hvalue rfl, outcome_digitsLengthBetween hvalue, rangeOf_pair,
          hlimit, htext]
        rfl
      · rw [digitsLength_number hvalue hlimit htext, digitsLengthBetween_number hvalue hlimit htext]
        cases hdigits : Text.isDigits text with
        | false => exact .inl rfl
        | true =>
          rw [if_pos rfl, Bool.true_and]
          cases hequal : d.equal (.exactly text.length) with
          | true =>
            rw [Double.wholePart_of_equal hequal]
            exact .inl (by simp [Except.map])
          | false =>
            rcases hpart : d.wholePart with fault | n
            · exact .inr ⟨_, .noWholePart hlimit htext hdigits hpart⟩
            · by_cases hn : (text.length : Int) = n
              · subst hn
                exact .inr ⟨_, .fraction hlimit htext hdigits hpart hequal⟩
              · exact .inl (by simp [Except.map, hn])

end Predicate

namespace Catalog

variable (answer : (q : Request) → Attempt q.Reply) (context : Option Context) (value limit : Value)

/-- **An exact length is the range from it to itself**, but for the causes that are named. Where
there is one, the range is not met, and the exact length comes to something else. -/
theorem exact_length_iff_range :
    (verdict answer context "digitsLength" value [limit] =
        verdict answer context "digitsLengthBetween" value [limit, limit] ↔
      ¬∃ r, OffRange value limit r) ∧
    ∀ r, OffRange value limit r → verdict answer context "digitsLength" value [limit] = r ∧
      verdict answer context "digitsLengthBetween" value [limit, limit] = .ok false ∧
        r ≠ .ok false := by
  have hexact : verdict answer context "digitsLength" value [limit] = _ :=
    verdict_plain answer context rfl value [limit]
  have hrange : verdict answer context "digitsLengthBetween" value [limit, limit] = _ :=
    verdict_plain answer context rfl value [limit, limit]
  rw [hexact, hrange]
  refine ⟨⟨?_, (outcome_eq_or_offRange answer value limit).resolve_right⟩,
    fun r => outcome_offRange answer⟩
  rintro hsame ⟨r, h⟩
  obtain ⟨hr, hfalse, hne⟩ := outcome_offRange answer h
  exact hne (hr.symm.trans (hsame.trans hfalse))

end Catalog

namespace PartOfADigit

/-- Three digits are as many as the whole part of 3.7, which is no length of a text. And no length
is infinite, but with infinity the digits are not counted. -/
theorem fraction_and_infinity :
    (Catalog.verdict (fun _ => .error .noContext) none "digitsLength" (.text "123") [.text "3.7"] =
        .ok true ∧
      Catalog.verdict (fun _ => .error .noContext) none "digitsLengthBetween" (.text "123")
        [.text "3.7", .text "3.7"] = .ok false) ∧
    Catalog.verdict (fun _ => .error .noContext) none "digitsLength" (.text "5") [.text "inf"] =
        .error .infiniteWholePart ∧
      Catalog.verdict (fun _ => .error .noContext) none "digitsLengthBetween" (.text "5")
        [.text "inf", .text "inf"] = .ok false := by
  obtain ⟨d, hd, hpart, hnot⟩ : ∃ d, (Value.text "3.7").toNumber = .ok (some d) ∧
      d.wholePart = .ok 3 ∧ d.equal (.exactly 3) = false :=
    ⟨_, rfl, by decide +kernel, by decide +kernel⟩
  obtain ⟨hmore, hless, -⟩ := (Catalog.exact_length_iff_range (fun _ => .error .noContext) none
    (.text "123") (.text "3.7")).2 _ (.fraction hd rfl (by decide) hpart hnot)
  have hinf : (Value.text "inf").toNumber = .ok (some (.infinite false)) := by decide
  obtain ⟨haborts, hfalse, -⟩ := (Catalog.exact_length_iff_range (fun _ => .error .noContext) none
    (.text "5") (.text "inf")).2 _ (.noWholePart hinf rfl (by decide) rfl)
  exact ⟨⟨hmore, hless⟩, haborts, hfalse⟩

/-- So an exact length is not always a range. -/
theorem exact_is_no_range :
    ¬∀ value limit,
      Catalog.verdict (fun _ => .error .noContext) none "digitsLength" value [limit] =
        Catalog.verdict (fun _ => .error .noContext) none "digitsLengthBetween" value
          [limit, limit] := by
  intro h
  have hexact : Catalog.verdict (fun _ => .error .noContext) none "digitsLength" (.text "123")
      [.text "3.7"] = .ok true := by decide +kernel
  have hrange : Catalog.verdict (fun _ => .error .noContext) none "digitsLengthBetween"
      (.text "123")
      [.text "3.7", .text "3.7"] = .ok false := by decide +kernel
  cases hexact.symm.trans ((h _ _).trans hrange)

end PartOfADigit

end FormRules
