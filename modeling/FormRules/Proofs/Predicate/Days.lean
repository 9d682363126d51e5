import FormRules.Proofs.Calendar.Iso
import FormRules.Proofs.Predicate.Limits

/-!
# Days of values and limits

`dateBefore` and `dateAfter` compare days. A day can be given as such, as a moment at any time of
the day, or by the ISO text of either, with white space around it (`Value.OnDay`). In which of these
ways the value and the limit are given makes no difference: the predicates go by the order of the
days and report nothing. A value that is not empty and gives no day fails both, whatever the limit
is (`Catalog.dates_by_day`).
-/

namespace FormRules

open Text Predicate

/-! ## Texts of days and moments -/

theorem not_blank_of_mem_padded {width n : Nat} {c : Char} (hc : c ∈ Double.padded width n) :
    isBlank c = false :=
  (plain_of_mem_asciiDigits c (List.mem_cons_of_mem _ (Double.mem_padded hc))).1

/-- A day is written without white space. -/
theorem Date.not_blank_of_mem_iso {d : Date} {c : Char} (hc : c ∈ d.iso) : isBlank c = false := by
  simp only [iso, List.mem_append, List.mem_cons] at hc
  rcases hc with (hc | rfl | hc) | rfl | hc
  · exact not_blank_of_mem_padded hc
  · decide
  · exact not_blank_of_mem_padded hc
  · decide
  · exact not_blank_of_mem_padded hc

/-- So is a time. -/
theorem Clock.not_blank_of_mem_iso {t : Clock} {c : Char} (hc : c ∈ t.iso) : isBlank c = false := by
  simp only [iso, List.mem_append, List.mem_cons] at hc
  rcases hc with ((hc | rfl | hc) | rfl | hc) | hc
  · exact not_blank_of_mem_padded hc
  · decide
  · exact not_blank_of_mem_padded hc
  · decide
  · exact not_blank_of_mem_padded hc
  · split_ifs at hc
    · cases hc
    · rcases List.mem_cons.mp hc with rfl | hc
      · decide
      · exact not_blank_of_mem_padded hc

/-- The text of a moment begins with its day and ends with its time. -/
theorem Moment.not_blank_of_end {separator : Char} {d : Date} {t : Clock} {c : Char}
    (hc : (iso separator ⟨d, t, none⟩).head? = some c ∨ (iso separator ⟨d, t, none⟩).getLast? =
      some c) :
    isBlank c = false := by
  have hday : d.iso ≠ [] := by simp [Date.iso]
  have htime : t.iso ≠ [] := by simp [Clock.iso]
  simp only [iso, List.append_nil] at hc
  rcases hc with hfirst | hlast
  · rw [List.head?_append_of_ne_nil _ hday] at hfirst
    exact Date.not_blank_of_mem_iso (List.mem_of_head? hfirst)
  · rw [List.append_cons, List.getLast?_append_of_ne_nil _ htime] at hlast
    exact Clock.not_blank_of_mem_iso (List.mem_of_getLast? hlast)

/-! ## Ways to give a day -/

/-- The value gives the day: it is the day or a moment of the day, or a text of either with white
space around it. -/
inductive Value.OnDay (d : Date) : Value → Prop
  /-- the day itself -/
  | date : OnDay d (.date d)
  /-- a moment of the day, however far ahead of universal time it is -/
  | moment (t : Clock) (ahead : Option Int) : OnDay d (.moment ⟨d, t, ahead⟩)
  /-- the text of the day -/
  | dateText {before after : String} (hbefore : isBlankText before.toList = true)
      (hafter : isBlankText after.toList = true) :
      OnDay d (.text (before ++ String.ofList d.iso ++ after))
  /-- the text of a moment of the day, with any character between the day and the time -/
  | momentText {before after : String} (hbefore : isBlankText before.toList = true)
      (hafter : isBlankText after.toList = true) (separator : Char) {t : Clock} (ht : t.Valid) :
      OnDay d (.text (before ++ String.ofList (Moment.iso separator ⟨d, t, none⟩) ++ after))

/-- The value is a date in one of the forms that are accepted: a day, a moment, or a text that one
of the two readers of dates takes. -/
inductive Value.IsDate : Value → Prop
  | date (d : Date) : IsDate (.date d)
  | moment (m : Moment) : IsDate (.moment m)
  | dateText {s : String} {d : Date} (h : Iso.date? (utf8 (trim s.toList)) = some d) :
    IsDate (.text s)
  | momentText {s : String} {m : Moment} (h : Iso.moment? (utf8 (trim s.toList)) = some m) :
      IsDate (.text s)

namespace Value

/-- A value is a date if a day is read from it. -/
theorem isDate_iff (v : Value) : v.IsDate ↔ v.toDay ≠ none := by
  constructor
  · intro h
    cases h with
    | date d => simp [toDay]
    | moment m => simp [toDay]
    | dateText h => simp [toDay, Iso.dayOf?, h]
    | @momentText s m h =>
      cases hdate : Iso.date? (utf8 (trim s.toList)) <;> simp [toDay, Iso.dayOf?, hdate, h]
  · intro h
    cases v with
    | date d => exact .date d
    | moment m => exact .moment m
    | text s =>
      cases hdate : Iso.date? (utf8 (trim s.toList)) with
      | some d => exact .dateText hdate
      | none =>
        cases hmoment : Iso.moment? (utf8 (trim s.toList)) with
        | some m => exact .momentText hmoment
        | none => exact absurd (by simp [toDay, Iso.dayOf?, hdate, hmoment]) h
    | _ => exact absurd rfl h

/-- An empty value gives no day. -/
theorem toDay_of_isEmpty {v : Value} (h : v.isEmpty = true) : v.toDay = none := by
  cases v with
  | text s =>
    have hblank : trim s.toList = [] := trim_eq_nil_iff.mpr h
    rw [toDay, hblank]
    rfl
  | date d | moment m => cases h
  | _ => rfl

namespace OnDay

variable {d : Date} {v : Value}

/-- In all these ways the day is read back. -/
theorem toDay (h : v.OnDay d) (hd : d.Valid) : v.toDay = some d := by
  cases h with
  | date => rfl
  | moment t ahead => rfl
  | @dateText before after hbefore hafter =>
    have hends (c : Char) (hc : d.iso.head? = some c ∨ d.iso.getLast? = some c) :
        isBlank c = false :=
      Date.not_blank_of_mem_iso (hc.elim List.mem_of_head? List.mem_of_getLast?)
    simp only [Value.toDay, String.toList_append, String.toList_ofList,
      trim_around hbefore hafter hends]
    exact Iso.dayOf?_day hd
  | @momentText before after hbefore hafter separator t ht =>
    simp only [Value.toDay, String.toList_append, String.toList_ofList,
      trim_around hbefore hafter fun c => Moment.not_blank_of_end]
    exact Iso.dayOf?_moment hd separator ht

/-- What gives a day is not empty. -/
theorem isEmpty (h : v.OnDay d) (hd : d.Valid) : v.isEmpty = false := by
  rw [Bool.eq_false_iff]
  intro hempty
  have hday := toDay_of_isEmpty hempty
  rw [h.toDay hd] at hday
  cases hday

end OnDay

end Value

/-! ## The predicates -/

namespace Predicate

variable {value limit : Value} (hvalue : value.isEmpty = false) (validation : String)
  (holds : Date → Date → Bool)
include hvalue

/-- Where both give a day, the days are compared. -/
theorem comparedDay_eq {day boundary : Date} (hday : value.toDay = some day)
    (hboundary : limit.toDay = some boundary) :
    comparedDay validation holds value [limit] = pure (holds day boundary) := by
  simp only [comparedDay, upToOne, Check.liftM_ok, Check.pure_bind, hvalue, Bool.false_eq_true,
    if_false, hboundary, hday]

/-- What gives no day fails whatever the limit is. -/
theorem comparedDay_of_not_isDate (hday : ¬value.IsDate)
    (answer : (q : Request) → Attempt q.Reply) :
    ((comparedDay validation holds value [limit]).outcome answer).1 = .ok false := by
  rw [Value.isDate_iff, not_not] at hday
  rw [outcome_comparedDay hvalue rfl, hday]
  cases limit.toDay <;> rfl

end Predicate

namespace Catalog

/-- **Dates are compared by their days.** A value that gives a day is before a limit that gives a
day just if its day is before the day of the limit, and after it just if its day is after it;
nothing is reported. A value that is not empty and is no date fails both comparisons, whatever the
limit is. -/
theorem dates_by_day (context : Option Context) :
    (∀ d₁ d₂ : Date, d₁.Valid → d₂.Valid → ∀ value limit : Value, value.OnDay d₁ → limit.OnDay d₂ →
      callBuiltin "dateBefore" value [limit] context = pure (d₁.lt d₂) ∧
      callBuiltin "dateAfter" value [limit] context = pure (d₂.lt d₁)) ∧
    ∀ value : Value, value.isEmpty = false → ¬value.IsDate → ∀ limit answer,
      verdict answer context "dateBefore" value [limit] = .ok false ∧
      verdict answer context "dateAfter" value [limit] = .ok false := by
  refine ⟨fun d₁ d₂ h₁ h₂ value limit hvalue hlimit => ?_,
    fun value hvalue hnone limit answer => ?_⟩
  · have hday := hvalue.toDay h₁
    have hboundary := hlimit.toDay h₂
    rw [callBuiltin_plain rfl, callBuiltin_plain rfl]
    exact ⟨comparedDay_eq (hvalue.isEmpty h₁) _ _ hday hboundary,
      comparedDay_eq (hvalue.isEmpty h₁) _ _ hday hboundary⟩
  · rw [verdict_plain answer context rfl, verdict_plain answer context rfl]
    exact ⟨comparedDay_of_not_isDate hvalue _ _ hnone answer,
      comparedDay_of_not_isDate hvalue _ _ hnone answer⟩

end Catalog

namespace LeapDay

/-- The end of a leap day is before the next day, and `tomorrow` is no date. -/
theorem before_march :
    Catalog.callBuiltin "dateBefore" (.text "\t2024-02-29T23:59:59.000001 ")
      [.moment ⟨⟨2024, 3, 1⟩, ⟨0, 0, 0, 0⟩, none⟩] none = pure true ∧
    Catalog.callBuiltin "dateAfter" (.text "\t2024-02-29T23:59:59.000001 ")
      [.moment ⟨⟨2024, 3, 1⟩, ⟨0, 0, 0, 0⟩, none⟩] none = pure false ∧
    Catalog.verdict (fun _ => .error .noContext) none "dateBefore" (.text "tomorrow")
      [.text "2024-03-01"] = .ok false := by
  have htext : "\t2024-02-29T23:59:59.000001 " = "\t" ++
      String.ofList (Moment.iso 'T' ⟨⟨2024, 2, 29⟩, ⟨23, 59, 59, 1⟩, none⟩) ++ " " := by decide
  have hvalue : (Value.text "\t2024-02-29T23:59:59.000001 ").OnDay ⟨2024, 2, 29⟩ := by
    rw [htext]
    exact .momentText (by decide) (by decide) 'T' (by decide)
  obtain ⟨hdays, hothers⟩ := Catalog.dates_by_day none
  obtain ⟨hbefore, hafter⟩ := hdays ⟨2024, 2, 29⟩ ⟨2024, 3, 1⟩ (by decide) (by decide) _ _ hvalue
    (.moment ⟨0, 0, 0, 0⟩ none)
  have hnone : ¬(Value.text "tomorrow").IsDate := by
    rw [Value.isDate_iff, not_not]
    decide
  exact ⟨hbefore, hafter, (hothers _ (by decide) hnone _ _).1⟩

end LeapDay

end FormRules
