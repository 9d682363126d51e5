import FormRules.Proofs.Calendar.Iso

/-!
# Days and moments by their texts

No two days have the same ISO text, and no two moments (`Date.eq_of_iso_append`,
`Moment.eq_of_iso`), not even where they are the same instant. The parts of such a text are compared
one after the other, each with whatever follows it.
-/

namespace FormRules

namespace Double

/-- Two padded numbers of one width can be told from what follows them. -/
theorem padded_append_inj {width m n : Nat} (hwidth : 0 < width) (hm : m < 10 ^ width)
    (hn : n < 10 ^ width)
    {s t : List Char} (h : padded width m ++ s = padded width n ++ t) : m = n ∧ s = t := by
  have hlength : (padded width m).length = (padded width n).length := by
    rw [length_padded hwidth hm, length_padded hwidth hn]
  obtain ⟨heq, hrest⟩ := List.append_inj h hlength
  refine ⟨?_, hrest⟩
  rw [← valueOf_padded width m, heq, valueOf_padded]

theorem padded_inj {width m n : Nat} (h : padded width m = padded width n) : m = n := by
  rw [← valueOf_padded width m, h, valueOf_padded]

end Double

open Double (padded padded_append_inj padded_inj)

variable {s t : List Char}

/-- A day can be told from what follows it. -/
theorem Date.eq_of_iso_append {d e : Date} (hd : d.Valid) (he : e.Valid)
    (h : d.iso ++ s = e.iso ++ t) :
    d = e ∧ s = t := by
  simp only [Date.iso, List.append_assoc, List.cons_append] at h
  obtain ⟨hyear, h⟩ := padded_append_inj (by decide) hd.lt.1 he.lt.1 h
  obtain ⟨hmonth, h⟩ := padded_append_inj (by decide) hd.lt.2.1 he.lt.2.1 (List.cons.inj h).2
  obtain ⟨hday, hrest⟩ := padded_append_inj (by decide) hd.lt.2.2 he.lt.2.2 (List.cons.inj h).2
  cases d
  cases e
  exact ⟨by simp_all, hrest⟩

/-- The fraction of a time tells the microseconds, unless what follows it begins with a point. -/
theorem Clock.eq_of_fraction_append {m n : Nat} (hm : m < 1000000) (hn : n < 1000000)
    (hs : s.head? ≠ some '.')
    (ht : t.head? ≠ some '.')
    (h : (if m = 0 then [] else '.' :: padded 6 m) ++ s =
      (if n = 0 then [] else '.' :: padded 6 n) ++ t) :
    m = n ∧ s = t := by
  split_ifs at h with hm' hn' hn'
  · exact ⟨hm'.trans hn'.symm, h⟩
  · rw [List.nil_append] at h
    exact absurd (by rw [h]; rfl) hs
  · rw [List.nil_append] at h
    exact absurd (by rw [← h]; rfl) ht
  · exact padded_append_inj (by decide) hm hn (List.cons.inj h).2

/-- A time can be told from what follows it, unless that looks like a fraction. -/
theorem Clock.eq_of_iso_append {c d : Clock} (hc : c.Valid) (hd : d.Valid) (hs : s.head? ≠ some '.')
    (ht : t.head? ≠ some '.') (h : c.iso ++ s = d.iso ++ t) : c = d ∧ s = t := by
  obtain ⟨hhour, hminute, hsecond, hmicro⟩ := hc
  obtain ⟨hhour', hminute', hsecond', hmicro'⟩ := hd
  simp only [Clock.iso, List.append_assoc, List.cons_append] at h
  obtain ⟨heqhour, h⟩ := padded_append_inj (by decide) (by omega) (by omega) h
  obtain ⟨heqminute, h⟩ := padded_append_inj (by decide) (by omega) (by omega) (List.cons.inj h).2
  obtain ⟨heqsecond, h⟩ := padded_append_inj (by decide) (by omega) (by omega) (List.cons.inj h).2
  obtain ⟨heqmicro, hrest⟩ := eq_of_fraction_append hmicro hmicro' hs ht h
  cases c
  cases d
  exact ⟨by simp_all, hrest⟩

namespace Moment

/-- A moment whose day and time exist, and that is less than a day from universal time. -/
structure Valid (m : Moment) : Prop where
  date : m.date.Valid
  clock : m.clock.Valid
  ahead : (m.ahead.getD 0).natAbs < 86400

/-- A distance from universal time begins with a sign. -/
theorem head?_aheadText (seconds : Int) :
    (aheadText seconds).head? = some (if seconds < 0 then '-' else '+') := rfl

/-- A distance of less than a day is told by its text. -/
theorem eq_of_aheadText {a b : Int} (ha : a.natAbs < 86400) (hb : b.natAbs < 86400)
    (h : aheadText a = aheadText b) : a = b := by
  simp only [aheadText, List.append_assoc, List.cons_append] at h
  obtain ⟨hsign, h⟩ := List.cons.inj h
  obtain ⟨hhour, h⟩ := padded_append_inj (by decide) (by omega) (by omega) h
  obtain ⟨hminute, h⟩ := padded_append_inj (by decide) (by omega) (by omega) (List.cons.inj h).2
  have hsecond : a.natAbs % 60 = b.natAbs % 60 := by
    split_ifs at h with ha' hb' hb'
    · exact ha'.trans hb'.symm
    · exact padded_inj (List.cons.inj h).2
  split_ifs at hsign <;> first | omega | exact absurd hsign (by decide)

theorem iso_eq (m : Moment) (separator : Char) :
    m.iso separator = m.date.iso ++ separator :: m.clock.iso ++ m.ahead.elim [] aheadText := by
  unfold iso
  cases m.ahead <;> rfl

/-- Moments that are written alike are the same moment. -/
theorem eq_of_iso {m n : Moment} (hm : m.Valid) (hn : n.Valid) {separator : Char}
    (h : m.iso separator = n.iso separator) : m = n := by
  have hhead (ahead : Option Int) : (ahead.elim [] aheadText).head? ≠ some '.' := by
    cases ahead with
    | none => simp
    | some seconds =>
      rw [Option.elim_some, head?_aheadText]
      split <;> decide
  obtain ⟨date, clock, ahead⟩ := m
  obtain ⟨date', clock', ahead'⟩ := n
  simp only [iso_eq, List.append_assoc, List.cons_append] at h
  obtain ⟨hdate, h⟩ := Date.eq_of_iso_append hm.date hn.date h
  obtain ⟨hclock, hrest⟩ :=
    Clock.eq_of_iso_append hm.clock hn.clock (hhead ahead) (hhead ahead') (List.cons.inj h).2
  have heq : ahead = ahead' := by
    rcases ahead with _ | a <;> rcases ahead' with _ | b
    · rfl
    · cases hrest
    · cases hrest
    · exact congrArg some (eq_of_aheadText hm.ahead hn.ahead hrest)
  obtain rfl : date = date' := hdate
  obtain rfl : clock = clock' := hclock
  rw [heq]

end Moment

end FormRules
