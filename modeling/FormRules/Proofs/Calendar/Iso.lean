import FormRules.Calendar.Iso
import FormRules.Proofs.Number.Decimal
import Mathlib.Data.List.GetD
import Mathlib.Data.Nat.Digits.Defs

/-!
# Reading back ISO texts

The ISO text of a day is read as that day, and the ISO text of a moment as that moment, with any
character between the day and the time (`Iso.day?_iso`, `Iso.moment?_iso`). Each reader is asked for
what it makes of a written part with something behind it, so the parts are put together without
looking at their bytes again.

The reader of days goes by the length of the text, so it leaves the text of a moment alone
(`Iso.date?_moment`), and the two readers in turn find the day in either text (`Iso.dayOf?_day`,
`Iso.dayOf?_moment`).
-/

namespace FormRules

/-! ## Bytes of texts -/

namespace Text

theorem utf8_append (s t : List Char) : utf8 (s ++ t) = utf8 s ++ utf8 t := List.flatMap_append

theorem utf8_cons (c : Char) (s : List Char) : utf8 (c :: s) = utf8Char c.toNat ++ utf8 s := rfl

/-- A text of ASCII characters has a byte for each. -/
theorem utf8_ascii {s : List Char} (h : ∀ c ∈ s, c.toNat < 0x80) : utf8 s = s.map Char.toNat := by
  induction s with
  | nil => rfl
  | cons c s ih =>
    rw [List.forall_mem_cons] at h
    rw [utf8_cons, ih h.2, utf8Char, if_pos h.1]
    rfl

end Text

namespace Double

variable {width n : Nat}

/-- A padded number is its digits behind as many zeros as are missing. -/
theorem padded_eq (width n : Nat) :
    padded width n = List.replicate (width - (Nat.toDigits 10 n).length) '0' ++
      Nat.toDigits 10 n := by
  have htext : (toString n).toList = Nat.toDigits 10 n := Nat.toList_repr
  rw [padded, htext]

/-- A padded number is made of digits. -/
theorem mem_padded {c : Char} (hc : c ∈ padded width n) : c ∈ asciiDigits := by
  rw [padded_eq, List.mem_append] at hc
  rcases hc with hzero | hdigit
  · rw [List.eq_of_mem_replicate hzero]
    exact List.mem_cons_self
  · exact mem_toDigits n c hdigit

/-- A number that fits has the width that it is padded to. -/
theorem length_padded (hwidth : 0 < width) (hn : n < 10 ^ width) :
    (padded width n).length = width := by
  have hdigits : (Nat.toDigits 10 n).length ≤ width := Nat.toDigits_length 10 n width hwidth hn
  rw [padded_eq, List.length_append, List.length_replicate]
  omega

/-- Zeros in front of a number do not change it. -/
theorem valueOf_padded (width n : Nat) :
    Text.valueOf 10 ((padded width n).map fun c => c.toNat - 48) = n := by
  have hzeros (k : Nat) : (List.replicate k 0).foldl (fun n d => n * 10 + d) 0 = 0 := by
    induction k with
    | zero => rfl
    | succ k ih => exact ih
  rw [padded_eq, List.map_append, List.map_replicate, Text.valueOf, List.foldl_append]
  change List.foldl _ (List.foldl _ 0 (List.replicate _ 0)) _ = n
  rw [hzeros]
  exact valueOf_toDigits n

end Double

/-- The numbers of a day have the digits that its text gives them. -/
theorem Date.Valid.lt {d : Date} (hd : d.Valid) :
    d.year < 10 ^ 4 ∧ d.month < 10 ^ 2 ∧ d.day < 10 ^ 2 := by
  obtain ⟨-, hyear, -, hmonth, -, hday⟩ := hd
  have hdays : daysInMonth d.year d.month ≤ 31 := by
    unfold daysInMonth
    split_ifs <;> decide
  omega

namespace Iso

open Text
open Double (padded)

theorem beq_false_of_isDigitByte {b c : Nat} (hb : isDigitByte b = true)
    (hc : isDigitByte c = false) :
    (b == c) = false := by
  refine beq_false_of_ne fun h => ?_
  rw [h, hc] at hb
  cases hb

/-! ## Numbers of a fixed width -/

/-- The bytes of a number with a fixed number of digits. -/
def digits (width n : Nat) : List Nat := utf8 (padded width n)

section

variable {width n : Nat}

theorem digits_eq (width n : Nat) : digits width n = (padded width n).map Char.toNat := by
  refine utf8_ascii fun c hc => ?_
  have hascii : asciiDigits.all (fun c => c.toNat < 0x80) = true := by decide
  exact of_decide_eq_true (List.all_eq_true.mp hascii c (Double.mem_padded hc))

theorem digits_ne_nil (width n : Nat) : digits width n ≠ [] := by
  simp [digits_eq, Double.padded_eq, Nat.toDigits_ne_nil]

/-- The bytes of a padded number are digits. -/
theorem isDigitByte_of_mem {b : Nat} (hb : b ∈ digits width n) : isDigitByte b = true := by
  have hdigits : asciiDigits.all (fun c => isDigitByte c.toNat) = true := by decide
  rw [digits_eq, List.mem_map] at hb
  obtain ⟨c, hc, rfl⟩ := hb
  exact List.all_eq_true.mp hdigits c (Double.mem_padded hc)

/-- A number of a fixed width begins with a digit. -/
theorem isDigitByte_headD (width n : Nat) (rest : List Nat) :
    isDigitByte ((digits width n ++ rest).headD 0) = true := by
  cases hdigits : digits width n with
  | nil => exact absurd hdigits (digits_ne_nil width n)
  | cons b bs => exact isDigitByte_of_mem (hdigits ▸ List.mem_cons_self)

section

variable (hwidth : 0 < width) (hn : n < 10 ^ width)
include hwidth hn

/-- So many of them as it is padded to. -/
theorem length_digits : (digits width n).length = width := by
  rw [digits_eq, List.length_map, Double.length_padded hwidth hn]

/-- A number of a fixed width is read back, whatever follows it. -/
theorem number?_digits (rest : List Nat) :
    number? width (digits width n ++ rest) = some (n, rest) := by
  have hlength := length_digits hwidth hn
  have htake : (digits width n ++ rest).take width = digits width n := List.take_left' hlength
  have hdrop : (digits width n ++ rest).drop width = rest := List.drop_left' hlength
  have hall : (digits width n).all isDigitByte = true := List.all_eq_true.mpr fun b =>
    isDigitByte_of_mem
  have hvalue : valueOf 10 ((digits width n).map (· - 48)) = n := by
    rw [digits_eq, List.map_map]
    exact Double.valueOf_padded width n
  simp only [number?, htake, hdrop, hlength, hall, hvalue, decide_true, Bool.and_self, if_true]

end

end

/-! ## Days -/

/-- The bytes of a day: year, dash, month, dash, day, and what follows. -/
theorem utf8_day (d : Date) (rest : List Nat) : utf8 d.iso ++ rest =
    digits 4 d.year ++ 45 :: (digits 2 d.month ++ 45 :: (digits 2 d.day ++ rest)) := by
  have hdash (s : List Char) : utf8 ('-' :: s) = 45 :: utf8 s := rfl
  simp only [Date.iso, utf8_append, hdash, List.append_assoc, List.cons_append, digits]

section

variable {d : Date} (hd : d.Valid)
include hd

/-- A day is written with ten bytes. -/
theorem length_day : (utf8 d.iso).length = 10 := by
  obtain ⟨hyear, hmonth, hday⟩ := hd.lt
  rw [← List.append_nil (utf8 d.iso), utf8_day]
  simp [length_digits (by decide) hyear, length_digits (by decide) hmonth,
    length_digits (by decide) hday]

/-- The day is read back, whatever follows it. -/
theorem day?_iso (len : Nat) (rest : List Nat) : day? len (utf8 d.iso ++ rest) = some d := by
  have hof : Date.of? d.year d.month d.day = some d := if_pos hd
  obtain ⟨hyear, hmonth, hday⟩ := hd.lt
  rw [utf8_day, day?, number?_digits (by decide) hyear]
  -- behind the year there is a dash, and behind the dash a digit and no letter
  have hfirst := isDigitByte_headD 2 d.month (45 :: (digits 2 d.day ++ rest))
  have hread := number?_digits (by decide) hmonth (45 :: (digits 2 d.day ++ rest))
  generalize digits 2 d.month ++ 45 :: (digits 2 d.day ++ rest) = behind at hfirst hread ⊢
  have hweek : (behind.headD 0 == 87) = false := beq_false_of_isDigitByte hfirst rfl
  simp only [Option.bind_eq_bind, Option.bind_some, List.headD_cons, beq_self_eq_true, if_true,
    List.drop_succ_cons, List.drop_zero, hweek, Bool.false_eq_true, if_false, hread, dash?,
    number?_digits (by decide) hday, hof]

end

/-! ## Times -/

/-- The bytes of the fraction of a time. -/
def fraction (t : Clock) : List Nat := if t.micro = 0 then [] else 46 :: digits 6 t.micro

/-- The bytes of a time: hour, colon, minute, colon, second, fraction. -/
theorem utf8_clock (t : Clock) : utf8 t.iso =
    digits 2 t.hour ++ 58 :: (digits 2 t.minute ++ 58 :: (digits 2 t.second ++ fraction t)) := by
  have hcolon (s : List Char) : utf8 (':' :: s) = 58 :: utf8 s := rfl
  have hpoint (s : List Char) : utf8 ('.' :: s) = 46 :: utf8 s := rfl
  have hfraction : utf8 (if t.micro = 0 then [] else '.' :: padded 6 t.micro) = fraction t := by
    unfold fraction
    split_ifs
    · rfl
    · exact hpoint _
  simp only [Clock.iso, utf8_append, hcolon, hfraction, List.append_assoc, List.cons_append, digits]

section

variable {v : Nat} (hv : v < 10 ^ 2)
include hv

/-- A field with a colon behind it is read, and then the fields behind the colon. -/
theorem fields?_colon (n : Nat) {colons : Option Bool} (hcolons : colons ≠ some false)
    {rest : List Nat}
    (hrest : rest ≠ []) : fields? 0 (n + 1) colons (digits 2 v ++ 58 :: rest) =
      (fields? 0 n (some true) rest).map fun r => (v :: r.1, r.2) := by
  have hread := number?_digits (by decide : 0 < 2) hv (58 :: rest)
  have hused : colons.getD true = true := by
    rcases colons with _ | _ | _
    · rfl
    · exact absurd rfl hcolons
    · rfl
  have hlength : ¬(58 :: rest).length ≤ 0 + 1 := by simpa using hrest
  rw [fields?, hread]
  simp only [Option.bind_eq_bind, Option.bind_some, List.headD_cons, beq_self_eq_true, hused,
    hlength, if_false, Bool.and_self, if_true, List.drop_succ_cons, List.drop_zero]
  cases fields? 0 n (some true) rest <;> rfl

/-- The last field. -/
theorem fields?_last (n : Nat) :
    fields? 0 (n + 1) (some true) (digits 2 v) = some ([v], .stop true) := by
  have hread := number?_digits (by decide : 0 < 2) hv []
  rw [List.append_nil] at hread
  rw [fields?, hread]
  rfl

/-- The last field before a fraction. -/
theorem fields?_point (n : Nat) {rest : List Nat} (hrest : rest ≠ []) :
    fields? 0 (n + 1) (some true) (digits 2 v ++ 46 :: rest) = some ([v], .fraction rest) := by
  have hread := number?_digits (by decide : 0 < 2) hv (46 :: rest)
  have hlength : ¬(46 :: rest).length ≤ 0 + 1 := by simpa using hrest
  rw [fields?, hread]
  simp only [Option.bind_eq_bind, Option.bind_some, hlength, if_false]
  rfl

end

/-- A time is written with digits, colons and at most a point. -/
theorem mem_clock {t : Clock} {b : Nat} (hb : b ∈ utf8 t.iso) :
    isDigitByte b = true ∨ b = 58 ∨ b = 46 := by
  have hdigit {width n : Nat} (h : b ∈ digits width n) : isDigitByte b = true ∨ b = 58 ∨ b = 46 :=
    .inl (isDigitByte_of_mem h)
  simp only [utf8_clock, List.mem_append, List.mem_cons] at hb
  rcases hb with h | rfl | h | rfl | h | h
  · exact hdigit h
  · exact .inr (.inl rfl)
  · exact hdigit h
  · exact .inr (.inl rfl)
  · exact hdigit h
  · unfold fraction at h
    split_ifs at h
    · cases h
    · rcases List.mem_cons.mp h with rfl | h
      · exact .inr (.inr rfl)
      · exact hdigit h

section

variable {t : Clock} (ht : t.Valid)
include ht

/-- The time is read back. -/
theorem clock?_iso : clock? 0 (utf8 t.iso) = some (t, true) := by
  obtain ⟨hhour, hminute, hsecond, hmicro⟩ := ht
  have hfields : fields? 0 3 none (utf8 t.iso) = some ([t.hour, t.minute, t.second],
      if t.micro = 0 then .stop true else .fraction (digits 6 t.micro)) := by
    have hlast : fields? 0 1 (some true) (digits 2 t.second ++ fraction t) = some ([t.second],
        if t.micro = 0 then .stop true else .fraction (digits 6 t.micro)) := by
      unfold fraction
      split_ifs with hwhole
      · rw [List.append_nil, fields?_last (by omega)]
      · exact fields?_point (by omega) 0 (digits_ne_nil 6 t.micro)
    rw [utf8_clock, fields?_colon (by omega) 2 (by simp) (by simp),
      fields?_colon (by omega) 1 (by simp) (by simp [digits_ne_nil]), hlast]
    rfl
  rw [clock?, hfields]
  by_cases hwhole : t.micro = 0
  · have htime : (⟨t.hour, t.minute, t.second, 0⟩ : Clock) = t := by rw [← hwhole]
    simp [hwhole, htime]
  · have hmicros : t.micro < 10 ^ 6 := by omega
    have hread := number?_digits (by decide : 0 < 6) hmicros []
    rw [List.append_nil] at hread
    simp [hwhole, length_digits (by decide : 0 < 6) hmicros, hread]

/-- The time is read back where a distance from universal time may follow it. -/
theorem zoned?_iso : zoned? (utf8 t.iso) = some (t, none) := by
  have hzone : (utf8 t.iso).dropWhile (fun b => !isZoneStart b) = [] := by
    refine List.dropWhile_eq_nil_iff.mpr fun b hb => ?_
    rcases mem_clock hb with hdigit | rfl | rfl
    · simp only [isDigitByte, isZoneStart, Bool.and_eq_true, decide_eq_true_eq] at hdigit ⊢
      simp
      omega
    · rfl
    · rfl
  rw [zoned?, hzone]
  simp [clock?_iso ht]

end

/-! ## Moments -/

/-- The first byte of a character tells how many bytes it has. -/
theorem charLength_headD (n : Nat) : charLength ((utf8Char n).headD 0) = (utf8Char n).length := by
  unfold utf8Char charLength
  split_ifs <;> simp at * <;> omega

theorem utf8Char_ne_nil (n : Nat) : utf8Char n ≠ [] := by
  unfold utf8Char
  split_ifs <;> exact List.cons_ne_nil _ _

/-- The bytes of a moment: day, separator, time. -/
theorem utf8_moment (separator : Char) (d : Date) (t : Clock) :
    utf8 (Moment.iso separator ⟨d, t, none⟩) =
      utf8 d.iso ++ (utf8Char separator.toNat ++ utf8 t.iso) := by
  simp only [Moment.iso, List.append_nil, utf8_append, utf8_cons]

section

variable {d : Date} (hd : d.Valid)
include hd

/-- A day with dashes is found in front of a moment. -/
theorem dayLength?_iso (rest : List Nat) : dayLength? (utf8 d.iso ++ rest) = some 10 := by
  have hseven : ¬(utf8 d.iso ++ rest).length = 7 := by
    rw [List.length_append, length_day hd]
    omega
  have hyear : (digits 4 d.year).length = 4 := length_digits (by decide) hd.lt.1
  rw [utf8_day] at hseven ⊢
  have hfirst := isDigitByte_headD 2 d.month (45 :: (digits 2 d.day ++ rest))
  generalize digits 2 d.month ++ 45 :: (digits 2 d.day ++ rest) = behind at hfirst hseven ⊢
  have hdash : (digits 4 d.year ++ 45 :: behind).getD 4 0 = 45 := by
    rw [List.getD_append_right _ _ _ _ hyear.le, hyear]
    rfl
  have hweek : ((digits 4 d.year ++ 45 :: behind).getD 5 0 == 87) = false := by
    rw [List.getD_append_right _ _ _ _ (by omega), hyear]
    change (behind.getD 0 0 == 87) = false
    rw [← List.headD_eq_getD]
    exact beq_false_of_isDigitByte hfirst rfl
  simp only [dayLength?, hseven, if_false, hdash, beq_self_eq_true, if_true, hweek,
    Bool.false_eq_true]

variable (separator : Char) (t : Clock)

/-- The text of a moment is longer than that of a day. -/
theorem length_moment : 10 < (utf8 (Moment.iso separator ⟨d, t, none⟩)).length := by
  have hlength := length_day hd
  have hseparator := List.length_pos_of_ne_nil (utf8Char_ne_nil separator.toNat)
  simp only [utf8_moment, List.length_append]
  omega

/-- No reader of days takes the text of a moment. -/
theorem date?_moment : date? (utf8 (Moment.iso separator ⟨d, t, none⟩)) = none := by
  have hlength := length_moment hd separator t
  have hforms : ¬(decide ((utf8 (Moment.iso separator ⟨d, t, none⟩)).length = 7) ||
      decide ((utf8 (Moment.iso separator ⟨d, t, none⟩)).length = 8) ||
      decide ((utf8 (Moment.iso separator ⟨d, t, none⟩)).length = 10)) = true := by
    simp only [Bool.or_eq_true, decide_eq_true_eq]
    omega
  exact if_neg hforms

variable {t} (ht : t.Valid)
include ht

/-- The moment is read back, whatever separates the day and the time. -/
theorem moment?_iso : moment? (utf8 (Moment.iso separator ⟨d, t, none⟩)) = some ⟨d, t, none⟩ := by
  have hlength := length_day hd
  have hlonger := (length_moment hd separator t).not_ge
  have hseparator := List.length_pos_of_ne_nil (utf8Char_ne_nil separator.toNat)
  rw [utf8_moment] at hlonger ⊢
  have hfirst : (utf8 d.iso ++ (utf8Char separator.toNat ++ utf8 t.iso)).getD 10 0 =
      (utf8Char separator.toNat).headD 0 := by
    rw [List.getD_append_right _ _ _ _ hlength.le, hlength, List.getD_append _ _ _ _ hseparator,
      List.headD_eq_getD]
  have hdrop : (utf8 d.iso ++ (utf8Char separator.toNat ++ utf8 t.iso)).drop
      (10 + (utf8Char separator.toNat).length) = utf8 t.iso := by
    rw [← List.append_assoc, List.drop_left' (by rw [List.length_append, hlength])]
  rw [moment?, dayLength?_iso hd]
  simp only [Option.bind_eq_bind, Option.bind_some, day?_iso hd, hlonger, if_false, hfirst,
    charLength_headD, hdrop, zoned?_iso ht, ht, if_true]

/-! ## The two readers in turn -/

omit ht t separator in
/-- **The text of a day is read as the day.** -/
theorem dayOf?_day : dayOf? d.iso = some d := by
  have hread : date? (utf8 d.iso) = some d := by
    have hday := day?_iso hd 10 []
    rw [List.append_nil] at hday
    simp [date?, length_day hd, hday]
  rw [dayOf?, hread]

/-- **The text of a moment is read as its day.** -/
theorem dayOf?_moment : dayOf? (Moment.iso separator ⟨d, t, none⟩) = some d := by
  rw [dayOf?, date?_moment hd, moment?_iso hd separator ht]
  rfl

end

end Iso

end FormRules
