import FormRules.Proofs.Calendar.Iso
import FormRules.Proofs.Number.Shortest

/-!
# Reading back the text of a double

The text of a double is read as that double (`Double.ofText?_text`), whether it is in positional or
in scientific form: either form spells the digits of the double and the exponent of the first of
them, and these make up a number that is rounded to the double.
-/

namespace FormRules.Double

open Text

/-- The number that digits write. -/
def placeValue (s : List Char) : Nat := valueOf 10 (s.map fun c => c.toNat - 48)

/-! ## Values of digits -/

section

variable {s t : List Char}

/-- Digits are worth what the first ones are, moved to the left, and the others. -/
theorem valueOf_append (a b : List Nat) :
    valueOf 10 (a ++ b) = valueOf 10 a * 10 ^ b.length + valueOf 10 b := by
  have hfrom (n : Nat) : b.foldl (fun n d => n * 10 + d) n = n * 10 ^ b.length + valueOf 10 b := by
    induction b generalizing n with
    | nil => simp
    | cons d b ih =>
      have hcons : valueOf 10 (d :: b) = d * 10 ^ b.length + valueOf 10 b := by
        rw [← ih d, valueOf, List.foldl_cons, Nat.zero_mul, Nat.zero_add]
      rw [List.foldl_cons, ih, hcons, List.length_cons, Nat.pow_succ]
      ring
  rw [valueOf, List.foldl_append]
  exact hfrom _

/-- So are digits that are written. -/
theorem placeValue_append (s t : List Char) :
    placeValue (s ++ t) = placeValue s * 10 ^ t.length + placeValue t := by
  rw [placeValue, List.map_append, valueOf_append, List.length_map]
  rfl

/-- Zeros are worth nothing. -/
theorem placeValue_zeros (k : Nat) : placeValue (List.replicate k '0') = 0 := by
  induction k with
  | zero => rfl
  | succ k ih =>
    rw [List.replicate_succ', placeValue_append, ih]
    rfl

/-- A digit is written with its own character. -/
theorem digitChar_eq {d : Nat} (hd : d < 10) :
    digitChar d ∈ asciiDigits ∧ (digitChar d).toNat - 48 = d := by
  have hall : ∀ d < 10, digitChar d ∈ asciiDigits ∧ (digitChar d).toNat - 48 = d := by decide
  exact hall d hd

/-- Writing digits keeps what they are worth. -/
theorem placeValue_digitChar {digits : List Nat} (h : ∀ d ∈ digits, d < 10) :
    placeValue (digits.map digitChar) = valueOf 10 digits := by
  rw [placeValue, List.map_map]
  congr 1
  conv_rhs => rw [← List.map_id digits]
  exact List.map_congr_left fun d hd => (digitChar_eq (h d hd)).2

/-! ## Reading decimals -/

/-- Digits are read up to the first character that is none. -/
theorem spanDigits_append (hs : ∀ c ∈ s, c ∈ asciiDigits)
    (ht : ∀ c ∈ t.head?, isAsciiDigit c = false) :
    spanDigits (s ++ t) = (s.map fun c => c.toNat - 48, t) := by
  have hdigits : asciiDigits.all isAsciiDigit = true := by decide
  have hs' : ∀ c ∈ s, isAsciiDigit c = true := fun c hc => List.all_eq_true.mp hdigits c (hs c hc)
  have htake : t.takeWhile isAsciiDigit = [] := by
    cases t with
    | nil => rfl
    | cons c t => simp [ht c rfl]
  have hdrop : t.dropWhile isAsciiDigit = t := by
    cases t with
    | nil => rfl
    | cons c t => simp [ht c rfl]
  rw [spanDigits, List.takeWhile_append_of_pos hs', List.dropWhile_append_of_pos hs', htake, hdrop,
    List.append_nil]

section

variable (hs : ∀ c ∈ s, c ∈ asciiDigits) (hne : s ≠ []) (negative : Bool) {tail : List Char}
    {exponent : Int}
include hs hne

/-- A number without a point. -/
theorem unsigned?_whole (htail : ∀ c ∈ tail.head?, isAsciiDigit c = false ∧ c ≠ '.')
    (hexponent : exponent? tail = some exponent) :
    unsigned? negative (s ++ tail) =
      some (ofDecimal negative (placeValue s) s.length exponent) := by
  have hspan := spanDigits_append hs fun c hc => (htail c hc).1
  cases tail with
  | nil =>
    simp only [unsigned?, hspan, hexponent]
    simp [hne, placeValue]
  | cons c r =>
    have hpoint : c ≠ '.' := (htail c rfl).2
    simp [unsigned?, hspan, hpoint, hexponent, hne, placeValue]

/-- A number with a point. -/
theorem unsigned?_point (ht : ∀ c ∈ t, c ∈ asciiDigits)
    (htail : ∀ c ∈ tail.head?, isAsciiDigit c = false)
    (hexponent : exponent? tail = some exponent) :
    unsigned? negative (s ++ '.' :: (t ++ tail)) =
      some (ofDecimal negative (placeValue (s ++ t)) (s ++ t).length (exponent - t.length)) := by
  have hspan : spanDigits (s ++ '.' :: (t ++ tail)) = _ := spanDigits_append hs (by simp; decide)
  have hfraction := spanDigits_append ht htail
  simp only [unsigned?, hspan, hfraction, hexponent]
  simp [hne, placeValue]

end

end

/-! ## The two forms -/

/-- The exponent of scientific form. -/
theorem exponent?_padded (width : Nat) (lead : Int) :
    exponent? ('e' :: (if lead < 0 then '-' else '+') :: padded width lead.natAbs) = some lead := by
  have hspan := spanDigits_of_mem fun c (hc : c ∈ padded width lead.natAbs) => mem_padded hc
  have hvalue := valueOf_padded width lead.natAbs
  have hne : (padded width lead.natAbs).map (fun c => c.toNat - 48) ≠ [] := by
    simp [padded_eq, Nat.toDigits_ne_nil]
  generalize (padded width lead.natAbs).map (fun c => c.toNat - 48) = digits at hspan hvalue hne
  obtain ⟨d, ds, rfl⟩ := List.exists_cons_of_ne_nil hne
  rcases lt_or_ge lead 0 with hlead | hlead
  · simp [exponent?, spanSign, hlead, hspan, hvalue, abs_of_neg hlead]
  · simp [exponent?, spanSign, not_lt.mpr hlead, hspan, hvalue, abs_of_nonneg hlead]

/-- A text is read as a number: as digits and an exponent that is not out of range. -/
def ReadsAs (s : List Char) (x : ℚ) : Prop :=
  ∀ negative, ∃ n width exponent,
    unsigned? negative s = some (ofDecimal negative n width exponent) ∧
    n * 10 ^ exponent = x ∧ -400 - width ≤ exponent ∧ exponent ≤ 400

/-- Positional form has digits on either side of a point. -/
structure Pointed (digits : List Char) (lead : Int) (whole fraction : List Char) : Prop where
  form : positional digits lead = whole ++ '.' :: fraction
  ne_nil : whole ≠ []
  whole_digits : ∀ c ∈ whole, c ∈ asciiDigits
  fraction_digits : ∀ c ∈ fraction, c ∈ asciiDigits
  value : (placeValue (whole ++ fraction) * 10 ^ (-fraction.length : Int) : ℚ) =
    placeValue digits * 10 ^ (lead + 1 - digits.length)

theorem digits_replicate (k : Nat) : ∀ c ∈ List.replicate k '0', c ∈ asciiDigits := by
  intro c hc
  rw [List.eq_of_mem_replicate hc]
  exact List.mem_cons_self

section

variable {digits : List Char} (hdigits : ∀ c ∈ digits, c ∈ asciiDigits) {lead : Int}
include hdigits

/-- A number below one has zeros behind the point. -/
theorem pointed_of_neg (hlead : lead < 0) :
    Pointed digits lead ['0'] (List.replicate (-lead - 1).toNat '0' ++ digits) where
  form := if_pos hlead
  ne_nil := List.cons_ne_nil _ _
  whole_digits := digits_replicate 1
  fraction_digits := List.forall_mem_append.mpr ⟨digits_replicate _, hdigits⟩
  value := by
    have hzeros : placeValue ['0'] = 0 := placeValue_zeros 1
    have hexponent : -(((-lead - 1).toNat + digits.length : Nat) : Int) =
        lead + 1 - digits.length := by omega
    rw [placeValue_append, placeValue_append, placeValue_zeros, hzeros, List.length_append,
      List.length_replicate, ← hexponent]
    simp

variable (hne : digits ≠ []) {k : Nat}
include hne

/-- More digits than the whole part has are cut by the point. -/
theorem pointed_of_lt (hlong : k + 1 < digits.length) :
    Pointed digits k (digits.take (k + 1)) (digits.drop (k + 1)) where
  form := by
    have hrest : (digits.drop (k + 1)).isEmpty = false := by simpa using hlong
    rw [positional, if_neg (Int.natCast_nonneg k).not_gt, Int.toNat_natCast]
    dsimp only
    rw [hrest, Nat.sub_eq_zero_of_le hlong.le]
    simp
  ne_nil := by simpa using hne
  whole_digits c hc := hdigits c (List.mem_of_mem_take hc)
  fraction_digits c hc := hdigits c (List.mem_of_mem_drop hc)
  value := by
    have hexponent : -((digits.length - (k + 1) : Nat) : Int) = k + 1 - digits.length := by omega
    rw [List.take_append_drop, List.length_drop, hexponent]

/-- Fewer digits than the whole part has are filled up with zeros. -/
theorem pointed_of_ge (hshort : digits.length ≤ k + 1) :
    Pointed digits k (digits ++ List.replicate (k + 1 - digits.length) '0') ['0'] where
  form := by
    have hrest : digits.drop (k + 1) = [] := List.drop_eq_nil_of_le hshort
    rw [positional, if_neg (Int.natCast_nonneg k).not_gt, Int.toNat_natCast]
    dsimp only
    rw [hrest, List.take_of_length_le hshort]
    rfl
  ne_nil := by simp [hne]
  whole_digits := List.forall_mem_append.mpr ⟨hdigits, digits_replicate _⟩
  fraction_digits := digits_replicate 1
  value := by
    have hzeros : placeValue ['0'] = 0 := placeValue_zeros 1
    have hexponent : ((k + 1 - digits.length : Nat) : Int) = k + 1 - digits.length := by omega
    rw [placeValue_append, placeValue_append, placeValue_zeros, hzeros, List.length_replicate,
      ← hexponent, zpow_natCast]
    simp

/-- A point can be put at every place. -/
theorem exists_pointed (lead : Int) : ∃ whole fraction, Pointed digits lead whole fraction := by
  rcases lt_or_ge lead 0 with hlead | hlead
  · exact ⟨_, _, pointed_of_neg hdigits hlead⟩
  · obtain ⟨k, rfl⟩ := Int.eq_ofNat_of_zero_le hlead
    rcases Nat.lt_or_ge (k + 1) digits.length with hlong | hshort
    · exact ⟨_, _, pointed_of_lt hdigits hne hlong⟩
    · exact ⟨_, _, pointed_of_ge hdigits hne hshort⟩

/-- The positional notation is read as the number that it spells. -/
theorem readsAs_positional (lead : Int) : ReadsAs (positional digits lead)
    (placeValue digits * 10 ^ (lead + 1 - digits.length)) := by
  intro negative
  obtain ⟨whole, fraction, h⟩ := exists_pointed hdigits hne lead
  have hnone : exponent? [] = some 0 := rfl
  have hread := unsigned?_point h.whole_digits h.ne_nil negative h.fraction_digits (by simp) hnone
  rw [List.append_nil, ← h.form, zero_sub] at hread
  refine ⟨_, _, _, hread, h.value, ?_, by omega⟩
  rw [List.length_append]
  omega

/-- So is the scientific notation. -/
theorem readsAs_scientific (width : Nat) (hlead : lead ≤ 400)
    (hlow : -350 ≤ lead + 1 - digits.length) :
    ReadsAs (scientific width digits lead)
      (placeValue digits * 10 ^ (lead + 1 - digits.length)) := by
  intro negative
  have hexponent := exponent?_padded width lead
  have hend : ∀ c ∈ ('e' :: (if lead < 0 then '-' else '+') :: padded width lead.natAbs).head?,
      isAsciiDigit c = false ∧ c ≠ '.' := by
    rintro _ ⟨⟩
    decide
  obtain ⟨c, rest, rfl⟩ := List.exists_cons_of_ne_nil hne
  have hc : ∀ x ∈ [c], x ∈ asciiDigits := by simpa using hdigits c List.mem_cons_self
  rcases rest with _ | ⟨d, rest⟩
  · refine ⟨_, _, _, unsigned?_whole hc (by simp) negative hend hexponent, by simp, by simp; omega,
      by omega⟩
  · have hrest : ∀ x ∈ d :: rest, x ∈ asciiDigits :=
      fun x hx => hdigits x (List.mem_cons_of_mem c hx)
    have hread := unsigned?_point hc (by simp) negative hrest (fun c hc => (hend c hc).1) hexponent
    refine ⟨_, _, _, hread, ?_, ?_, ?_⟩
    · have heq : lead + 1 - (c :: d :: rest).length = lead - (d :: rest).length := by
        rw [List.length_cons]
        omega
      rw [heq]
      rfl
    · simp at hlow ⊢
      omega
    · omega

/-- What the texts of numbers in either form have in common: they begin with a digit, and have a
point or an exponent. -/
structure IsForm (s : List Char) : Prop where
  head : ∃ c ∈ s.head?, c ∈ asciiDigits
  chars : ∀ c ∈ s, c ∈ '.' :: 'e' :: '+' :: '-' :: asciiDigits
  mark : 'e' ∈ s ∨ '.' ∈ s

/-- The positional notation has one of the forms of numbers. -/
theorem isForm_positional (lead : Int) : IsForm (positional digits lead) := by
  obtain ⟨whole, fraction, h⟩ := exists_pointed hdigits hne lead
  rw [h.form]
  obtain ⟨c, r, rfl⟩ := List.exists_cons_of_ne_nil h.ne_nil
  refine ⟨⟨c, rfl, h.whole_digits c List.mem_cons_self⟩, fun x hx => ?_, .inr (by simp)⟩
  rcases List.mem_append.mp hx with hx | hx
  · simp [h.whole_digits x hx]
  · rcases List.mem_cons.mp hx with rfl | hx
    · simp
    · simp [h.fraction_digits x hx]

/-- So has the scientific notation. -/
theorem isForm_scientific (width : Nat) (lead : Int) : IsForm (scientific width digits lead) := by
  obtain ⟨c, rest, rfl⟩ := List.exists_cons_of_ne_nil hne
  refine ⟨⟨c, rfl, hdigits c List.mem_cons_self⟩, fun x hx => ?_, .inl (by simp [scientific])⟩
  simp only [scientific, List.mem_append, List.mem_cons] at hx
  rcases hx with (hx | hx) | rfl | rfl | hx
  · simp [hdigits x (List.mem_of_mem_take hx)]
  · split at hx
    · cases hx
    · rcases List.mem_cons.mp hx with rfl | hx
      · simp
      · simp [hdigits x (List.mem_of_mem_drop hx)]
  · simp
  · split <;> simp
  · simp [mem_padded hx]

end

/-! ## Reading back -/

section

variable {steps : Nat} (negative : Bool)

/-- Digits and an exponent that make up a number in the interval of a double are read as that
double. -/
theorem ofDecimal_of_roundsTo {n width : Nat} {exponent : Int} (hpos : 0 < steps)
    (hsteps : IsCount steps)
    (h : RoundsTo (n * 10 ^ exponent * one) steps) (hlow : -400 - width ≤ exponent)
    (hhigh : exponent ≤ 400) :
    ofDecimal negative n width exponent = finite negative steps := by
  have hn : n ≠ 0 := by
    rintro rfl
    have hpositive := h.pos hpos hsteps.1
    rw [Nat.cast_zero, zero_mul, zero_mul] at hpositive
    exact absurd hpositive (lt_irrefl 0)
  rw [ofDecimal, if_neg hn, if_neg (by omega), if_neg (by omega)]
  refine nearest_of_roundsTo negative hsteps (Nat.pow_pos (by decide)) ?_
  rw [ten_zpow_eq] at h
  convert h using 1
  push_cast
  ring

/-- The definition as an equation of functions, for the same reason as `shortest_def`. -/
theorem textOfSteps_def : textOfSteps = fun l steps =>
    if steps = 0 then positional ['0'] 0
    else
      let (digits, lead) := shortest steps
      let digits := digits.map digitChar
      if lead < l.low || l.high ≤ lead then scientific l.width digits lead
        else positional digits lead := rfl

/-- The text of a count of steps is that of its shortest digits, in either form. -/
theorem textOfSteps_cases (l : Layout) (hpos : 0 < steps) (hsteps : IsCount steps) : ∃ digits lead,
    Spells steps digits lead ∧
      (textOfSteps l steps = scientific l.width (digits.map digitChar) lead ∨
      textOfSteps l steps = positional (digits.map digitChar) lead) := by
  have hspells := spells_shortest hpos hsteps
  refine ⟨_, _, hspells, ?_⟩
  rw [textOfSteps_def]
  beta_reduce
  rw [if_neg hpos.ne']
  generalize shortest steps = found
  obtain ⟨digits, lead⟩ := found
  dsimp only
  split
  · exact .inl rfl
  · exact .inr rfl

theorem digits_of_spells {digits : List Nat} {lead : Int} (h : Spells steps digits lead) :
    (∀ c ∈ digits.map digitChar, c ∈ asciiDigits) ∧ digits.map digitChar ≠ [] ∧
      placeValue (digits.map digitChar) = valueOf 10 digits := by
  refine ⟨fun c hc => ?_, ?_, placeValue_digitChar h.lt_ten⟩
  · obtain ⟨d, hd, rfl⟩ := List.mem_map.mp hc
    exact (digitChar_eq (h.lt_ten d hd)).1
  · rintro hnil
    rw [List.map_eq_nil_iff] at hnil
    exact absurd h.pos (by simp [hnil])

/-- So has every double that is written. -/
theorem isForm_textOfSteps (l : Layout) (hsteps : IsCount steps) :
    IsForm (textOfSteps l steps) := by
  rcases Nat.eq_zero_or_pos steps with rfl | hpos
  · exact isForm_positional (List.forall_mem_singleton.mpr (by decide)) (List.cons_ne_nil _ _) 0
  · obtain ⟨digits, lead, hspells, heq | heq⟩ := textOfSteps_cases l hpos hsteps
    all_goals
      obtain ⟨hdigits, hne, -⟩ := digits_of_spells hspells
      rw [heq]
    · exact isForm_scientific hdigits hne _ _
    · exact isForm_positional hdigits hne _

/-- The text of a count of steps is read as that count. -/
theorem unsigned?_textOfSteps (l : Layout) (hsteps : IsCount steps) :
    unsigned? negative (textOfSteps l steps) = some (finite negative steps) := by
  rcases Nat.eq_zero_or_pos steps with rfl | hpos
  · have hread : unsigned? negative (textOfSteps l 0) = some (ofDecimal negative 0 2 (-1)) := rfl
    rw [hread, ofDecimal, if_pos rfl]
  · obtain ⟨digits, lead, hspells, hform⟩ := textOfSteps_cases l hpos hsteps
    obtain ⟨hdigits, hne, hvalue⟩ := digits_of_spells hspells
    have hreads : ReadsAs (textOfSteps l steps)
        (placeValue (digits.map digitChar) * 10 ^ (lead + 1 - (digits.map digitChar).length)) := by
      have hlow := hspells.low
      rw [← List.length_map digitChar] at hlow
      rcases hform with heq | heq
      · rw [heq]
        exact readsAs_scientific hdigits hne _ hspells.high hlow
      · rw [heq]
        exact readsAs_positional hdigits hne _
    obtain ⟨n, width, exponent, hread, hx, hlow, hhigh⟩ := hreads negative
    rw [hread, ofDecimal_of_roundsTo negative hpos hsteps ?_ hlow hhigh]
    rw [hx, hvalue, List.length_map, mul_assoc]
    exact hspells.roundsTo

/-- What begins with a digit is the name of no infinity, and is not `nan`. -/
theorem ofPlain?_cons {c : Char} (hc : c ∈ asciiDigits) (s : List Char) :
    ofPlain? (c :: s) = unsigned? false (c :: s) ∧
      ofPlain? ('-' :: c :: s) = unsigned? true (c :: s) := by
  have hfirst : asciiDigits.all
      (fun c => c.toLower != 'i' && c.toLower != 'n' && c != '-' && c != '+') = true := by
    decide
  have hall := List.all_eq_true.mp hfirst c hc
  simp only [Bool.and_eq_true, bne_iff_ne] at hall
  obtain ⟨⟨⟨hi, hn⟩, hminus⟩, hplus⟩ := hall
  have hsign : spanSign (c :: s) = (false, c :: s) := by simp [spanSign, hminus, hplus]
  constructor
  · simp [ofPlain?, hsign, hi, hn]
  · simp [ofPlain?, spanSign, hi, hn]

/-- The characters of a number in either form are read as they are. -/
theorem plain_of_mem : ∀ c ∈ '.' :: 'e' :: '+' :: '-' :: asciiDigits,
    isBlank c = false ∧ plainDigit c = c ∧ c ≠ '_' := by
  have hall : ('.' :: 'e' :: '+' :: '-' :: asciiDigits).all
      (fun c => !isBlank c && plainDigit c == c && c != '_') = true := by
    decide
  intro c hc
  simpa [and_assoc] using List.all_eq_true.mp hall c hc

/-- The text of a double has its sign in front. -/
theorem toList_text (negative : Bool) (steps : Nat) : (text (finite negative steps)).toList =
    (if negative then ['-'] else []) ++ textOfSteps layout steps := by
  rw [text, String.toList_ofList]

end

/-- **The text of a double is read as that double.** -/
theorem ofText?_text {d : Double} (hd : d.Exact) : ofText? d.text.toList = some d := by
  cases d with
  | nan => rfl
  | infinite negative => cases negative <;> rfl
  | finite negative steps =>
    have hsteps := hd negative steps rfl
    have hform := isForm_textOfSteps layout hsteps
    obtain ⟨c, hc, hdigit⟩ := hform.head
    have hplain : ∀ c ∈ (text (finite negative steps)).toList,
        c ∈ '.' :: 'e' :: '+' :: '-' :: asciiDigits := by
      rw [toList_text, List.forall_mem_append]
      refine ⟨?_, hform.chars⟩
      cases negative <;> simp
    rw [ofText?_of_plain fun c hc => plain_of_mem c (hplain c hc), toList_text]
    obtain ⟨s, hs⟩ : ∃ s, textOfSteps layout steps = c :: s := List.head?_eq_some_iff.mp hc
    have hread := unsigned?_textOfSteps negative layout hsteps
    rw [hs] at hread ⊢
    cases negative with
    | false => exact (ofPlain?_cons hdigit s).1.trans hread
    | true => exact (ofPlain?_cons hdigit s).2.trans hread

/-- Different doubles have different texts. -/
theorem eq_of_text_eq {d d' : Double} (hd : d.Exact) (hd' : d'.Exact) (h : d.text = d'.text) :
    d = d' := by
  have hread := ofText?_text hd
  rw [h, ofText?_text hd'] at hread
  exact (Option.some.inj hread).symm

end FormRules.Double
