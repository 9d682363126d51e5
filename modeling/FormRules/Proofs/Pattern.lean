import FormRules.Pattern

/-!
# What a pattern takes

`Pattern.fits` looks for a way to cut a text into parts, one for each piece of a pattern. Here it is
said which texts have such parts (`Pattern.Takes`), without a search: a pattern is a concatenation,
and what two patterns take one after the other is what the one takes followed by what the other
takes (`Pattern.takes_append_iff`).

A text fits a pattern just if the pattern takes it, or takes it without one line feed at its end
(`Pattern.fits_iff`).
-/

namespace FormRules

/-- A piece of a pattern takes a part of a text. -/
inductive Piece.Takes : Piece → List Char → Prop
  /-- one character -/
  | one {accepts : Char → Bool} {c : Char} (h : accepts c = true) : Takes (.one accepts) [c]
  /-- no character where there may be one -/
  | none {accepts : Char → Bool} : Takes (.maybe accepts) []
  /-- the character that there may be -/
  | some {accepts : Char → Bool} {c : Char} (h : accepts c = true) : Takes (.maybe accepts) [c]
  /-- any characters of a class -/
  | many {accepts : Char → Bool} {s : List Char} (h : ∀ c ∈ s, accepts c = true) :
      Takes (.many accepts) s

namespace Pattern

/-- The pieces of a pattern take the parts of a text in turn, and nothing is left of it. -/
inductive Takes : List Piece → List Char → Prop
  /-- no pieces, no text -/
  | nil : Takes [] []
  /-- the part of the first piece, and the parts of the others -/
  | cons {p : Piece} {ps : List Piece} {s t : List Char} (hs : p.Takes s) (ht : Takes ps t) :
      Takes (p :: ps) (s ++ t)

variable {p : Piece} {ps qs : List Piece} {accepts : Char → Bool} {s : List Char}

/-! ## Patterns put together -/

@[simp] theorem takes_nil_iff : Takes [] s ↔ s = [] := by
  constructor
  · intro h
    cases h
    rfl
  · rintro rfl
    exact .nil

theorem takes_cons_iff : Takes (p :: ps) s ↔ ∃ a b, s = a ++ b ∧ p.Takes a ∧ Takes ps b := by
  constructor
  · intro h
    cases h with
    | cons ha hb => exact ⟨_, _, rfl, ha, hb⟩
  · rintro ⟨a, b, rfl, ha, hb⟩
    exact .cons ha hb

/-- Two patterns one after the other take two texts one after the other. -/
theorem takes_append_iff : Takes (ps ++ qs) s ↔ ∃ a b, s = a ++ b ∧ Takes ps a ∧ Takes qs b := by
  constructor
  · intro h
    induction ps generalizing s with
    | nil => exact ⟨[], s, rfl, .nil, h⟩
    | cons p ps ih =>
      obtain ⟨a, rest, rfl, ha, hrest⟩ := takes_cons_iff.mp h
      obtain ⟨b, c, rfl, hb, hc⟩ := ih hrest
      exact ⟨a ++ b, c, by simp, .cons ha hb, hc⟩
  · rintro ⟨a, b, rfl, ha, hb⟩
    induction ha with
    | nil => exact hb
    | cons hp _ ih =>
      rw [List.cons_append, List.append_assoc]
      exact .cons hp ih

theorem takes_one_iff :
    Takes (.one accepts :: ps) s ↔ ∃ c t, s = c :: t ∧ accepts c = true ∧ Takes ps t := by
  constructor
  · intro h
    obtain ⟨a, b, rfl, ha, hb⟩ := takes_cons_iff.mp h
    cases ha with
    | one hc => exact ⟨_, b, rfl, hc, hb⟩
  · rintro ⟨c, t, rfl, hc, ht⟩
    exact .cons (s := [c]) (.one hc) ht

theorem takes_maybe_iff : Takes (.maybe accepts :: ps) s ↔
    Takes ps s ∨ ∃ c t, s = c :: t ∧ accepts c = true ∧ Takes ps t := by
  constructor
  · intro h
    obtain ⟨a, b, rfl, ha, hb⟩ := takes_cons_iff.mp h
    cases ha with
    | none => exact .inl hb
    | some hc => exact .inr ⟨_, b, rfl, hc, hb⟩
  · rintro (h | ⟨c, t, rfl, hc, ht⟩)
    · exact .cons (s := []) .none h
    · exact .cons (s := [c]) (.some hc) ht

/-- A class of characters, at the end of a pattern. -/
theorem takes_many_iff : Takes [.many accepts] s ↔ ∀ c ∈ s, accepts c = true := by
  constructor
  · intro h
    obtain ⟨a, b, rfl, ha, hb⟩ := takes_cons_iff.mp h
    rw [takes_nil_iff.mp hb, List.append_nil]
    cases ha with
    | many hs => exact hs
  · intro h
    have htakes : Takes [.many accepts] (s ++ []) := .cons (.many h) .nil
    rwa [List.append_nil] at htakes

/-- At least one character of a class: a text that is not empty, and has no others. -/
theorem takes_atLeastOne_iff :
    Takes (atLeastOne accepts) s ↔ s ≠ [] ∧ ∀ c ∈ s, accepts c = true := by
  rw [atLeastOne, takes_one_iff]
  constructor
  · rintro ⟨c, t, rfl, hc, ht⟩
    exact ⟨List.cons_ne_nil c t, List.forall_mem_cons.mpr ⟨hc, takes_many_iff.mp ht⟩⟩
  · rintro ⟨hne, h⟩
    obtain ⟨c, t, rfl⟩ := List.exists_cons_of_ne_nil hne
    obtain ⟨hc, ht⟩ := List.forall_mem_cons.mp h
    exact ⟨c, t, rfl, hc, takes_many_iff.mpr ht⟩

/-! ## The search -/

/-- Characters of a class and then a rest, wherever the rest begins. -/
theorem fitsMany_iff {rest : List Char → Bool} : fitsMany accepts rest s = true ↔
    ∃ a b, s = a ++ b ∧ (∀ c ∈ a, accepts c = true) ∧ rest b = true := by
  induction s with
  | nil =>
    constructor
    · intro h
      exact ⟨[], [], rfl, List.forall_mem_nil _, h⟩
    · rintro ⟨a, b, hs, -, hb⟩
      obtain ⟨-, rfl⟩ := List.append_eq_nil_iff.mp hs.symm
      exact hb
  | cons c s ih =>
    rw [fitsMany, Bool.or_eq_true, Bool.and_eq_true, ih]
    constructor
    · rintro (h | ⟨hc, a, b, rfl, ha, hb⟩)
      · exact ⟨[], c :: s, rfl, List.forall_mem_nil _, h⟩
      · exact ⟨c :: a, b, rfl, List.forall_mem_cons.mpr ⟨hc, ha⟩, hb⟩
    · rintro ⟨a, b, hs, ha, hb⟩
      cases a with
      | nil =>
        left
        rw [hs]
        exact hb
      | cons d a =>
        obtain ⟨rfl, rfl⟩ := List.cons.inj hs
        obtain ⟨hc, ha⟩ := List.forall_mem_cons.mp ha
        exact .inr ⟨hc, a, b, rfl, ha, hb⟩

/-- The first piece takes a part of the text, and what is left fits the others. -/
theorem fits_cons_iff :
    fits (p :: ps) s = true ↔ ∃ a b, s = a ++ b ∧ p.Takes a ∧ fits ps b = true := by
  cases p with
  | one accepts =>
    constructor
    · intro h
      cases s with
      | nil => simp [fits] at h
      | cons c t =>
        obtain ⟨hc, ht⟩ : accepts c = true ∧ fits ps t = true := by simpa [fits] using h
        exact ⟨[c], t, rfl, .one hc, ht⟩
    · rintro ⟨a, b, rfl, ha, hb⟩
      cases ha with
      | one hc => simp [fits, hc, hb]
  | maybe accepts =>
    constructor
    · intro h
      cases s with
      | nil =>
        have hrest : fits ps [] = true := by simpa [fits] using h
        exact ⟨[], [], rfl, .none, hrest⟩
      | cons c t =>
        have hcases : fits ps (c :: t) = true ∨ accepts c = true ∧ fits ps t = true := by
          simpa [fits] using h
        rcases hcases with hrest | ⟨hc, ht⟩
        · exact ⟨[], c :: t, rfl, .none, hrest⟩
        · exact ⟨[c], t, rfl, .some hc, ht⟩
    · rintro ⟨a, b, rfl, ha, hb⟩
      cases ha with
      | none => simp [fits, hb]
      | some hc => simp [fits, hc, hb]
  | many accepts =>
    rw [fits, fitsMany_iff]
    constructor
    · rintro ⟨a, b, rfl, ha, hb⟩
      exact ⟨a, b, rfl, .many ha, hb⟩
    · rintro ⟨a, b, rfl, ha, hb⟩
      cases ha with
      | many ha => exact ⟨a, b, rfl, ha, hb⟩

/-- **A text fits a pattern** just if the pattern takes it, or takes it without a final line
feed. -/
theorem fits_iff : fits ps s = true ↔ Takes ps s ∨ ∃ t, s = t ++ ['\n'] ∧ Takes ps t := by
  induction ps generalizing s with
  | nil => simp [fits]
  | cons p ps ih =>
    rw [fits_cons_iff]
    constructor
    · rintro ⟨a, b, rfl, ha, hb⟩
      rcases ih.mp hb with hb | ⟨t, rfl, ht⟩
      · exact .inl (.cons ha hb)
      · exact .inr ⟨a ++ t, by simp, .cons ha ht⟩
    · rintro (h | ⟨t, rfl, h⟩)
      · obtain ⟨a, b, rfl, ha, hb⟩ := takes_cons_iff.mp h
        exact ⟨a, b, rfl, ha, ih.mpr (.inl hb)⟩
      · obtain ⟨a, b, rfl, ha, hb⟩ := takes_cons_iff.mp h
        exact ⟨a, b ++ ['\n'], by simp, ha, ih.mpr (.inr ⟨b, rfl, hb⟩)⟩

/-- `fits_iff` on strings. -/
theorem fits_toList_iff {s : String} : fits ps s.toList = true ↔
    Takes ps s.toList ∨ ∃ t : String, s = t ++ "\n" ∧ Takes ps t.toList := by
  rw [fits_iff]
  refine or_congr_right ⟨?_, ?_⟩
  · rintro ⟨t, hs, ht⟩
    refine ⟨String.ofList t, ?_, ?_⟩
    · rw [← String.toList_inj, hs, String.toList_append, String.toList_ofList]
      rfl
    · rwa [String.toList_ofList]
  · rintro ⟨t, rfl, ht⟩
    exact ⟨t.toList, String.toList_append, ht⟩

end Pattern

end FormRules
