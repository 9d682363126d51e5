import FormRules.Message.Template
import Mathlib.Data.List.Infix
import Mathlib.Data.List.TakeWhile

/-!
# What a template says

A placeholder is a number or the word `field` in braces (`Placeholder`). Reading a template takes
every placeholder in it for a piece, and every other character (`Template.Reads`). A text can be
read in one way only, which is how `Template.segments` reads it (`Template.reads_iff`). Two
placeholders never overlap, so none of them is missed (`Template.Reads.mem_iff`).
-/

namespace FormRules

open Text

/-- A placeholder as it is written, and the piece that it is. -/
inductive Placeholder : List Char → Segment → Prop where
  /-- decimal digits of any script, at least one of them -/
  | position {ds : List Char} (hne : ds ≠ []) (hdecimal : ∀ d ∈ ds, isDecimal d = true) :
      Placeholder ('\x7b' :: (ds ++ ['\x7d'])) (.position (ds.filterMap decimalValue?))
  /-- the name of the field -/
  | field : Placeholder ('\x7b' :: ['f', 'i', 'e', 'l', 'd', '\x7d']) .field

namespace Placeholder

variable {w w' s : List Char} {p p' : Segment}

/-- A placeholder has just one opening brace, and that is its first character. -/
theorem exists_cons (h : Placeholder w p) : ∃ t, w = '\x7b' :: t ∧ '\x7b' ∉ t := by
  cases h with
  | @position ds _ hdecimal =>
    refine ⟨_, rfl, fun hmem => ?_⟩
    rcases List.mem_append.mp hmem with hmem | hmem
    · have hbrace : isDecimal '\x7b' = true := hdecimal _ hmem
      exact absurd hbrace (by decide)
    · exact absurd (List.mem_singleton.mp hmem) (by decide)
  | field => exact ⟨_, rfl, by decide⟩

end Placeholder

namespace Template

variable {w w' s t : List Char} {p : Segment} {ps : List Segment} {n : Nat}

/-! ## Single placeholders -/

/-- The digits of a number end where its brace is. -/
theorem takeWhile_digits {ds : List Char} (hdecimal : ∀ d ∈ ds, isDecimal d = true) :
    (ds ++ ('\x7d' :: s)).takeWhile isDecimal = ds := by
  rw [List.takeWhile_append_of_pos hdecimal, List.takeWhile_cons_of_neg (by decide),
    List.append_nil]

/-- The reader finds a placeholder just where one is written. -/
theorem placeholder?_eq_some_iff :
    placeholder? s = some (p, n) ↔ ∃ w, Placeholder ('\x7b' :: w) p ∧ w <+: s ∧ w.length = n := by
  constructor
  · intro h
    unfold placeholder? at h
    extract_lets ds at h
    split at h
    · next hdigits =>
      simp only [Bool.and_eq_true, Bool.not_eq_true', List.isEmpty_eq_false_iff, beq_iff_eq]
        at hdigits
      obtain ⟨hne, hclosed⟩ := hdigits
      cases h
      refine ⟨ds ++ ['\x7d'], .position hne fun d hd => List.mem_takeWhile_imp hd, ?_, by simp⟩
      obtain ⟨rest, hrest⟩ : ∃ rest, s.drop ds.length = '\x7d' :: rest :=
        ⟨_, List.eq_cons_of_mem_head? hclosed⟩
      refine ⟨rest, ?_⟩
      have htake : ds = s.take ds.length := List.prefix_iff_eq_take.mp (List.takeWhile_prefix _)
      rw [List.append_assoc, List.singleton_append, ← hrest]
      nth_rewrite 1 [htake]
      exact List.take_append_drop _ _
    · split at h
      · next hfield =>
        cases h
        exact ⟨_, .field, List.isPrefixOf_iff_prefix.mp hfield, rfl⟩
      · cases h
  · rintro ⟨w, hw, ⟨rest, rfl⟩, rfl⟩
    cases hw with
    | @position ds hne hdecimal =>
      rw [List.append_assoc, List.singleton_append]
      simp [placeholder?, takeWhile_digits hdecimal, hne]
    | field => rfl

/-- At one place there is one placeholder at most. -/
theorem placeholder_unique {p' : Segment} (h : Placeholder w p) (h' : Placeholder w' p')
    (hw : w <+: s)
    (hw' : w' <+: s) : p = p' ∧ w.length = w'.length := by
  obtain ⟨t, rfl, -⟩ := h.exists_cons
  obtain ⟨t', rfl, -⟩ := h'.exists_cons
  obtain ⟨rest, rfl⟩ := hw
  have hprefix : t' <+: t ++ rest := (List.cons_prefix_cons.mp hw').2
  have hfound : placeholder? (t ++ rest) = some (p, t.length) :=
    placeholder?_eq_some_iff.mpr ⟨t, h, List.prefix_append t rest, rfl⟩
  have hfound' : placeholder? (t ++ rest) = some (p', t'.length) :=
    placeholder?_eq_some_iff.mpr ⟨t', h', hprefix, rfl⟩
  obtain ⟨hpiece, hlength⟩ := Prod.mk.inj (Option.some.inj (hfound.symm.trans hfound'))
  exact ⟨hpiece, congrArg (· + 1) hlength⟩

/-! ## Whole templates -/

/-- A text read as a template. -/
inductive Reads : List Char → List Segment → Prop where
  | nil : Reads [] []
  /-- a placeholder is the piece that it stands for -/
  | placeholder {w s : List Char} {p : Segment} {ps : List Segment} (hw : Placeholder w p)
      (h : Reads s ps) : Reads (w ++ s) (p :: ps)
  /-- a character where no placeholder begins stands for itself -/
  | char {c : Char} {s : List Char} {ps : List Segment} (hc : ∀ w p, Placeholder w p →
    ¬w <+: c :: s)
      (h : Reads s ps) : Reads (c :: s) (.char c :: ps)

/-- What is left of a placeholder is passed over. -/
theorem segmentsFrom_skip (k : Nat) (s : List Char) :
    segmentsFrom k s = segmentsFrom 0 (s.drop k) := by
  induction s generalizing k with
  | nil => cases k <;> rfl
  | cons c s ih =>
    cases k with
    | zero => rfl
    | succ k => exact ih k

/-- Every text can be read. -/
theorem exists_reads : ∀ s : List Char, ∃ ps, Reads s ps
  | [] => ⟨[], .nil⟩
  | c :: s => by
    by_cases h : ∃ w p, Placeholder w p ∧ w <+: c :: s
    · obtain ⟨w, p, hw, rest, hrest⟩ := h
      obtain ⟨t, rfl, -⟩ := hw.exists_cons
      have hshorter : rest.length < s.length + 1 := by
        rw [← List.length_cons (a := c), ← hrest, List.length_append, List.length_cons]
        omega
      obtain ⟨ps, hps⟩ := exists_reads rest
      exact ⟨p :: ps, hrest ▸ .placeholder hw hps⟩
    · obtain ⟨ps, hps⟩ := exists_reads s
      exact ⟨.char c :: ps, .char (fun w p hw hprefix => h ⟨w, p, hw, hprefix⟩) hps⟩
termination_by s => s.length

theorem Reads.segmentsFrom_eq (h : Reads s ps) : segmentsFrom 0 s = ps := by
  induction h with
  | nil => rfl
  | @placeholder w s p ps hw h ih =>
    obtain ⟨t, rfl, -⟩ := hw.exists_cons
    have hfound : placeholder? (t ++ s) = some (p, t.length) :=
      placeholder?_eq_some_iff.mpr ⟨t, hw, List.prefix_append t s, rfl⟩
    rw [List.cons_append, segmentsFrom, if_pos rfl, hfound]
    dsimp only
    rw [segmentsFrom_skip, List.drop_left, ih]
  | @char c s ps hc h ih =>
    rw [segmentsFrom]
    by_cases hbrace : c = '\x7b'
    · have hnone : placeholder? s = none := by
        refine Option.eq_none_iff_forall_ne_some.mpr fun found hfound => ?_
        obtain ⟨w, hw, hprefix, -⟩ := placeholder?_eq_some_iff.mp hfound
        exact hc _ _ hw (hbrace ▸ List.cons_prefix_cons.mpr ⟨rfl, hprefix⟩)
      rw [if_pos hbrace, hnone]
      dsimp only
      rw [ih]
    · rw [if_neg hbrace, ih]

/-- **A template is read in one way**, by taking every placeholder as soon as it comes. -/
theorem reads_iff {template : String} : Reads template.toList ps ↔ segments template = ps := by
  refine ⟨Reads.segmentsFrom_eq, ?_⟩
  rintro rfl
  obtain ⟨ps, hps⟩ := exists_reads template.toList
  rwa [segments, hps.segmentsFrom_eq]

/-! ## Placeholders in a template -/

theorem infix_of_infix_append {c : Char} (hc : c ∉ t) (h : c :: w <:+: t ++ s) : c :: w <:+: s := by
  induction t with
  | nil => exact h
  | cons b t ih =>
    rw [List.mem_cons, not_or] at hc
    rcases List.infix_cons_iff.mp h with hprefix | h
    · exact absurd (List.cons_prefix_cons.mp hprefix).1 hc.1
    · exact ih hc.2 h

/-- A placeholder in a template is one of its pieces. -/
theorem Reads.mem_of_occurs (h : Reads s ps) (hw : Placeholder w p) (hinside : w <:+: s) :
    p ∈ ps := by
  obtain ⟨t, rfl, -⟩ := hw.exists_cons
  induction h with
  | nil => exact absurd (List.infix_nil.mp hinside) (List.cons_ne_nil _ _)
  | @placeholder w' s p' ps hw' h ih =>
    obtain ⟨t', rfl, hbrace⟩ := hw'.exists_cons
    rw [List.cons_append, List.infix_cons_iff] at hinside
    rcases hinside with hprefix | hinside
    · obtain ⟨rfl, -⟩ := placeholder_unique hw hw' hprefix (List.prefix_append ('\x7b' :: t') s)
      exact List.mem_cons_self
    · -- no placeholder begins inside another one
      exact List.mem_cons_of_mem _ (ih (infix_of_infix_append hbrace hinside))
  | @char c s ps hc h ih =>
    rcases List.infix_cons_iff.mp hinside with hprefix | hinside
    · exact absurd hprefix (hc _ _ hw)
    · exact List.mem_cons_of_mem _ (ih hinside)

/-- A piece is a placeholder in the template or a character. -/
theorem Reads.occurs_of_mem (h : Reads s ps) (hp : p ∈ ps) :
    (∃ w, Placeholder w p ∧ w <:+: s) ∨ ∃ c, p = .char c := by
  induction h with
  | nil => cases hp
  | @placeholder w s p' ps hw h ih =>
    rcases List.mem_cons.mp hp with rfl | hp
    · exact .inl ⟨w, hw, (List.prefix_append w s).isInfix⟩
    · rcases ih hp with ⟨w', hw', hinside⟩ | hchar
      · exact .inl ⟨w', hw', hinside.trans (List.suffix_append w s).isInfix⟩
      · exact .inr hchar
  | @char c s ps hc h ih =>
    rcases List.mem_cons.mp hp with rfl | hp
    · exact .inr ⟨c, rfl⟩
    · rcases ih hp with ⟨w', hw', hinside⟩ | hchar
      · exact .inl ⟨w', hw', hinside.trans (List.suffix_cons c s).isInfix⟩
      · exact .inr hchar

end Template

end FormRules
