import FormRules.Proofs.Pattern
import FormRules.Proofs.Predicate.Outcome

/-!
# Classes of characters

The predicates `alpha`, `alphaDash`, `alphaNum` and `alphaDashNum` are patterns: at least one
character, and all of one class. The classes are those of ASCII (`Catalog.characterClasses`), so a
letter that only looks like one of them does not pass.

A text that is not blank passes just if all its characters are in the class, or all but one line
feed at its end (`Catalog.passes_class_iff`). A final line feed is in none of the classes, and
passes all the same (`FinalLineFeed.line_feed_passes`).
-/

namespace FormRules

open Text

namespace Predicate

variable {c : Char} {s : String}

theorem isLetter_eq_isAlpha (c : Char) : isLetter c = c.isAlpha := by
  have hupper : (decide ('A' ≤ c) && decide (c ≤ 'Z')) = c.isUpper := (Bool.decide_and _ _).symm
  rw [isLetter, hupper]
  exact Bool.or_comm c.isLower c.isUpper

theorem isAlphanumeric_eq_isAlphanum (c : Char) : isAlphanumeric c = c.isAlphanum := by
  rw [isAlphanumeric, isLetter_eq_isAlpha]
  rfl

/-- A text that is not blank is matched as it stands. -/
theorem ofPattern_text (hs : isBlankText s.toList = false) (pattern : List Piece) :
    ofPattern pattern (.text s) [] = pure (Pattern.fits pattern s.toList) := by
  have hvalue : (Value.text s).isEmpty = false := hs
  simp only [ofPattern, hvalue, Bool.false_eq_true, if_false]
  rfl

end Predicate

open Predicate

/-- A text of one class, or of one class but for a line feed at its end. -/
theorem Pattern.fits_atLeastOne_iff {accepts : Char → Bool} {s : String}
    (hs : isBlankText s.toList = false) : fits (atLeastOne accepts) s.toList = true ↔
      (∀ c ∈ s.toList, accepts c = true) ∨ ∃ t :
        String, s = t ++ "\n" ∧ ∀ c ∈ t.toList, accepts c = true := by
  have hne : s.toList ≠ [] := by
    intro h
    rw [h] at hs
    cases hs
  rw [fits_toList_iff, takes_atLeastOne_iff, and_iff_right hne]
  refine or_congr_right (exists_congr fun t => and_congr_right fun ht => ?_)
  rw [takes_atLeastOne_iff]
  refine and_iff_right fun hnil => ?_
  -- a line feed alone would be blank
  rw [ht, String.toList_append, hnil] at hs
  exact absurd hs (by decide)

namespace Catalog

/-- The predicates for classes of characters, with the classes. -/
def characterClasses : List (String × (Char → Bool)) :=
  [("alpha", Char.isAlpha),
    ("alphaDash", fun c => c.isAlpha || (c == '-' || c == '_')),
    ("alphaNum", Char.isAlphanum),
    ("alphaDashNum", fun c => c.isAlphanum || (c == '-' || c == '_'))]

/-- Each of them matches a text of at least one character of its class. -/
theorem resolve_of_mem_characterClasses {name : String} {accepts : Char → Bool}
    (hclass : (name, accepts) ∈ characterClasses) : ∃ description,
      builtins.resolve name =
        some (plain name (ofPattern (Pattern.atLeastOne accepts)) description) := by
  have hletter : isLetter = Char.isAlpha := funext isLetter_eq_isAlpha
  have halphanumeric : isAlphanumeric = Char.isAlphanum := funext isAlphanumeric_eq_isAlphanum
  simp only [characterClasses, List.mem_cons, Prod.mk.injEq, List.not_mem_nil, or_false] at hclass
  rcases hclass with ⟨rfl, rfl⟩ | ⟨rfl, rfl⟩ | ⟨rfl, rfl⟩ | ⟨rfl, rfl⟩
  · rw [← hletter]
    exact ⟨_, rfl⟩
  · rw [← hletter]
    exact ⟨_, rfl⟩
  · rw [← halphanumeric]
    exact ⟨_, rfl⟩
  · rw [← halphanumeric]
    exact ⟨_, rfl⟩

/-- **A text passes a predicate for a class of characters** just if it is of this class, or is so
without one line feed at its end. -/
theorem passes_class_iff {name : String} {accepts : Char → Bool}
    (hclass : (name, accepts) ∈ characterClasses) {s : String} (hs : isBlankText s.toList = false)
    (context : Option Context) : ∃ d passes, builtins.resolve name = some d ∧
      d.call (.text s) [] context = pure passes ∧
        (passes = true ↔ (∀ c ∈ s.toList, accepts c = true) ∨
          ∃ t : String, s = t ++ "\n" ∧ ∀ c ∈ t.toList, accepts c = true) := by
  obtain ⟨description, hresolve⟩ := resolve_of_mem_characterClasses hclass
  refine ⟨_, Pattern.fits (Pattern.atLeastOne accepts) s.toList, hresolve, ?_,
    Pattern.fits_atLeastOne_iff hs⟩
  rw [call_plain, ofPattern_text hs]

end Catalog

namespace FinalLineFeed

open Catalog

/-- A name of letters and an underscore passes, and one with a letter of another alphabet does
not. -/
theorem alphaDash_of_names :
    (∃ d passes, builtins.resolve "alphaDash" = some d ∧
      d.call (.text "first_name") [] none = pure passes ∧ passes = true) ∧
    ∃ d passes, builtins.resolve "alphaDash" = some d ∧
      d.call (.text "fırst_name") [] none = pure passes ∧ passes = false := by
  have hclass : ("alphaDash", fun c : Char => c.isAlpha || (c == '-' || c == '_')) ∈
      characterClasses :=
    .tail _ (.head _)
  constructor
  · obtain ⟨d, passes, hresolve, hcall, hpasses⟩ :=
      passes_class_iff hclass (s := "first_name") (by decide +kernel) none
    exact ⟨d, passes, hresolve, hcall, hpasses.mpr (.inl (List.all_eq_true.mp (by decide +kernel)))⟩
  · obtain ⟨d, passes, hresolve, hcall, hpasses⟩ :=
      passes_class_iff hclass (s := "fırst_name") (by decide +kernel) none
    refine ⟨d, passes, hresolve, hcall, Bool.eq_false_iff.mpr fun htrue => ?_⟩
    rcases hpasses.mp htrue with hall | ⟨t, ht, -⟩
    · exact absurd (hall 'ı' (by decide +kernel)) (by decide +kernel)
    · have hlast := congrArg (fun s => s.toList.getLast?) ht
      simp [String.toList_append, List.getLast?_append] at hlast

/-- **A line feed at the end of a text passes**, although it is no letter. -/
theorem line_feed_passes : ¬∀ name accepts, (name, accepts) ∈ characterClasses →
    ∀ s : String, isBlankText s.toList = false → ∀ context : Option Context,
      ∃ d passes, builtins.resolve name = some d ∧ d.call (.text s) [] context = pure passes ∧
        (passes = true ↔ ∀ c ∈ s.toList, accepts c = true) := by
  intro h
  obtain ⟨d, passes, hresolve, hcall, hpasses⟩ :=
    h "alpha" Char.isAlpha (.head _) "abc\n" (by decide +kernel) none
  obtain rfl := Option.some.inj hresolve
  have hline : (plain "alpha" alpha "Letters only.").call (.text "abc\n") [] none = pure true := rfl
  obtain rfl : true = passes := by
    have hresult := hline.symm.trans hcall
    cases hresult
    rfl
  exact absurd (hpasses.mp rfl '\n' (by decide +kernel)) (by decide +kernel)

end FinalLineFeed

end FormRules
