/-!
# Sets of characters given by ranges

A `CharSet` is a list of closed ranges of code points. The tables of this folder are written in
this form, so that membership is one pass over a short list.
-/

namespace FormRules

/-- A set of characters: the closed ranges of code points it covers. -/
abbrev CharSet : Type := List (Nat × Nat)

namespace CharSet

/-- The character's code point lies in one of the ranges. -/
def has (s : CharSet) (c : Char) : Bool :=
  s.any fun r => r.1 ≤ c.toNat && c.toNat ≤ r.2

theorem has_iff {s : CharSet} {c : Char} :
    s.has c = true ↔ ∃ r ∈ s, r.1 ≤ c.toNat ∧ c.toNat ≤ r.2 := by
  simp [has]

end CharSet

end FormRules
