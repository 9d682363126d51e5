import FormRules.Yaml.Scalar.Value

/-!
# Scalars that spell no value

Under its tag the text of a scalar may spell no value. Bytes that are none are malformed; for the
other kinds of scalars there are five faults (`spellingKinds`), and no others are met on the way
through signs, digits, bases and places (`Spelt`).
-/

namespace FormRules.Yaml

/-- The faults that the text of a scalar can have. -/
def spellingKinds : List Fault :=
  [.notATruthValue, .emptyScalar, .badScalar, .beyondDoubles, .notATimestamp]

/-- The attempt fails for the spelling of a scalar only. -/
def Spelt {α : Type} (x : Attempt α) : Prop := ∀ fault, x = .error fault → fault ∈ spellingKinds

namespace Spelt

variable {α β : Type}

theorem ok (a : α) : Spelt (.ok a) := nofun

/-- A fault of the spelling kinds is one that an attempt at spelling may come to. -/
theorem error {fault : Fault} (h : fault ∈ spellingKinds) : Spelt (.error fault : Attempt α) := by
  intro f hf
  cases hf
  exact h

/-- Two attempts one after the other fail as either does. -/
theorem bind {x : Attempt α} {f : α → Attempt β} (hx : Spelt x) (hf : ∀ a, Spelt (f a)) :
    Spelt (x >>= f) := by
  cases x with
  | ok a => exact hf a
  | error fault => exact .error (hx fault rfl)

theorem ite {c : Prop} [Decidable c] {x y : Attempt α} (hx : Spelt x) (hy : Spelt y) :
    Spelt (if c then x else y) := by
  split
  · exact hx
  · exact hy

/-- A list of attempts fails as its items do. -/
theorem mapM {f : α → Attempt β} (h : ∀ a, Spelt (f a)) (as : List α) : Spelt (as.mapM f) := by
  induction as with
  | nil => exact .ok []
  | cons a as ih =>
    rw [List.mapM_cons]
    exact (h a).bind fun _ => ih.bind fun _ => .ok _

theorem map {f : α → β} {x : Attempt α} (hx : Spelt x) : Spelt (x.map f) := by
  cases x with
  | ok a => exact .ok (f a)
  | error fault => exact .error (hx fault rfl)

/-- What is told of an attempt is its fault. -/
theorem ofAttempt {x : Attempt α} (hx : Spelt x) {fault : Fault}
    (h : ofAttempt x = .error (.fault fault)) : fault ∈ spellingKinds := by
  cases x with
  | ok a => cases h
  | error f =>
    cases h
    exact hx fault rfl

/-- A word for a truth value is spelt or not. -/
theorem truthValue (s : List Char) : Spelt (truthValue s) := by
  unfold Yaml.truthValue
  split
  · exact .ok _
  · exact .error (by decide)

theorem signed (s : List Char) : Spelt (signed s) := by
  unfold Yaml.signed
  split
  · exact .error (by decide)
  · exact .ok _

/-- A reader that finds nothing tells that the text is not spelt. -/
theorem read (reader : List Char → Option α) (s : List Char) : Spelt (read reader s) := by
  unfold Yaml.read
  split
  · exact .ok _
  · exact .error (by decide)

/-- A whole number is spelt in one of its bases. -/
theorem unsignedWhole (s : List Char) : Spelt (unsignedWhole s) := by
  unfold Yaml.unsignedWhole
  split
  · exact .error (by decide)
  · exact .ok _
  · exact .read _ _
  · exact .read _ _
  · exact .read _ _
  · exact (mapM (.read _) _).bind fun _ => .ok _

theorem wholeNumber (s : List Char) : Spelt (wholeNumber s) :=
  (signed s).bind fun r => (unsignedWhole r.2).bind fun _ => .ok _

/-- The weight of a place may be beyond the doubles. -/
theorem placeWeight (weight : Nat) : Spelt (placeWeight weight) := by
  unfold Yaml.placeWeight
  generalize Double.ofInt? weight = w
  cases w with
  | some w => exact .ok w
  | none => exact .error (by decide)

/-- So may the sum of the places be. -/
theorem sumPlaces (sum : Double) (weight : Nat) (ds : List Double) :
    Spelt (sumPlaces sum weight ds) := by
  induction ds generalizing sum weight with
  | nil => exact .ok sum
  | cons d ds ih => exact (placeWeight weight).bind fun _ => ih _ _

theorem unsignedNumber (s : List Char) : Spelt (unsignedNumber s) := by
  unfold Yaml.unsignedNumber
  refine .ite (.ok _) (.ite (.ok _) ?_)
  split
  · exact .read _ _
  · exact (mapM (.read _) _).bind fun _ => sumPlaces _ _ _

/-- A number with a fraction is spelt or not. -/
theorem number (s : List Char) : Spelt (number s) :=
  (signed _).bind fun r => (unsignedNumber r.2).bind fun _ => .ok _

/-- A timestamp is spelt, and may name a day that is not in the calendar. -/
theorem timestamp (s : List Char) : Spelt (timestamp s) := by
  unfold Yaml.timestamp
  split
  · exact .error (by decide)
  · split
    · exact .ok _
    · exact .ite (.ok _) (.error (by decide))
    · exact .error (by decide)

end Spelt

/-- A scalar that is not malformed has one of a few faults. -/
theorem spelling_of_scalarValue {tag : Tag} {s : List Char} {fault : Fault}
    (h : scalarValue tag s = .error (.fault fault)) : fault ∈ spellingKinds := by
  unfold scalarValue at h
  split at h
  · cases h
  · exact (Spelt.truthValue s).map.ofAttempt h
  · exact (Spelt.wholeNumber s).map.ofAttempt h
  · exact (Spelt.number s).map.ofAttempt h
  · unfold binary at h
    split at h
    · split at h <;> cases h
    · cases h
  · exact (Spelt.timestamp s).ofAttempt h
  · cases h
  · cases h

end FormRules.Yaml
