import FormRules.Proofs.Value.Equality
import FormRules.Value.Text

/-!
# Values that cannot be written

The only thing that is in the way of writing a value is a whole number in it that has too many
digits (`Value.Long`). A computation that does nothing but write values therefore fails under a
condition on the values, and for one fault (`LongIf`).
-/

namespace FormRules

variable {α β : Type} {c d : Prop}

/-- The attempt fails just under a condition, and then for too many digits. -/
def LongIf (c : Prop) (x : Attempt α) : Prop :=
  ∀ fault, x = .error fault ↔ fault = .tooManyDigits ∧ c

namespace LongIf

variable {x : Attempt α}

theorem congr (h : LongIf c x) (hc : c ↔ d) : LongIf d x :=
  fun fault => (h fault).trans (and_congr_right fun _ => hc)

theorem ok (a : α) (hc : ¬c) : LongIf c (.ok a : Attempt α) := by
  intro fault
  simp [hc]

theorem isOk_iff (h : LongIf c x) : x.isOk = true ↔ ¬c := by
  cases x with
  | ok a =>
    have hc : ¬c := fun hc => nomatch (h .tooManyDigits).mpr ⟨rfl, hc⟩
    exact ⟨fun _ => hc, fun _ => rfl⟩
  | error fault =>
    have hc : c := ((h fault).mp rfl).2
    exact ⟨nofun, fun hn => absurd hc hn⟩

/-- An attempt that fails on long numbers only has a result elsewhere. -/
theorem exists_ok (h : LongIf c x) (hc : ¬c) : ∃ a, x = .ok a := by
  cases x with
  | ok a => exact ⟨a, rfl⟩
  | error fault => exact absurd ((h fault).mp rfl).2 hc

/-- Two attempts one after the other fail if one of them meets a number that is too long. -/
theorem bind {f : α → Attempt β} (hx : LongIf c x) (hf : ∀ a, LongIf d (f a)) :
    LongIf (c ∨ d) (x >>= f) := by
  intro fault
  cases x with
  | error e =>
    obtain ⟨rfl, hc⟩ := (hx e).mp rfl
    simp [Bind.bind, Except.bind, hc, eq_comm]
  | ok a =>
    have hc : ¬c := fun hc => nomatch (hx .tooManyDigits).mpr ⟨rfl, hc⟩
    rw [or_iff_right hc]
    exact hf a fault

/-- What is done with the result does not fail. -/
theorem bind_ok {f : α → Attempt β} (hx : LongIf c x) (hf : ∀ a, ∃ b, f a = .ok b) :
    LongIf c (x >>= f) := by
  refine (hx.bind fun a => ?_).congr (or_false c).to_iff
  obtain ⟨b, hb⟩ := hf a
  rw [hb]
  exact .ok b id

theorem map {f : α → β} (hx : LongIf c x) : LongIf c (do return f (← x)) :=
  hx.bind_ok fun a => ⟨f a, rfl⟩

/-- A list of attempts fails if one of its items meets a number that is too long. -/
theorem mapM {f : α → Attempt β} {p : α → Prop} {xs : List α} (hf : ∀ a ∈ xs, LongIf (p a) (f a)) :
    LongIf (∃ a ∈ xs, p a) (xs.mapM f) := by
  induction xs with
  | nil => exact .ok [] (by simp)
  | cons a xs ih =>
    rw [List.mapM_cons]
    have hrest := ih fun b hb => hf b (List.mem_cons_of_mem a hb)
    exact ((hf a List.mem_cons_self).bind fun b => hrest.map).congr (by simp)

end LongIf

/-- An integer has a text unless it has too many digits. -/
theorem intText_longIf (i : Int) : LongIf (Nat.pow 10 maxDigits ≤ i.natAbs) (intText i) := by
  intro fault
  unfold intText
  generalize Nat.pow 10 maxDigits = bound
  split
  · next h => simp [Nat.not_le.mpr h]
  · next h => simp [Nat.not_lt.mp h, eq_comm]

namespace Value

/-- A whole number with too many digits to be written stands in the value. -/
inductive Long : Value → Prop where
  | int {i : Int} (h : Nat.pow 10 maxDigits ≤ i.natAbs) : Long (.int i)
  | part {v x : Value} (hx : x ∈ v.parts) (h : Long x) : Long v

/-- A value other than an integer is too long if a part of it is. -/
theorem long_iff_parts {v : Value} (hv : ∀ i, v ≠ .int i) : v.Long ↔ ∃ x ∈ v.parts, x.Long := by
  constructor
  · rintro (⟨-⟩ | ⟨hx, h⟩)
    · exact absurd rfl (hv _)
    · exact ⟨_, hx, h⟩
  · rintro ⟨x, hx, h⟩
    exact .part hx h

/-- An integer is too long if it has too many digits. -/
theorem long_int_iff {i : Int} : (int i).Long ↔ Nat.pow 10 maxDigits ≤ i.natAbs := by
  constructor
  · rintro (⟨h⟩ | ⟨hx, -⟩)
    · exact h
    · cases hx
  · exact .int

/-- The least number that is too long. -/
theorem long_pow : (int (Nat.pow 10 maxDigits)).Long :=
  long_int_iff.mpr (Nat.le_of_eq (Int.natAbs_natCast _).symm)

theorem long_list_iff {xs : List Value} : (list xs).Long ↔ ∃ x ∈ xs, x.Long :=
  long_iff_parts (by simp)

theorem long_tuple_iff {xs : List Value} : (tuple xs).Long ↔ ∃ x ∈ xs, x.Long :=
  long_iff_parts (by simp)

theorem long_set_iff {xs : List Value} : (set xs).Long ↔ ∃ x ∈ xs, x.Long :=
  long_iff_parts (by simp)

theorem long_map_iff {es : List (Value × Value)} :
    (map es).Long ↔ ∃ e ∈ es, e.1.Long ∨ e.2.Long := by
  rw [long_iff_parts (by simp)]
  simp only [parts, List.mem_append, List.mem_map]
  constructor
  · rintro ⟨x, ⟨e, he, rfl⟩ | ⟨e, he, rfl⟩, h⟩
    · exact ⟨e, he, .inl h⟩
    · exact ⟨e, he, .inr h⟩
  · rintro ⟨e, he, h | h⟩
    · exact ⟨e.1, .inl ⟨e, he, rfl⟩, h⟩
    · exact ⟨e.2, .inr ⟨e, he, rfl⟩, h⟩

/-- A value without parts is not too long, unless it is an integer. -/
theorem not_long {v : Value} (hv : ∀ i, v ≠ int i) (hparts : v.parts = []) : ¬v.Long := by
  rw [long_iff_parts hv, hparts]
  exact nofun

/-- A text has no number in it that could be too long. -/
theorem not_long_text (s : String) : ¬(text s).Long := not_long (by simp) rfl

/-- The items of a list can be written if none of them is too long. -/
theorem literals_longIf {xs : List Value} (h : ∀ x ∈ xs, LongIf x.Long x.literal) :
    LongIf (∃ x ∈ xs, x.Long) (literals xs) := by
  induction xs with
  | nil => exact .ok [] (by simp)
  | cons x xs ih =>
    have hrest := ih fun y hy => h y (List.mem_cons_of_mem x hy)
    exact ((h x List.mem_cons_self).bind fun s => hrest.map).congr (by simp)

/-- The entries of a mapping can be written if no key and no value is too long. -/
theorem entryLiterals_longIf {es : List (Value × Value)}
    (h : ∀ e ∈ es, LongIf e.1.Long e.1.literal ∧ LongIf e.2.Long e.2.literal) :
    LongIf (∃ e ∈ es, e.1.Long ∨ e.2.Long) (entryLiterals es) := by
  induction es with
  | nil => exact .ok [] (by simp)
  | cons e es ih =>
    obtain ⟨hkey, hvalue⟩ := h e List.mem_cons_self
    have hrest := ih fun e' he' => h e' (List.mem_cons_of_mem e he')
    refine (hkey.bind fun s => hvalue.bind fun t => hrest.map).congr ?_
    simp [or_assoc]

/-- A value has a literal unless a number in it is too long. -/
theorem literal_longIf (v : Value) : LongIf v.Long v.literal := by
  induction v using induct with
  | h v ih =>
    cases v with
    | int i => exact (intText_longIf i).congr long_int_iff.symm
    | list xs => exact (literals_longIf ih).map.congr long_list_iff.symm
    | tuple xs =>
      refine ((literals_longIf ih).bind_ok fun ss => ?_).congr long_tuple_iff.symm
      split
      · exact ⟨_, rfl⟩
      · exact ⟨_, rfl⟩
    | set xs =>
      refine ((literals_longIf ih).bind_ok fun ss => ?_).congr long_set_iff.symm
      split
      · exact ⟨_, rfl⟩
      · exact ⟨_, rfl⟩
    | map es =>
      have hliterals := entryLiterals_longIf fun e he =>
        ⟨ih e.1 (mem_parts_of_entry he).1, ih e.2 (mem_parts_of_entry he).2⟩
      exact hliterals.map.congr long_map_iff.symm
    | _ => exact .ok _ (not_long (by simp) rfl)

/-- A value has a text unless a number in it is too long. -/
theorem toText_longIf (v : Value) : LongIf v.Long v.toText := by
  cases v with
  | text | date | moment => exact .ok _ (not_long (by simp) rfl)
  | _ => exact literal_longIf _

end Value

end FormRules
