/-!
# Insertion-ordered tables

A `Table` maps keys to values and remembers the order in which keys were first set. Setting a key
that is there already keeps its place and its first spelling and replaces the value. Keys are
compared by `==`, which may identify keys that are spelled differently.
-/

namespace FormRules

/-- A table: its entries in the order of first insertion. -/
structure Table (κ α : Type) where
  entries : List (κ × α)
deriving Repr

namespace Table

variable {κ α β : Type} [BEq κ]

/-- The table without entries. -/
def empty : Table κ α := ⟨[]⟩

instance : EmptyCollection (Table κ α) := ⟨empty⟩

instance : Inhabited (Table κ α) := ⟨empty⟩

/-- The value that the entries hold for a key. -/
def find (k : κ) : List (κ × α) → Option α
  | [] => none
  | (k', a) :: es => if k' == k then some a else find k es

/-- The entries after a key was set. -/
def put (k : κ) (a : α) : List (κ × α) → List (κ × α)
  | [] => [(k, a)]
  | (k', b) :: es => if k' == k then (k', a) :: es else (k', b) :: put k a es

/-- The value of a key. -/
def get? (t : Table κ α) (k : κ) : Option α := find k t.entries

/-- The key is set. -/
def has (t : Table κ α) (k : κ) : Bool := (t.get? k).isSome

/-- The table with a key set. -/
def set (t : Table κ α) (k : κ) (a : α) : Table κ α := ⟨put k a t.entries⟩

/-- The keys in order. -/
def keys (t : Table κ α) : List κ := t.entries.map Prod.fst

/-- The number of keys. -/
def size (t : Table κ α) : Nat := t.entries.length

/-- All entries of the list set one after the other. -/
def setAll (t : Table κ α) (es : List (κ × α)) : Table κ α :=
  es.foldl (fun t e => t.set e.1 e.2) t

/-- The table of a list of entries, in which later entries win. -/
def ofList (es : List (κ × α)) : Table κ α := (∅ : Table κ α).setAll es

omit [BEq κ] in
/-- The table with each value replaced by its image. -/
def mapValues (f : α → β) (t : Table κ α) : Table κ β := ⟨t.entries.map fun e => (e.1, f e.2)⟩

/-! ## Looking up after setting -/

@[simp] theorem get?_empty (k : κ) : (∅ : Table κ α).get? k = none := rfl

theorem find_put_self [ReflBEq κ] (k : κ) (a : α) (es : List (κ × α)) :
    find k (put k a es) = some a := by
  induction es with
  | nil => simp [put, find]
  | cons e es ih =>
    obtain ⟨k', b⟩ := e
    by_cases h : k' == k
    · simp [put, find, h]
    · simp [put, find, h, ih]

theorem find_put_of_ne [PartialEquivBEq κ] {k k' : κ} (h : (k == k') = false) (a : α)
    (es : List (κ × α)) : find k' (put k a es) = find k' es := by
  induction es with
  | nil => simp [put, find, h]
  | cons e es ih =>
    obtain ⟨k₁, b⟩ := e
    by_cases h₁ : k₁ == k
    · have h₂ : (k₁ == k') = false := by
        rw [← Bool.not_eq_true]
        intro h'
        rw [PartialEquivBEq.trans (PartialEquivBEq.symm h₁) h'] at h
        cases h
      simp [put, find, h₁, h₂]
    · simp [put, find, h₁, ih]

theorem find_put_of_beq [PartialEquivBEq κ] {k k' : κ} (h : k == k') (a : α) (es : List (κ × α)) :
    find k' (put k a es) = some a := by
  induction es with
  | nil => simp [put, find, h]
  | cons e es ih =>
    obtain ⟨k₁, b⟩ := e
    by_cases h₁ : k₁ == k
    · simp [put, find, h₁, BEq.trans h₁ h]
    · have h₂ : ¬ (k₁ == k') := fun h' => h₁ (BEq.trans h' (BEq.symm h))
      simp [put, find, h₁, h₂, ih]

theorem find_congr [PartialEquivBEq κ] {k k' : κ} (h : k == k') (es : List (κ × α)) :
    find k es = find k' es := by
  induction es with
  | nil => rfl
  | cons e es ih =>
    obtain ⟨k₁, b⟩ := e
    by_cases h₁ : k₁ == k
    · simp [find, h₁, BEq.trans h₁ h]
    · have h₂ : ¬ (k₁ == k') := fun h' => h₁ (BEq.trans h' (BEq.symm h))
      simp [find, h₁, h₂, ih]

theorem get?_set_self [ReflBEq κ] (t : Table κ α) (k : κ) (a : α) :
    (t.set k a).get? k = some a :=
  find_put_self k a t.entries

theorem get?_set_of_ne [PartialEquivBEq κ] (t : Table κ α) {k k' : κ} (h : (k == k') = false)
    (a : α) : (t.set k a).get? k' = t.get? k' :=
  find_put_of_ne h a t.entries

/-- A key finds what was set under an equal key last. -/
theorem get?_set [PartialEquivBEq κ] (t : Table κ α) (k k' : κ) (a : α) :
    (t.set k a).get? k' = if k == k' then some a else t.get? k' := by
  by_cases h : k == k'
  · rw [if_pos h]
    exact find_put_of_beq h a t.entries
  · rw [if_neg h]
    exact get?_set_of_ne _ (by simpa using h) a

/-- Equal keys find the same. -/
theorem get?_congr [PartialEquivBEq κ] (t : Table κ α) {k k' : κ} (h : k == k') :
    t.get? k = t.get? k' :=
  find_congr h t.entries

theorem get?_mapValues (f : α → β) (t : Table κ α) (k : κ) :
    (t.mapValues f).get? k = (t.get? k).map f := by
  obtain ⟨es⟩ := t
  induction es with
  | nil => rfl
  | cons e es ih =>
    obtain ⟨k', a⟩ := e
    by_cases h : k' == k
    · simp [mapValues, get?, find, h]
    · simp only [mapValues, get?, List.map_cons, find, h] at ih ⊢
      exact ih

end Table

end FormRules
