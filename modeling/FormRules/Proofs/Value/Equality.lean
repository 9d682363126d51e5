import FormRules.Value.Basic
import Mathlib.Data.List.Forall2

/-!
# Equality of values

Equality of values crosses kinds (`1` is equal to `1.0` and to `true`), and not every value is equal
to itself. It still is symmetric and transitive, which is what tables need to find a value under
every key that is equal to the one it was set under (`Table.get?_set`).
-/

namespace FormRules

namespace Double

/-- Equality of doubles does not depend on the order. -/
theorem equal_comm (x y : Double) : x.equal y = y.equal x := Bool.and_comm _ _

/-- What is below a double is below everything above it; `nan` is in no such order. -/
theorem le_trans {x y z : Double} (hxy : x.le y) (hyz : y.le z) : x.le z := by
  rcases x with _ | (_ | _) | ⟨s, m⟩ <;> rcases y with _ | (_ | _) | ⟨t, n⟩ <;>
    rcases z with _ | (_ | _) | ⟨u, k⟩ <;>
      first | rfl | exact absurd hxy Bool.false_ne_true | exact absurd hyz Bool.false_ne_true | skip
  rw [finite_le_finite, decide_eq_true_iff] at hxy hyz ⊢
  exact Int.le_trans hxy hyz

/-- Doubles that are equal to the same double are equal. -/
theorem equal_trans {x y z : Double} (hxy : x.equal y) (hyz : y.equal z) : x.equal z := by
  unfold equal at hxy hyz ⊢
  rw [Bool.and_eq_true] at hxy hyz ⊢
  exact ⟨le_trans hxy.1 hyz.1, le_trans hyz.2 hxy.2⟩

end Double

namespace Value

/-! ## What equality looks at -/

/-- Lists are the same if they are of one length, and the same item by item. -/
theorem sameItems_iff (xs ys : List Value) :
    sameItems xs ys ↔ List.Forall₂ (fun x y => x.same y = true) xs ys := by
  induction xs generalizing ys with
  | nil => cases ys <;> simp [sameItems]
  | cons x xs ih => cases ys <;> simp [sameItems, ih]

/-- The two entries are equal. -/
def sameEntry (e f : Value × Value) : Bool := e.1.same f.1 && e.2.same f.2

/-- All entries of the one mapping have a partner in the other. -/
theorem entriesIn_iff (es fs : List (Value × Value)) :
    entriesIn es fs ↔ ∀ e ∈ es, ∃ f ∈ fs, sameEntry e f := by
  induction es with
  | nil => simp [entriesIn]
  | cons e es ih => simp [entriesIn, ih, sameEntry]

theorem entryIn_iff (es : List (Value × Value)) (f : Value × Value) :
    entryIn es f ↔ ∃ e ∈ es, sameEntry e f := by
  induction es with
  | nil => simp [entryIn]
  | cons e es ih => simp [entryIn, ih, sameEntry]

/-- All members of the one set have a partner in the other. -/
theorem membersIn_iff (xs ys : List Value) :
    membersIn xs ys ↔ ∀ x ∈ xs, ∃ y ∈ ys, x.same y := by
  induction xs with
  | nil => simp [membersIn]
  | cons x xs ih => simp [membersIn, ih]

/-- Each of the items is related to one of the others, and the other way round. -/
def Mutual {α : Type} (R : α → α → Prop) (xs ys : List α) : Prop :=
  (∀ x ∈ xs, ∃ y ∈ ys, R x y) ∧ ∀ y ∈ ys, ∃ x ∈ xs, R x y

/-- What it takes for two values to be equal. -/
inductive Same : Value → Value → Prop where
  | null : Same .null .null
  | text (s : String) : Same (.text s) (.text s)
  | list {xs ys : List Value} (h : List.Forall₂ (fun x y => x.same y = true) xs ys) :
    Same (.list xs) (.list ys)
  | tuple {xs ys : List Value} (h : List.Forall₂ (fun x y => x.same y = true) xs ys) :
    Same (.tuple xs) (.tuple ys)
  | map {es fs : List (Value × Value)} (h : Mutual (fun e f => sameEntry e f = true) es fs) :
    Same (.map es) (.map fs)
  | set {xs ys : List Value} (h : Mutual (fun x y => x.same y = true) xs ys) :
    Same (.set xs) (.set ys)
  | date (d : Date) : Same (.date d) (.date d)
  | moment {m n : Moment} (h : sameMoment m n) : Same (.moment m) (.moment n)
  | bytes (bs : List Nat) : Same (.bytes bs) (.bytes bs)
  | number {a b : Value} {x y : Double} (ha : a.number? = some x) (hb : b.number? = some y)
    (h : x.equal y) : Same a b

/-- Mappings are the same if each entry of the one has a partner in the other. -/
theorem same_map_iff (es fs : List (Value × Value)) :
    (map es).same (map fs) ↔ Mutual (fun e f => sameEntry e f = true) es fs := by
  change (entriesIn es fs && fs.all fun f => entryIn es f) = true ↔ _
  rw [Bool.and_eq_true, entriesIn_iff, List.all_eq_true]
  simp only [entryIn_iff]
  rfl

/-- Sets are the same if each member of the one has a partner in the other. -/
theorem same_set_iff (xs ys : List Value) :
    (set xs).same (set ys) ↔ Mutual (fun x y => x.same y = true) xs ys := by
  change (membersIn xs ys && ys.all fun y => memberIn xs y) = true ↔ _
  rw [Bool.and_eq_true, membersIn_iff, List.all_eq_true]
  simp only [memberIn_eq_any, List.any_eq_true]
  rfl

/-- Values that are equal are so for one of the reasons. -/
theorem Same.of_same {a b : Value} (h : a.same b) : Same a b := by
  -- values of different kinds are equal as numbers or not at all
  cases a <;> cases b <;> first | exact .null | exact .number rfl rfl h | cases h | skip
  case text.text s t =>
    obtain rfl : s = t := by simpa [same] using h
    exact .text s
  case list.list => exact .list ((sameItems_iff _ _).1 h)
  case tuple.tuple => exact .tuple ((sameItems_iff _ _).1 h)
  case map.map => exact .map ((same_map_iff _ _).1 h)
  case set.set => exact .set ((same_set_iff _ _).1 h)
  case date.date d d' =>
    obtain rfl : d = d' := by simpa [same] using h
    exact .date d
  case moment.moment => exact .moment h
  case bytes.bytes bs bs' =>
    obtain rfl : bs = bs' := by simpa [same] using h
    exact .bytes bs

theorem Same.same {a b : Value} (h : Same a b) : a.same b := by
  cases h with
  | null => rfl
  | text s => simp [Value.same]
  | list h => exact (sameItems_iff _ _).2 h
  | tuple h => exact (sameItems_iff _ _).2 h
  | map h => exact (same_map_iff _ _).2 h
  | set h => exact (same_set_iff _ _).2 h
  | date d => simp [Value.same]
  | moment h => exact h
  | bytes bs => simp [Value.same]
  | number ha hb h => cases a <;> cases ha <;> cases b <;> cases hb <;> exact h

/-! ## Induction on what a value holds -/

/-- What a value holds. -/
def parts : Value → List Value
  | list xs | tuple xs | set xs => xs
  | map es => es.map Prod.fst ++ es.map Prod.snd
  | _ => []

/-- A part is smaller than the whole. -/
theorem sizeOf_parts {a x : Value} (hx : x ∈ a.parts) : sizeOf x < sizeOf a := by
  cases a with
  | list xs =>
    have hsize : sizeOf x < sizeOf xs := List.sizeOf_lt_of_mem hx
    simp only [list.sizeOf_spec]
    omega
  | tuple xs =>
    have hsize : sizeOf x < sizeOf xs := List.sizeOf_lt_of_mem hx
    simp only [tuple.sizeOf_spec]
    omega
  | set xs =>
    have hsize : sizeOf x < sizeOf xs := List.sizeOf_lt_of_mem hx
    simp only [set.sizeOf_spec]
    omega
  | map es =>
    have hentry : ∃ e ∈ es, x = e.1 ∨ x = e.2 := by
      simp only [parts, List.mem_append, List.mem_map] at hx
      rcases hx with ⟨e, he, rfl⟩ | ⟨e, he, rfl⟩
      · exact ⟨e, he, .inl rfl⟩
      · exact ⟨e, he, .inr rfl⟩
    obtain ⟨⟨k, v⟩, he, hx⟩ := hentry
    have hsize := List.sizeOf_lt_of_mem he
    simp only [Prod.mk.sizeOf_spec, map.sizeOf_spec] at hsize ⊢
    rcases hx with rfl | rfl <;> omega
  | _ => cases hx

/-- Induction on values by their parts: what holds of a value if it holds of its parts holds of all.
-/
theorem induct {P : Value → Prop} (h : ∀ a, (∀ x ∈ a.parts, P x) → P a) (a : Value) : P a :=
  h a fun x hx =>
    have := sizeOf_parts hx
    induct h x
termination_by sizeOf a

/-! ## Symmetry -/

section

variable {α : Type} {R : α → α → Prop}

/-- Lists that are related item by item can be exchanged where the relation can be turned around. -/
theorem forall₂_symm {xs ys : List α} (h : List.Forall₂ R xs ys)
    (hR : ∀ x ∈ xs, ∀ y, R x y → R y x) : List.Forall₂ R ys xs := by
  induction h with
  | nil => exact .nil
  | cons hxy _ ih =>
    rw [List.forall_mem_cons] at hR
    exact .cons (hR.1 _ hxy) (ih hR.2)

/-- Relations item by item can be chained where the relation can. -/
theorem forall₂_trans {xs ys zs : List α} (h : List.Forall₂ R xs ys) (h' : List.Forall₂ R ys zs)
    (hR : ∀ x ∈ xs, ∀ y z, R x y → R y z → R x z) : List.Forall₂ R xs zs := by
  induction h generalizing zs with
  | nil => exact h'
  | cons hxy _ ih =>
    rw [List.forall_mem_cons] at hR
    cases h' with
    | cons hyz h' => exact .cons (hR.1 _ _ hxy hyz) (ih h' hR.2)

/-- Collections that match each other can be exchanged. -/
theorem Mutual.symm {xs ys : List α} (h : Mutual R xs ys) (hR : ∀ x ∈ xs, ∀ y, R x y → R y x) :
    Mutual R ys xs := by
  refine ⟨fun y hy => ?_, fun x hx => ?_⟩
  · obtain ⟨x, hx, hxy⟩ := h.2 y hy
    exact ⟨x, hx, hR x hx y hxy⟩
  · obtain ⟨y, hy, hxy⟩ := h.1 x hx
    exact ⟨y, hy, hR x hx y hxy⟩

/-- Matches of collections can be chained. -/
theorem Mutual.trans {xs ys zs : List α} (h : Mutual R xs ys) (h' : Mutual R ys zs)
    (hR : ∀ x ∈ xs, ∀ y z, R x y → R y z → R x z) : Mutual R xs zs := by
  refine ⟨fun x hx => ?_, fun z hz => ?_⟩
  · obtain ⟨y, hy, hxy⟩ := h.1 x hx
    obtain ⟨z, hz, hyz⟩ := h'.1 y hy
    exact ⟨z, hz, hR x hx y z hxy hyz⟩
  · obtain ⟨y, hy, hyz⟩ := h'.2 z hz
    obtain ⟨x, hx, hxy⟩ := h.2 y hy
    exact ⟨x, hx, hR x hx y z hxy hyz⟩

end

/-- Keys and values of a mapping are among its parts. -/
theorem mem_parts_of_entry {es : List (Value × Value)} {e : Value × Value} (he : e ∈ es) :
    e.1 ∈ (map es).parts ∧ e.2 ∈ (map es).parts :=
  ⟨List.mem_append_left _ (List.mem_map_of_mem he),
    List.mem_append_right _ (List.mem_map_of_mem he)⟩

/-- Equality of values goes both ways, by induction on the parts of the first. -/
theorem same_symm (a : Value) : ∀ b, a.same b → b.same a := by
  induction a using induct with
  | h a ih =>
    intro b hab
    refine Same.same ?_
    cases Same.of_same hab with
    | null => exact .null
    | text s => exact .text s
    | list h => exact .list (forall₂_symm h ih)
    | tuple h => exact .tuple (forall₂_symm h ih)
    | map h =>
      refine .map (h.symm fun e he f hef => ?_)
      have hparts := mem_parts_of_entry he
      simp only [sameEntry, Bool.and_eq_true] at hef ⊢
      exact ⟨ih e.1 hparts.1 _ hef.1, ih e.2 hparts.2 _ hef.2⟩
    | set h => exact .set (h.symm ih)
    | date d => exact .date d
    | @moment m n h =>
      refine .moment ?_
      unfold sameMoment at h ⊢
      cases hm : m.ahead <;> cases hn : n.ahead <;> simp_all
    | bytes bs => exact .bytes bs
    | number ha hb h => exact .number hb ha (by rwa [Double.equal_comm])

/-- Values that are equal to the same value are equal, by induction on the parts of the first. -/
theorem same_trans (a : Value) : ∀ b c, a.same b → b.same c → a.same c := by
  induction a using induct with
  | h a ih =>
    intro b c hab hbc
    have hbc' := Same.of_same hbc
    refine Same.same ?_
    cases Same.of_same hab with
    | null => exact hbc'
    | text s => exact hbc'
    | list h =>
      -- the rule for numbers is about any values, but a list has no number
      cases hbc' with
      | list h' => exact .list (forall₂_trans h h' ih)
      | number hb => cases hb
    | tuple h =>
      cases hbc' with
      | tuple h' => exact .tuple (forall₂_trans h h' ih)
      | number hb => cases hb
    | map h =>
      cases hbc' with
      | map h' =>
        refine .map (h.trans h' fun e he f g hef hfg => ?_)
        have hparts := mem_parts_of_entry he
        simp only [sameEntry, Bool.and_eq_true] at hef hfg ⊢
        exact ⟨ih e.1 hparts.1 _ _ hef.1 hfg.1, ih e.2 hparts.2 _ _ hef.2 hfg.2⟩
      | number hb => cases hb
    | set h =>
      cases hbc' with
      | set h' => exact .set (h.trans h' ih)
      | number hb => cases hb
    | date d => exact hbc'
    | @moment m n h =>
      cases hbc' with
      | @moment _ k h' =>
        refine .moment ?_
        unfold sameMoment at h h' ⊢
        cases hm : m.ahead <;> cases hn : n.ahead <;> cases hk : k.ahead <;> simp_all
      | number hb => cases hb
    | bytes bs => exact hbc'
    | number ha hb h =>
      cases hbc' with
      | number hb' hc h' =>
        obtain rfl := Option.some.inj (hb.symm.trans hb')
        exact .number ha hc (Double.equal_trans h h')
      | _ => cases hb

instance : PartialEquivBEq Value where
  symm := same_symm _ _
  trans := same_trans _ _ _

end Value

end FormRules
