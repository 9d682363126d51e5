import FormRules.Proofs.Predicate.Asks

/-!
# Parts of a world

The names of a session may be divided into groups. The part of a world that belongs to a group is
what is kept under its names. What is looked up by a name of the group, or by a reference that was
made under such a name, is found in the part; and what is changed under other names leaves the part
as it is. So worlds that agree on the part of a group (`World.Agree`) cannot be told apart by its
names, as long as from these one never gets to objects or engines of others (`World.Tidy`).
-/

namespace FormRules

/-! ## Parts of tables and shelves -/

namespace Table

variable {κ α : Type} [BEq κ]

omit [BEq κ] in
/-- The entries of a table whose keys satisfy a condition. -/
def restrict (p : κ → Bool) (t : Table κ α) : Table κ α := ⟨t.entries.filter fun e => p e.1⟩

/-- An entry that is kept is found among the entries that are kept. -/
theorem find_filter [LawfulBEq κ] {p : κ → Bool} {k : κ} (hk : p k) (es : List (κ × α)) :
    find k (es.filter fun e => p e.1) = find k es := by
  induction es with
  | nil => rfl
  | cons e es ih =>
    obtain ⟨k', a⟩ := e
    by_cases hp : p k'
    · simp [find, hp, ih]
    · have hne : ¬ k' = k := fun h => hp (h ▸ hk)
      simp [find, hp, hne, ih]

/-- Putting an entry and then keeping a part comes to putting it into the part, if it is kept. -/
theorem filter_put [LawfulBEq κ] (p : κ → Bool) (k : κ) (a : α) (es : List (κ × α)) :
    (put k a es).filter (fun e => p e.1) =
      if p k then put k a (es.filter fun e => p e.1) else es.filter fun e => p e.1 := by
  induction es with
  | nil => by_cases hp : p k <;> simp [put, hp]
  | cons e es ih =>
    obtain ⟨k', b⟩ := e
    by_cases heq : k' = k
    · subst heq
      by_cases hp : p k' <;> simp [put, hp]
    · by_cases hp' : p k' <;> by_cases hp : p k <;> simp [put, heq, hp, hp', ih]

/-- A part of a table has the entries of the table whose keys are kept. -/
theorem get?_restrict [LawfulBEq κ] {p : κ → Bool} (t : Table κ α) {k : κ} (hk : p k) :
    (t.restrict p).get? k = t.get? k :=
  find_filter hk t.entries

/-- Setting an entry sets it in the part that its key belongs to, and in no other. -/
theorem restrict_set [LawfulBEq κ] (p : κ → Bool) (t : Table κ α) (k : κ) (a : α) :
    (t.set k a).restrict p = if p k then (t.restrict p).set k a else t.restrict p := by
  have hentries := filter_put p k a t.entries
  by_cases hp : p k
  · rw [if_pos hp] at hentries ⊢
    exact congrArg Table.mk hentries
  · rw [if_neg hp] at hentries ⊢
    exact congrArg Table.mk hentries

end Table

namespace Shelf

variable {α : Type} {own : String → Bool} {name : String}

/-- What a shelf keeps under the names of a group. -/
def part (own : String → Bool) (s : Shelf α) : Shelf α :=
  ⟨s.objects.restrict fun r => own r.name, s.names.restrict own⟩

/-- A part of a shelf has the objects of its own. -/
theorem get?_part (s : Shelf α) {r : Ref} (hr : own r.name) : (s.part own).get? r = s.get? r :=
  Table.get?_restrict (p := fun r : Ref => own r.name) s.objects hr

/-- A part of a shelf knows its own names. -/
theorem ref?_part (s : Shelf α) (h : own name) : (s.part own).ref? name = s.ref? name :=
  Table.get?_restrict s.names h

/-- A name is as new to the part that it belongs to as to the whole shelf. -/
theorem fresh_part (s : Shelf α) (h : own name) : (s.part own).fresh name = s.fresh name := by
  have hfilter : (s.objects.entries.filter fun e => own e.1.name).filter
      (fun e => e.1.name == name) =
      s.objects.entries.filter fun e => e.1.name == name := by
    rw [List.filter_filter]
    refine List.filter_congr fun e _ => ?_
    by_cases hname : e.1.name = name
    · simp [hname, h]
    · simp [hname]
  exact congrArg (fun es : List (Ref × α) => (⟨name, es.length⟩ : Ref)) hfilter

/-- An object is replaced in the part that it belongs to, and in no other. -/
theorem part_put (s : Shelf α) (r : Ref) (a : α) :
    (s.put r a).part own = if own r.name then (s.part own).put r a else s.part own := by
  have hset := s.objects.restrict_set (fun r => own r.name) r a
  by_cases hr : own r.name
  · rw [if_pos hr] at hset ⊢
    exact congrArg (Shelf.mk · _) hset
  · rw [if_neg hr] at hset ⊢
    exact congrArg (Shelf.mk · _) hset

/-- A name is given in the part that it belongs to, and in no other. -/
theorem part_bind (s : Shelf α) (name : String) (r : Ref) :
    (s.bind name r).part own = if own name then (s.part own).bind name r else s.part own := by
  have hset := s.names.restrict_set own name r
  by_cases hname : own name
  · rw [if_pos hname] at hset ⊢
    exact congrArg (Shelf.mk _ ·) hset
  · rw [if_neg hname] at hset ⊢
    exact congrArg (Shelf.mk _ ·) hset

section

variable {s t : Shelf α} (h : s.part own = t.part own)

include h

/-- Shelves with equal parts have the same objects in them. -/
theorem get?_congr {r : Ref} (hr : own r.name) : s.get? r = t.get? r := by
  rw [← get?_part s hr, h, get?_part t hr]

/-- Shelves with equal parts give the same objects to names of the part. -/
theorem ref?_congr (hname : own name) : s.ref? name = t.ref? name := by
  rw [← ref?_part s hname, h, ref?_part t hname]

/-- Shelves with equal parts make the same new names for the part. -/
theorem fresh_congr (hname : own name) : s.fresh name = t.fresh name := by
  rw [← fresh_part s hname, h, fresh_part t hname]

end

/-- Names of the group stand for objects that were made under names of the group. -/
def Tidy (own : String → Bool) (s : Shelf α) : Prop :=
  ∀ name r, own name → s.ref? name = some r → own r.name

/-- A part is as tidy on a shelf as on another one with an equal part. -/
theorem Tidy.congr {s t : Shelf α} (hs : s.Tidy own) (h : s.part own = t.part own) : t.Tidy own :=
  fun name r hname hr => hs name r hname ((ref?_congr h hname).trans hr)

/-- Two shelves to which the same is done under names of one group: they agree on its part, and from
the first one, which was `o` in the beginning, nothing is missing that belongs to another group. -/
structure Together (own own' : String → Bool) (o s t : Shelf α) : Prop where
  agree : s.part own = t.part own
  tidy : s.Tidy own
  rest : o.part own' = s.part own'

namespace Together

variable {own' : String → Bool} {o s t : Shelf α} (h : Together own own' o s t)
  (hdisjoint : ∀ name, own name → ¬ own' name)

include h hdisjoint

/-- Shelves that are together stay so when both replace an object of the part. -/
theorem put {r : Ref} (hr : own r.name) (a : α) : Together own own' o (s.put r a) (t.put r a) := by
  refine ⟨?_, h.tidy, ?_⟩
  · rw [part_put, part_put, if_pos hr, if_pos hr, h.agree]
  · rw [part_put, if_neg (hdisjoint _ hr), h.rest]

/-- Shelves that are together stay so when both give a name of the part to an object of it. -/
theorem bind (hname : own name) {r : Ref} (hr : own r.name) :
    Together own own' o (s.bind name r) (t.bind name r) := by
  refine ⟨?_, fun n r' hn hr' => ?_, ?_⟩
  · rw [part_bind, part_bind, if_pos hname, if_pos hname, h.agree]
  · change (s.names.set name r).get? n = some r' at hr'
    rw [Table.get?_set] at hr'
    split at hr'
    · obtain rfl := Option.some.inj hr'
      exact hr
    · exact h.tidy n r' hn hr'
  · rw [part_bind, if_neg (hdisjoint _ hname), h.rest]

/-- Shelves that are together stay so when both take the same new object. -/
theorem add (hname : own name) (a : α) : Together own own' o (s.add name a) (t.add name a) := by
  unfold Shelf.add
  rw [← fresh_congr h.agree hname]
  exact (h.put hdisjoint (r := s.fresh name) hname a).bind hdisjoint hname hname

end Together

end Shelf

/-! ## Groups of names -/

/-- Names of a session, for each kind of thing that has a name. -/
structure Group where
  engine : String → Bool
  accessor : String → Bool
  catalog : String → Bool
  composer : String → Bool

/-- The groups have no name in common. -/
structure Group.Disjoint (g g' : Group) : Prop where
  engine : ∀ name, g.engine name → ¬ g'.engine name
  accessor : ∀ name, g.accessor name → ¬ g'.accessor name
  catalog : ∀ name, g.catalog name → ¬ g'.catalog name
  composer : ∀ name, g.composer name → ¬ g'.composer name

/-- Groups are disjoint in either order. -/
theorem Group.Disjoint.symm {g g' : Group} (h : g.Disjoint g') : g'.Disjoint g :=
  ⟨fun n h' h₁ => h.engine n h₁ h', fun n h' h₁ => h.accessor n h₁ h',
    fun n h' h₁ => h.catalog n h₁ h', fun n h' h₁ => h.composer n h₁ h'⟩

/-- The objects that the engine works with belong to the group. -/
structure Engine.Within (g : Group) (e : Engine) : Prop where
  accessor : g.accessor e.accessor.name
  catalog : g.catalog e.catalog.name
  composer : g.composer e.composer.name

/-- The predicate refers only to engines of the group. -/
def Definition.Within (g : Group) (d : Definition) : Prop :=
  ∀ value parameters context,
    (d.body value parameters context).Asks (Request.Within fun name => g.engine name)

/-- The predicates of the catalog refer only to engines of the group. -/
def Catalog.Within (g : Group) (c : Catalog) : Prop :=
  ∀ method d, c.resolve method = some d → d.Within g

namespace World

/-- The names of the group stand for nothing that belongs to others, and its predicates refer to
nothing that does. -/
structure Tidy (g : Group) (w : World) : Prop where
  engines : ∀ name e, g.engine name → w.engines.get? name = some e → e.Within g
  accessors : w.accessors.Tidy g.accessor
  catalogs : w.catalogs.Tidy g.catalog
  composers : w.composers.Tidy g.composer
  definitions : ∀ r c, g.catalog r.name → w.catalogs.get? r = some c → c.Within g

/-- The worlds have the same under the names of the group. -/
structure Agree (g : Group) (w v : World) : Prop where
  accessors : w.accessors.part g.accessor = v.accessors.part g.accessor
  catalogs : w.catalogs.part g.catalog = v.catalogs.part g.catalog
  composers : w.composers.part g.composer = v.composers.part g.composer
  engines : w.engines.restrict g.engine = v.engines.restrict g.engine

/-- The world without objects is tidy for every group. -/
theorem tidy_empty (g : Group) : Tidy g ∅ := by
  refine ⟨fun _ _ _ h => ?_, fun _ _ _ h => ?_, fun _ _ _ h => ?_, fun _ _ _ h => ?_,
    fun _ _ _ h => ?_⟩ <;>
    cases h

variable {g : Group} {w v u : World}

namespace Agree

theorem refl (w : World) : Agree g w w := ⟨rfl, rfl, rfl, rfl⟩

theorem symm (h : Agree g w v) : Agree g v w :=
  ⟨h.accessors.symm, h.catalogs.symm, h.composers.symm, h.engines.symm⟩

theorem trans (h : Agree g w v) (h' : Agree g v u) : Agree g w u :=
  ⟨h.accessors.trans h'.accessors, h.catalogs.trans h'.catalogs, h.composers.trans h'.composers,
    h.engines.trans h'.engines⟩

/-- Worlds that agree on a group have the same engines of the group. -/
theorem get?_engine (h : Agree g w v) {name : String} (hname : g.engine name) :
    w.engines.get? name = v.engines.get? name := by
  rw [← Table.get?_restrict w.engines hname, h.engines, Table.get?_restrict v.engines hname]

end Agree

theorem Tidy.congr (hw : Tidy g w) (h : Agree g w v) : Tidy g v := by
  refine ⟨fun name e hname he => ?_, hw.accessors.congr h.accessors, hw.catalogs.congr h.catalogs,
    hw.composers.congr h.composers, fun r c hr hc => ?_⟩
  · exact hw.engines name e hname ((h.get?_engine hname).trans he)
  · exact hw.definitions r c hr ((Shelf.get?_congr h.catalogs hr).trans hc)

end World

end FormRules
