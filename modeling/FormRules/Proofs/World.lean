import FormRules.Engine.Run

/-!
# Changes of a world

What an update of one engine does to the engine, and what it leaves as it was: all other engines and
all other parts of the world. Some runs leave a part of the world as it is (`Run.Fixes`), and some
do nothing but look at it (`Run.Reads`).
-/

namespace FormRules

namespace World

variable (w : World) (name : String) (f : Engine → Engine)

/-- The engine that is updated is changed, if there is one. -/
theorem get?_updateEngine_self :
    (w.updateEngine name f).engines.get? name = (w.engines.get? name).map f := by
  unfold updateEngine
  rcases h : w.engines.get? name with _ | e
  · exact h
  · exact Table.get?_set_self _ _ _

/-- All other engines stay as they are. -/
theorem get?_updateEngine_of_ne {n : String} (hn : n ≠ name) :
    (w.updateEngine name f).engines.get? n = w.engines.get? n := by
  unfold updateEngine
  rcases w.engines.get? name with _ | e
  · rfl
  · exact Table.get?_set_of_ne _ (by simpa using hn.symm) _

theorem get?_updateEngine (n : String) :
    (w.updateEngine name f).engines.get? n =
      if n = name then (w.engines.get? n).map f else w.engines.get? n := by
  by_cases hn : n = name
  · rw [if_pos hn, hn, get?_updateEngine_self]
  · rw [if_neg hn, get?_updateEngine_of_ne w name f hn]

/-- An update of an engine leaves alone what it does not touch. -/
theorem map_updateEngine {β : Type} {f : Engine → Engine} {g : Engine → β} (hf : ∀ e, g (f e) = g e)
    (n : String) :
    ((w.updateEngine name f).engines.get? n).map g = (w.engines.get? n).map g := by
  rw [get?_updateEngine]
  split
  · rw [Option.map_map]
    exact congrArg (fun g => (w.engines.get? n).map g) (funext hf)
  · rfl

/-- A weaker relation relates the same objects. -/
theorem rel_mono {α β : Type} {R R' : α → β → Prop} (hR : ∀ x y, R x y → R' x y) {a : Option α}
    {b : Option β} (h : Option.Rel R a b) : Option.Rel R' a b := by
  cases h with
  | some h => exact .some (hR _ _ h)
  | none => exact .none

/-- Both worlds have an engine changed. -/
theorem rel_updateEngine {E E' : String → Engine → Engine → Prop} {w v : World} {name : String}
    {f g : Engine → Engine}
    (h : ∀ n, Option.Rel (E n) (w.engines.get? n) (v.engines.get? n))
    (hname : ∀ e e', E name e e' → E' name (f e) (g e'))
    (hother : ∀ n e e', n ≠ name → E n e e' → E' n e e') (n : String) :
    Option.Rel (E' n) ((w.updateEngine name f).engines.get? n)
      ((v.updateEngine name g).engines.get? n) := by
  have hn := h n
  rw [get?_updateEngine, get?_updateEngine]
  generalize w.engines.get? n = a, v.engines.get? n = b at hn ⊢
  by_cases heq : n = name
  · subst heq
    rw [if_pos rfl, if_pos rfl]
    cases hn with
    | some he => exact .some (hname _ _ he)
    | none => exact .none
  · rw [if_neg heq, if_neg heq]
    cases hn with
    | some he => exact .some (hother n _ _ heq he)
    | none => exact .none

@[simp] theorem accessors_updateEngine : (w.updateEngine name f).accessors = w.accessors := by
  unfold updateEngine
  split <;> rfl

@[simp] theorem catalogs_updateEngine : (w.updateEngine name f).catalogs = w.catalogs := by
  unfold updateEngine
  split <;> rfl

@[simp] theorem composers_updateEngine : (w.updateEngine name f).composers = w.composers := by
  unfold updateEngine
  split <;> rfl

/-! ## Worlds that look alike -/

/-- Two masks of the same objects, the second of which shows no more than the first. -/
theorem map_eq_map {α β γ : Type} {f : α → β} {g g' : α → γ} {a b : Option α}
    (h : a.map f = b.map f) (hfg : ∀ x y, f x = f y → g x = g' y) : a.map g = b.map g' := by
  rcases a with _ | x <;> rcases b with _ | y
  · rfl
  · cases h
  · cases h
  · exact congrArg some (hfg x y (Option.some.inj h))

/-- The two worlds have the same objects, and the same engines as far as a mask shows them. What
stands in their journals and notes does not matter. -/
structure Alike (mask : String → Engine → Engine) (w v : World) : Prop where
  accessors : w.accessors = v.accessors
  catalogs : w.catalogs = v.catalogs
  composers : w.composers = v.composers
  engines : ∀ n, (w.engines.get? n).map (mask n) = (v.engines.get? n).map (mask n)

namespace Alike

variable {mask mask' : String → Engine → Engine} {u v w : World} {name : String}

theorem refl (w : World) : Alike mask w w := ⟨rfl, rfl, rfl, fun _ => rfl⟩

theorem symm (h : Alike mask w v) : Alike mask v w :=
  ⟨h.accessors.symm, h.catalogs.symm, h.composers.symm, fun n => (h.engines n).symm⟩

theorem trans (h : Alike mask w v) (h' : Alike mask v u) : Alike mask w u :=
  ⟨h.accessors.trans h'.accessors, h.catalogs.trans h'.catalogs, h.composers.trans h'.composers,
    fun n => (h.engines n).trans (h'.engines n)⟩

/-- Worlds that are alike stay so whatever is written to the journals and the notes. -/
theorem quiet (h : Alike mask w v) (js : List Record) (ns : List Value) :
    Alike mask w { v with journal := js, notes := ns } :=
  ⟨h.accessors, h.catalogs, h.composers, h.engines⟩

/-- Worlds look alike through a mask that shows no more than another one. -/
theorem weaken (h : Alike mask w v)
    (hmask : ∀ n e e', mask n e = mask n e' → mask' n e = mask' n e') : Alike mask' w v :=
  ⟨h.accessors, h.catalogs, h.composers, fun n => map_eq_map (h.engines n) (hmask n)⟩

/-- Both worlds have an engine changed. -/
theorem updateEngine {f g : Engine → Engine} (h : Alike mask w v)
    (hother : ∀ n, n ≠ name → mask' n = mask n)
    (hname : ∀ e e', mask name e = mask name e' → mask' name (f e) = mask' name (g e')) :
    Alike mask' (w.updateEngine name f) (v.updateEngine name g) := by
  refine ⟨?_, ?_, ?_, fun n => ?_⟩
  · rw [accessors_updateEngine, accessors_updateEngine, h.accessors]
  · rw [catalogs_updateEngine, catalogs_updateEngine, h.catalogs]
  · rw [composers_updateEngine, composers_updateEngine, h.composers]
  · rw [get?_updateEngine, get?_updateEngine]
    by_cases hn : n = name
    · rw [if_pos hn, if_pos hn, Option.map_map, Option.map_map, hn]
      exact map_eq_map (h.engines name) hname
    · rw [if_neg hn, if_neg hn, hother n hn]
      exact h.engines n

/-- A change that the mask hides. -/
theorem updateEngine_right {f : Engine → Engine} (w : World)
    (hf : ∀ e, w.engines.get? name = some e → mask name (f e) = mask name e) :
    Alike mask w (w.updateEngine name f) := by
  refine ⟨?_, ?_, ?_, fun n => ?_⟩
  · rw [accessors_updateEngine]
  · rw [catalogs_updateEngine]
  · rw [composers_updateEngine]
  · rw [get?_updateEngine]
    by_cases hn : n = name
    · rw [if_pos hn, hn, Option.map_map]
      exact Option.map_congr fun e he => (hf e he).symm
    · rw [if_neg hn]

end Alike

end World

namespace Run

variable {α β γ : Type}

/-- The run leaves a part of the world as it is. -/
def Fixes (part : World → γ) (r : Run α) : Prop := ∀ w, part (r w).2 = part w

/-- The run leaves the world alone. -/
abbrev Reads (r : Run α) : Prop := Fixes id r

/-- Two things one after the other keep what both of them keep. -/
theorem Fixes.bind {part : World → γ} {r : Run α} {f : α → Run β} (hr : Fixes part r)
    (hf : ∀ a, Fixes part (f a)) : Fixes part (r >>= f) := by
  intro w
  have hw := hr w
  rw [bind_apply]
  rcases h : r w with ⟨_ | a, v⟩
  · rw [h] at hw
    exact hw
  · rw [h] at hw
    exact (hf a v).trans hw

/-- What only reads keeps every part of the world. -/
theorem Reads.fixes {part : World → γ} {r : Run α} (hr : Reads r) : Fixes part r :=
  fun w => congrArg part (hr w)

/-- A run that only looks at the world ends in the world it began in. -/
theorem Reads.eq {r : Run α} (hr : Reads r) {w v : World} {a : Attempt α} (h : r w = (a, v)) :
    v = w := by
  have hw := hr w
  rw [h] at hw
  exact hw

theorem reads_pure (a : α) : Reads (pure a : Run α) := fun _ => rfl

theorem reads_fail (fault : Fault) : Reads (fail fault : Run α) := fun _ => rfl

theorem reads_lift (a : Attempt α) : Reads (liftM a : Run α) := fun _ => rfl

theorem reads_world : Reads world := fun _ => rfl

/-- Looking an engine up only reads. -/
theorem reads_engine (name : String) : Reads (engine name) :=
  reads_world.bind fun _ => reads_lift _

theorem reads_catalog (r : Ref) : Reads (catalog r) :=
  reads_world.bind fun _ => reads_lift _

theorem reads_composer (r : Ref) : Reads (composer r) :=
  reads_world.bind fun _ => reads_lift _

theorem reads_accessor (r : Ref) : Reads (accessor r) :=
  reads_world.bind fun _ => reads_lift _

/-- Reading a field only reads, whatever the accessor. -/
theorem reads_readField (r : Ref) (form field : Value) : Reads (readField r form field) :=
  (reads_accessor r).bind fun _ => reads_lift _

/-- Resolving a rule only reads. -/
theorem reads_resolve (e : Engine) (text : String) : Reads (resolve e text) :=
  (reads_lift _).bind fun _ => (reads_catalog _).bind fun _ => (reads_lift _).bind fun _ =>
    reads_pure _

/-- Writing a field changes accessors only. -/
theorem fixes_writeField {part : World → γ}
    (h : ∀ w r a, part { w with accessors := w.accessors.put r a } = part w)
    (r : Ref) (form field v : Value) : Fixes part (writeField r form field v) :=
  (reads_accessor r).fixes.bind fun a =>
    Fixes.bind (r := modify fun w =>
      { w with accessors := w.accessors.put r (a.put form field v).1 })
      (fun w => h w r _) fun _ => (reads_lift _).fixes

/-- Declaring rules changes the rules of engines only. -/
theorem fixes_declare {part : World → γ}
    (h : ∀ w name rules, part (w.updateEngine name fun e => { e with rules := rules }) = part w)
    (name : String) (rules : Value) : Fixes part (declare name rules) :=
  (reads_engine name).fixes.bind fun _ => (reads_lift _).fixes.bind fun _ => fun w => h w name _

theorem catalog_apply (r : Ref) (w : World) :
    catalog r w = (known r.name (w.catalogs.get? r), w) := rfl

theorem composer_apply (r : Ref) (w : World) :
    composer r w = (known r.name (w.composers.get? r), w) := rfl

/-- A rule is resolved in three steps: its text is read, the catalog is found, and the predicate is
looked up in it. -/
theorem resolve_fst (e : Engine) (text : String) (w : World) : (resolve e text w).1 =
    e.config.prepare text >>= fun prepared =>
      known e.catalog.name (w.catalogs.get? e.catalog) >>= fun c =>
        c.lookUp prepared.method >>= fun d => pure (prepared, d) := by
  unfold resolve
  rcases e.config.prepare text with fault | prepared
  · rfl
  · change ((catalog e.catalog >>= fun c => (liftM (c.lookUp prepared.method) : Run Definition) >>=
      fun d => pure (prepared, d)) w).1 = known e.catalog.name (w.catalogs.get? e.catalog) >>= _
    rw [bind_apply, catalog_apply]
    rcases known e.catalog.name (w.catalogs.get? e.catalog) with fault | c
    · rfl
    · change ((liftM (c.lookUp prepared.method) >>= fun d => pure (prepared, d) : Run _) w).1 =
        c.lookUp prepared.method >>= _
      have hlift : (liftM (c.lookUp prepared.method) : Run Definition) w =
          (c.lookUp prepared.method, w) := rfl
      rw [bind_apply, hlift]
      rcases c.lookUp prepared.method with fault | d <;> rfl

/-- A text that can be read names a definition in the catalog of the engine, if there is one. -/
theorem resolve_apply {e : Engine} {text : String} {prepared : PreparedRule} {w : World}
    {c : Catalog}
    (hprepared : e.config.prepare text = .ok prepared)
    (hcatalog : w.catalogs.get? e.catalog = some c) :
    resolve e text w = ((c.lookUp prepared.method).map fun d => (prepared, d), w) := by
  refine Prod.ext ?_ (reads_resolve e text w)
  rw [resolve_fst, hprepared, hcatalog]
  simp only [known, bind, Except.bind]
  rcases c.lookUp prepared.method with fault | d <;> rfl

theorem engine_apply (name : String) (w : World) :
    engine name w = (known name (w.engines.get? name), w) := rfl

theorem accessor_apply (r : Ref) (w : World) :
    accessor r w = (known r.name (w.accessors.get? r), w) := rfl

/-- One attempt after another comes to what the second one comes to. -/
theorem eq_ok_of_bind {x : Attempt α} {f : α → Attempt β} {b : β} (h : x >>= f = .ok b) :
    ∃ a, x = .ok a ∧ f a = .ok b := by
  rcases x with fault | a
  · cases h
  · exact ⟨a, rfl, h⟩

/-- What is known is there. -/
theorem known_eq_ok {name : String} {a : Option α} {x : α} (h : known name a = .ok x) :
    a = some x := by
  rcases a with _ | a
  · cases h
  · exact congrArg some (Except.ok.inj h)

/-- A rule names a definition in the catalog of its engine. -/
theorem registered_of_resolve {e : Engine} {text : String} {w : World} {prepared : PreparedRule}
    {d : Definition} (h : (resolve e text w).1 = .ok (prepared, d)) :
    ∃ c, w.catalogs.get? e.catalog = some c ∧ c.resolve prepared.method = some d := by
  rw [resolve_fst] at h
  obtain ⟨prepared', -, h⟩ := eq_ok_of_bind h
  obtain ⟨c, hc, h⟩ := eq_ok_of_bind h
  obtain ⟨d', hd, h⟩ := eq_ok_of_bind h
  obtain ⟨rfl, rfl⟩ := Prod.mk.inj (Except.ok.inj h)
  exact ⟨c, known_eq_ok hc, (c.lookUp_eq_ok_iff _ _).1 hd⟩

/-- Declarations replace the rules of the engine, if it is there and they can be used. -/
theorem declare_apply (name : String) (rules : Value) (w : World) : declare name rules w =
    match w.engines.get? name with
    | none => (.error (.unknownName name), w)
    | some e => match e.config.normalize rules with
      | .error fault => (.error fault, w)
      | .ok rules => (.ok (), w.updateEngine name fun e => { e with rules := rules }) := by
  unfold declare
  rw [bind_apply, engine_apply]
  rcases w.engines.get? name with _ | e
  · rfl
  · change (liftM (e.config.normalize rules) >>= fun rules => modify fun w =>
      w.updateEngine name fun e => { e with rules := rules }) w = _
    have hlift : (liftM (e.config.normalize rules) : Run RuleSet) w =
        (e.config.normalize rules, w) := rfl
    rw [bind_apply, hlift]
    rcases hrules : e.config.normalize rules with fault | normalized
    · simp only [hrules]
    · simp only [hrules]
      rfl

/-- An engine that is looked up is the one that the world has. -/
theorem get?_of_engine {name : String} {w : World} {e : Engine} (h : (engine name w).1 = .ok e) :
    w.engines.get? name = some e :=
  known_eq_ok h

end Run

end FormRules
