import FormRules.Engine.Draft
import FormRules.Proofs.World

/-!
# Setting up an engine

A set-up that fails changes no engine. One that succeeds adds a single engine, which is not in a run
and has not completed any.
-/

namespace FormRules

/-- The accessor that a set-up names, or the values that it gives. -/
def ValueSource.find (accessors : Shelf Accessor) : ValueSource → Attempt (Ref ⊕ Value)
  | .named name => (accessors.find name).map .inl
  | .given v => .ok (.inr v)

/-- Looking up the names of a set-up is an attempt that leaves the world alone. -/
theorem Setup.parts_apply (s : Setup) (w : World) : s.parts w =
    (do
      let values ← s.values.find w.accessors
      let catalog ← part w.catalogs .builtins s.catalog
      let composer ← part w.composers .standard s.composer
      return ⟨s.config, values, catalog, composer⟩, w) := by
  obtain ⟨config, values, catalog, composer⟩ := s
  have hrest (values : Ref ⊕ Value) : (do
      let catalog ← part w.catalogs .builtins catalog
      let composer ← part w.composers .standard composer
      return ⟨config, values, catalog, composer⟩ : Run Parts) w = (do
      let catalog ← part w.catalogs .builtins catalog
      let composer ← part w.composers .standard composer
      return ⟨config, values, catalog, composer⟩, w) := by
    rcases part w.catalogs .builtins catalog with fault | catalog
    · rfl
    · rcases part w.composers .standard composer with fault | composer <;> rfl
  rcases values with name | v
  · rcases hname : w.accessors.find name with fault | r
    · simp only [parts, Run.bind_apply, Run.world, ValueSource.find, hname]
      rfl
    · simp only [parts, Run.bind_apply, Run.world, ValueSource.find, hname]
      exact hrest (.inl r)
  · exact hrest (.inr v)

namespace Run

/-- The set-up leaves the engines alone until the new one, which has neither a cursor nor a report,
is put among them. -/
def SetsUp (name : String) (r : Run Unit) : Prop :=
  ∀ w, (∃ e : Engine, e.cursor = none ∧ e.lastReport = none ∧
      (r w).1 = .ok () ∧ (r w).2.engines = w.engines.set name e) ∨
    ((∃ fault, (r w).1 = .error fault) ∧ (r w).2.engines = w.engines)

variable {α γ : Type} {name : String}

/-- What leaves the engines alone may come before setting up. -/
theorem SetsUp.after {r : Run α} {f : α → Run Unit} (hr : Fixes World.engines r)
    (hf : ∀ a, SetsUp name (f a)) : SetsUp name (r >>= f) := by
  intro w
  have hw := hr w
  rw [bind_apply]
  rcases h : r w with ⟨fault | a, v⟩ <;> rw [h] at hw
  · exact .inr ⟨⟨fault, rfl⟩, hw⟩
  · rw [← hw]
    exact hf a v

/-- Placing a draft sets up its engine. -/
theorem setsUp_placed (d : Draft) : SetsUp name (modify (d.placed name)) :=
  fun _ => .inl ⟨_, rfl, rfl, rfl, rfl⟩

/-- Finding the parts of a set-up only reads. -/
theorem reads_parts (s : Setup) : Reads s.parts := fun w => congrArg Prod.snd (s.parts_apply w)

/-- Overrides change a composer and nothing else. -/
theorem fixes_override {part : World → γ}
    (h : ∀ w r c, part { w with composers := w.composers.put r c } = part w) (d : Draft)
    (messages : Value) : Fixes part (d.override messages) := by
  unfold Draft.override
  rcases d.composer with r | c
  · refine (reads_composer r).fixes.bind fun c => ?_
    exact Fixes.bind (r := modify fun w =>
      { w with composers := w.composers.put r (c.addGiven messages).1 })
      (fun w => h w r _) fun _ => (reads_lift _).fixes.bind fun _ => (reads_pure _).fixes
  · exact (reads_lift _).fixes.bind fun _ => (reads_pure _).fixes

/-- Loading a file is recorded in the journal and nowhere else. -/
theorem fixes_load {part : World → γ}
    (h : ∀ w rs, part { w with journal := w.journal ++ rs } = part w) (tools : Tools)
    (f : RuleFile) : Fixes part (f.load tools) := by
  refine (reads_lift _).fixes.bind fun declarations => ?_
  rcases declarations with issues | document
  · exact (reads_fail _).fixes
  · exact Fixes.bind (r := log _) (fun w => h w _) fun _ => (reads_pure _).fixes

/-- Making an engine sets up this engine. -/
theorem setsUp_newEngine (s : Setup) (rules messages : Value) :
    SetsUp name (newEngine name s rules messages) :=
  SetsUp.after (reads_parts s).fixes fun _ => SetsUp.after (reads_lift _).fixes fun d =>
    SetsUp.after (fixes_override (fun _ _ _ => rfl) d messages) setsUp_placed

/-- So does making one from a rule file. -/
theorem setsUp_newEngineFromFile (tools : Tools) (s : Setup) (file : RuleFile) (messages : Value) :
    SetsUp name (newEngineFromFile tools name s file messages) :=
  have hoverride (d : Draft) (messages : Value) : Fixes World.engines (d.override messages) :=
    fixes_override (fun _ _ _ => rfl) d messages
  SetsUp.after (reads_parts s).fixes fun _ =>
    SetsUp.after (fixes_load (fun _ _ => rfl) tools file) fun _ =>
      SetsUp.after (reads_lift _).fixes fun d => SetsUp.after (hoverride d _) fun d =>
        SetsUp.after (hoverride d messages) setsUp_placed

end Run

end FormRules
