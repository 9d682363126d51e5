import FormRules.Proofs.Run.Together
import FormRules.Session.Perform

/-!
# Isolation of groups

Let the names of a session be divided into groups, such that each step mentions only names of its
own group. Then what is done in one group does not show in the other: the outcomes of its steps are
the same when the steps of the other group are left out (`Session.groups_are_isolated`).

Two things have to be known of a step. Done in two worlds that agree on the part of its group, it
has the same outcome in both, and the worlds agree on the part again; and the part of the other
group stays as it was. Both are known of runs already, and follow for steps in the same way
(`Together.inStep_step`).
-/

namespace FormRules

open Run

variable {g g' : Group} {w u v : World}

/-! ## Setting up engines of a group -/

/-- A slot shares objects of the group only, and what is made for it has a property. -/
def Slot.Within {α : Type} (own : String → Bool) (P : α → Prop) : Slot α → Prop
  | .shared r => own r.name
  | .fresh a => P a

/-- The names that the set-up looks up belong to the group. -/
structure Setup.Within (g : Group) (s : Setup) : Prop where
  values : ∀ name, s.values = .named name → g.accessor name
  catalog : ∀ name, s.catalog = some name → g.catalog name
  composer : ∀ name, s.composer = some name → g.composer name

structure Parts.Within (g : Group) (p : Parts) : Prop where
  values : ∀ r, p.values = .inl r → g.accessor r.name
  catalog : p.catalog.Within g.catalog (Catalog.Within g)
  composer : p.composer.Within g.composer fun _ => True

structure Draft.Within (g : Group) (d : Draft) : Prop where
  accessor : d.accessor.Within g.accessor fun _ => True
  catalog : d.catalog.Within g.catalog (Catalog.Within g)
  composer : d.composer.Within g.composer fun _ => True

/-- The built-in predicates are within every group, as they ask for no engine. -/
theorem Catalog.within_builtins : builtins.Within g := fun _ _ hd value parameters context =>
  (asks_builtin (mem_of_resolve_ofList hd).1 value parameters context).mono fun _ =>
    Request.IsSibling.within

/-- A draft that is made from parts within a group is within it. -/
theorem Parts.Within.draft {p : Parts} (hp : p.Within g) {rules : Value} {d : Draft}
    (hd : p.draft rules = .ok d) : d.Within g := by
  obtain ⟨slot, hslot, hd⟩ := eq_ok_of_bind hd
  obtain ⟨normalized, -, hd⟩ := eq_ok_of_bind hd
  obtain rfl := Except.ok.inj hd
  refine ⟨?_, hp.catalog, hp.composer⟩
  rcases hvalues : p.values with r | values <;> rw [hvalues] at hslot
  · obtain rfl := Except.ok.inj hslot
    exact hp.values r hvalues
  · obtain ⟨a, -, ha⟩ := eq_ok_of_bind hslot
    obtain rfl := Except.ok.inj ha
    trivial

section

variable {α : Type} {own own' : String → Bool} {o s t : Shelf α} (h : Shelf.Together own own' o s t)

include h

/-- A name of the group is looked up. -/
theorem Shelf.Together.find {name : String} (hname : own name) :
    Matching (fun r r' => r = r' ∧ own r.name) (s.find name) (t.find name) := by
  unfold Shelf.find
  rw [← Shelf.ref?_congr h.agree hname]
  rcases hr : s.ref? name with _ | r
  · exact .error _
  · exact .ok ⟨rfl, h.tidy name r hname hr⟩

theorem Shelf.Together.part {P : α → Prop} (new : α) (hnew : P new) {choice : Option String}
    (hchoice : ∀ name, choice = some name → own name) :
    Matching (fun x y => x = y ∧ x.Within own P) (Setup.part s new choice)
      (Setup.part t new choice) := by
  cases choice with
  | none => exact .ok ⟨rfl, hnew⟩
  | some name =>
    refine (h.find (hchoice name rfl)).bind ?_
    rintro r _ ⟨rfl, hr⟩
    exact .ok ⟨rfl, hr⟩

/-- An object is placed under a name of the group. -/
theorem Shelf.Together.settle (hdisjoint : ∀ name, own name → ¬ own' name) {name : String}
    (hname : own name) {P : α → Prop} {slot : Slot α} (hslot : slot.Within own P) :
    (Draft.settle s name slot).1 = (Draft.settle t name slot).1 ∧
      own (Draft.settle s name slot).1.name ∧
      Shelf.Together own own' o (Draft.settle s name slot).2 (Draft.settle t name slot).2 := by
  cases slot with
  | shared r => exact ⟨rfl, hslot, h.bind hdisjoint hname hslot⟩
  | fresh a => exact ⟨Shelf.fresh_congr h.agree hname, hname, h.add hdisjoint hname a⟩

end

/-- What is on a shelf was there before, or has been made. -/
theorem Draft.of_get?_settle {α : Type} {s : Shelf α} {name : String} {slot : Slot α} {r : Ref}
    {a : α}
    (h : (Draft.settle s name slot).2.get? r = some a) : s.get? r = some a ∨ slot = .fresh a := by
  cases slot with
  | shared r' => exact .inl h
  | fresh a' => exact (Shelf.of_get?_add h).imp_right fun h => congrArg Slot.fresh h.symm

/-- The name of an engine and those of the objects that it works with belong to the group. -/
structure Group.HasEngine (g : Group) (name : String) : Prop where
  engine : g.engine name
  accessor : g.accessor (Draft.partName name)
  catalog : g.catalog (Draft.partName name)
  composer : g.composer (Draft.partName name)

namespace Together

theorem inStep_world :
    InStep (Together g g' w) (Matching (Together g g' w)) (Together g g' w) Run.world Run.world :=
  fun _ _ h => ⟨.ok h, h⟩

/-- Attempts that match, in worlds that are together. -/
theorem inStep_lift {α : Type} {Q : α → α → Prop} {a b : Attempt α} (h : Matching Q a b) :
    InStep (Together g g' w) (Matching Q) (Together g g' w) (liftM a) (liftM b) :=
  fun _ _ hw => ⟨h, hw⟩

/-- A set-up within a group finds the same parts in both worlds. -/
theorem inStep_parts {s : Setup} (hs : s.Within g) : InStep (Together g g' w)
    (Matching fun p p' => p = p' ∧ p.Within g) (Together g g' w) s.parts s.parts := by
  refine inStep_world.bind (fun x y hxy => ?_) fun _ _ h => h
  have hrest (values : Ref ⊕ Value) (hvalues : ∀ r, values = .inl r → g.accessor r.name) :
      InStep (Together g g' w) (Matching fun p p' => p = p' ∧ p.Within g) (Together g g' w)
        (do
          let catalog ← Setup.part x.catalogs Catalog.builtins s.catalog
          let composer ← Setup.part x.composers Composer.standard s.composer
          return (⟨s.config, values, catalog, composer⟩ : Parts))
        (do
          let catalog ← Setup.part y.catalogs Catalog.builtins s.catalog
          let composer ← Setup.part y.composers Composer.standard s.composer
          return (⟨s.config, values, catalog, composer⟩ : Parts)) := by
    have hcatalog := hxy.catalogs.part (P := Catalog.Within g) _ Catalog.within_builtins hs.catalog
    refine (inStep_lift hcatalog).bind ?_ fun _ _ h => h
    rintro catalog _ ⟨rfl, hcatalog⟩
    have hcomposer := hxy.composers.part (P := fun _ => True) .standard trivial hs.composer
    refine (inStep_lift hcomposer).bind ?_ fun _ _ h => h
    rintro composer _ ⟨rfl, hcomposer⟩
    exact InStep.pure ⟨rfl, hvalues, hcatalog, hcomposer⟩
  rcases hvalues : s.values with name | values
  · refine (inStep_lift (hxy.accessors.find (hs.values name hvalues))).bind ?_ fun _ _ h => h
    rintro r _ ⟨rfl, hr⟩
    exact hrest (.inl r) fun r' hr' => Sum.inl.inj hr' ▸ hr
  · exact hrest (.inr values) fun _ h => nomatch h

/-- Parts within a group come to the same draft in both worlds. -/
theorem inStep_draft {p : Parts} (hp : p.Within g) (rules : Value) : InStep (Together g g' w)
    (Matching fun d d' => d = d' ∧ d.Within g) (Together g g' w) (liftM (p.draft rules))
    (liftM (p.draft rules)) := by
  refine inStep_lift ?_
  rcases h : p.draft rules with fault | d
  · exact .error fault
  · exact .ok ⟨rfl, hp.draft h⟩

section

variable (hdisjoint : g.Disjoint g')

include hdisjoint

/-- Overriding messages of a draft changes both worlds alike. -/
theorem inStep_override {d : Draft} (hd : d.Within g) (messages : Value) : InStep (Together g g' w)
    (Matching fun d d' => d = d' ∧ d.Within g) (Together g g' w) (d.override messages)
    (d.override messages) := by
  have hcomposer := hd.composer
  unfold Draft.override
  rcases hslot : d.composer with r | c <;> rw [hslot] at hcomposer
  · refine (inStep_composer hcomposer).bind_eq fun c =>
      InStep.bind_eq (InStep.modify fun u v h => ?_)
      fun _ => (InStep.lift _).bind_eq fun _ => InStep.pure ⟨rfl, hd⟩
    exact { h with composers := h.composers.put hdisjoint.composer hcomposer _ }
  · exact (InStep.lift _).bind_eq fun _ => InStep.pure ⟨rfl, hd.accessor, hd.catalog, trivial⟩

/-- Worlds that are together stay so when both take the same engine of the group. -/
theorem placed (h : Together g g' w u v) {name : String} (hname : g.HasEngine name) {d : Draft}
    (hd : d.Within g) : Together g g' w (d.placed name u) (d.placed name v) := by
  obtain ⟨haccessor, haccessor', haccessors⟩ :=
    h.accessors.settle hdisjoint.accessor hname.accessor hd.accessor
  obtain ⟨hcatalog, hcatalog', hcatalogs⟩ :=
    h.catalogs.settle hdisjoint.catalog hname.catalog hd.catalog
  obtain ⟨hcomposer, hcomposer', hcomposers⟩ :=
    h.composers.settle hdisjoint.composer hname.composer hd.composer
  -- the objects are put in their places first, and then the engine
  have hobjects : Together g g' w
      { u with
        accessors := (Draft.settle u.accessors (Draft.partName name) d.accessor).2
        catalogs := (Draft.settle u.catalogs (Draft.partName name) d.catalog).2
        composers := (Draft.settle u.composers (Draft.partName name) d.composer).2 }
      { v with
        accessors := (Draft.settle v.accessors (Draft.partName name) d.accessor).2
        catalogs := (Draft.settle v.catalogs (Draft.partName name) d.catalog).2
        composers := (Draft.settle v.composers (Draft.partName name) d.composer).2 } := by
    refine { h with
      accessors := haccessors, catalogs := hcatalogs, composers := hcomposers,
      definitions := fun r c hr hc => ?_ }
    rcases Draft.of_get?_settle hc with hc | hc
    · exact h.definitions r c hr hc
    · have hwithin := hd.catalog
      rwa [hc] at hwithin
  have hplaced := hobjects.setEngine hdisjoint hname.engine (e := ⟨d.config, d.rules,
    (Draft.settle u.accessors (Draft.partName name) d.accessor).1,
    (Draft.settle u.catalogs (Draft.partName name) d.catalog).1,
    (Draft.settle u.composers (Draft.partName name) d.composer).1, none, none⟩)
    ⟨haccessor', hcatalog', hcomposer'⟩
  unfold Draft.placed
  simp only
  rw [← haccessor, ← hcatalog, ← hcomposer]
  exact hplaced

/-- Making an engine of the group goes alike in both worlds. -/
theorem inStep_newEngine {name : String} (hname : g.HasEngine name) {s : Setup} (hs : s.Within g)
    (rules messages : Value) : InStep (Together g g' w) (Matching Eq) (Together g g' w)
      (newEngine name s rules messages) (newEngine name s rules messages) := by
  refine (inStep_parts hs).bind ?_ fun _ _ h => h
  rintro p _ ⟨rfl, hp⟩
  refine (inStep_draft hp rules).bind ?_ fun _ _ h => h
  rintro d _ ⟨rfl, hd⟩
  refine (inStep_override hdisjoint hd messages).bind ?_ fun _ _ h => h
  rintro d _ ⟨rfl, hd⟩
  exact InStep.modify fun _ _ h => h.placed hdisjoint hname hd

/-- So does making one from a rule file, whatever tools read the file. -/
theorem inStep_newEngineFromFile (tools : Tools) {name : String} (hname : g.HasEngine name)
    {s : Setup} (hs : s.Within g) (file : RuleFile) (messages : Value) :
    InStep (Together g g' w) (Matching Eq) (Together g g' w)
      (newEngineFromFile tools name s file messages)
      (newEngineFromFile tools name s file messages) := by
  have hload : InStep (Together g g' w) (Matching Eq) (Together g g' w) (file.load tools)
      (file.load tools) := by
    refine (InStep.lift _).bind_eq fun declarations => ?_
    rcases declarations with issues | document
    · exact fun _ _ h => ⟨.error _, h⟩
    · exact (InStep.modify fun _ _ h => h.log _).bind_eq fun _ => InStep.pure rfl
  refine (inStep_parts hs).bind ?_ fun _ _ h => h
  rintro p _ ⟨rfl, hp⟩
  refine hload.bind_eq fun document => (inStep_draft hp _).bind ?_ fun _ _ h => h
  rintro d _ ⟨rfl, hd⟩
  refine (inStep_override hdisjoint hd _).bind ?_ fun _ _ h => h
  rintro d _ ⟨rfl, hd⟩
  refine (inStep_override hdisjoint hd messages).bind ?_ fun _ _ h => h
  rintro d _ ⟨rfl, hd⟩
  exact InStep.modify fun _ _ h => h.placed hdisjoint hname hd

end

end Together

/-! ## Steps of a group -/

/-- The step on a catalog refers only to names of the group, as does the predicate that it
registers. -/
def CatalogStep.Within (g : Group) : CatalogStep → Prop
  | .register d => d.Within g
  | .share source _ => g.catalog source
  | _ => True

/-- The step mentions only names of the group. -/
def Step.Within (g : Group) : Step → Prop
  | .newCatalog name source => g.catalog name ∧ ∀ other, source = .copy other → g.catalog other
  | .newComposer name _ => g.composer name
  | .newAccessor name _ => g.accessor name
  | .newFunction name _ => g.accessor name
  | .newEngine name setup _ _ => g.HasEngine name ∧ setup.Within g
  | .newEngineFromFile name setup _ _ => g.HasEngine name ∧ setup.Within g
  | .engine name _ => g.engine name
  | .accessor name _ => g.accessor name
  | .catalog name step => g.catalog name ∧ step.Within g
  | .composer name _ => g.composer name

/-- A catalog stays within a group when it takes a definition that is within it. -/
theorem Catalog.Within.register {c : Catalog} (hc : c.Within g) {d : Definition} (hd : d.Within g) :
    (c.register d).Within g := by
  intro method d' hd'
  by_cases hname : d.name = method
  · subst hname
    rw [Catalog.resolve_register_self] at hd'
    rwa [← Option.some.inj hd']
  · rw [Catalog.resolve_register_of_ne _ _ hname] at hd'
    exact hc method d' hd'

/-- What is found in a catalog within a group is within the group. -/
theorem Catalog.Within.lookUp {c : Catalog} (hc : c.Within g) (name : String) :
    Matching (fun d d' => d = d' ∧ d.Within g) (c.lookUp name) (c.lookUp name) := by
  rcases h : c.lookUp name with fault | d
  · exact .error fault
  · exact .ok ⟨rfl, hc name d ((c.lookUp_eq_ok_iff name d).1 h)⟩

namespace Together

/-- The step does the same in both worlds. -/
abbrev Steps {α : Type} (g g' : Group) (w : World) (r : Run α) : Prop :=
  InStep (Together g g' w) (Matching Eq) (Together g g' w) r r

/-- A new catalog of the group starts with the same definitions in both worlds. -/
theorem inStep_catalogOf {source : CatalogSource} (hsource : ∀ n, source = .copy n → g.catalog n) :
    InStep (Together g g' w) (Matching fun c c' => c = c' ∧ c.Within g) (Together g g' w)
      (Step.catalogOf source) (Step.catalogOf source) := by
  cases source with
  | builtins => exact InStep.pure ⟨rfl, Catalog.within_builtins⟩
  | empty => exact InStep.pure ⟨rfl, fun _ _ h => nomatch h⟩
  | copy n =>
    refine inStep_world.bind (fun x y hxy => ?_) fun _ _ h => h
    refine (inStep_lift (hxy.catalogs.find (hsource n rfl))).bind ?_ fun _ _ h => h
    rintro r _ ⟨rfl, hr⟩
    exact inStep_catalog hr

variable (hdisjoint : g.Disjoint g')

include hdisjoint

/-- Runs of engines of the group go alike in both worlds. -/
theorem inStep_validate {name : String} (hname : g.engine name) (form : Value) :
    Steps g g' w (validate nestingLimit name form) := by
  have hrun := (runs_validate (w := w) hdisjoint nestingLimit hname form).inStep
  rwa [Traced.erase_validate] at hrun

theorem inStep_passes {name : String} (hname : g.engine name) (form : Value) :
    Steps g g' w (passes nestingLimit name form) :=
  (inStep_validate hdisjoint hname form).bind_eq fun _ => InStep.pure rfl

/-- Steps on an engine of the group go alike in both worlds. -/
theorem inStep_engineStep {name : String} (hname : g.engine name) (step : EngineStep) :
    Steps g g' w (step.perform name) := by
  have hengine {f : Engine → Run Answer} (hf : ∀ e, Steps g g' w (f e)) :
      Steps g g' w (engine name >>= f) := by
    refine (inStep_engine hname).bind ?_ fun _ _ h => h
    rintro e _ ⟨rfl, -⟩
    exact hf e
  cases step with
  | declare rules => exact (inStep_declare hdisjoint hname rules).bind_eq fun _ => InStep.pure rfl
  | rules => exact hengine fun _ => InStep.pure rfl
  | fieldsFor form => exact hengine fun _ => (InStep.lift _).bind_eq fun _ => InStep.pure rfl
  | validate form => exact (inStep_validate hdisjoint hname form).bind_eq fun _ => InStep.pure rfl
  | passes form => exact (inStep_passes hdisjoint hname form).bind_eq fun _ => InStep.pure rfl
  | fails form => exact (inStep_passes hdisjoint hname form).bind_eq fun _ => InStep.pure rfl
  | errors => exact hengine fun _ => InStep.pure rfl
  | errorsFor field =>
    refine hengine fun e => ?_
    rcases e.lastReport with _ | report
    · exact InStep.pure rfl
    · exact (InStep.lift _).bind_eq fun _ => InStep.pure rfl
  | lastReport => exact hengine fun _ => InStep.pure rfl
  | cursor => exact hengine fun _ => InStep.pure rfl

/-- Steps on an accessor of the group go alike in both worlds. -/
theorem inStep_accessorStep {r : Ref} (hr : g.accessor r.name) (step : AccessorStep) :
    Steps g g' w (step.perform r) := by
  cases step with
  | setValue form field v =>
    exact (inStep_writeField hdisjoint hr form field v).bind_eq fun _ => InStep.pure rfl
  | getValue form field => exact (inStep_readField hr form field).bind_eq fun _ => InStep.pure rfl

/-- Trying out a definition within the group goes alike in both worlds. -/
theorem inStep_tryOut {d : Definition} (hd : d.Within g) (trial : Trial) :
    Steps g g' w (tryOut d trial) := by
  have hrun := (runs_tryOut (w := w) hdisjoint hd trial).inStep
  rwa [Traced.erase_tryOut] at hrun

/-- Steps on a catalog of the group go alike in both worlds. -/
theorem inStep_catalogStep {r : Ref} (hr : g.catalog r.name) {step : CatalogStep}
    (hstep : step.Within g) : Steps g g' w (step.perform r) := by
  have hcatalog {r : Ref} (hr : g.catalog r.name) {f : Catalog → Run Answer}
      (hf : ∀ c, c.Within g → Steps g g' w (f c)) : Steps g g' w (catalog r >>= f) := by
    refine (inStep_catalog hr).bind ?_ fun _ _ h => h
    rintro c _ ⟨rfl, hc⟩
    exact hf c hc
  have hlookUp {c : Catalog} (hc : c.Within g) (name : String) {f : Definition → Run Answer}
      (hf : ∀ d, d.Within g → Steps g g' w (f d)) :
      Steps g g' w ((liftM (c.lookUp name) : Run Definition) >>= f) := by
    refine (inStep_lift (hc.lookUp name)).bind ?_ fun _ _ h => h
    rintro d _ ⟨rfl, hd⟩
    exact hf d hd
  have hregister {d : Definition} (hd : d.Within g) : Steps g g' w (do
      let c ← catalog r
      Run.modify fun w => { w with catalogs := w.catalogs.put r (c.register d) }
      return Answer.done) := by
    refine hcatalog hr fun c hc => InStep.bind_eq (InStep.modify fun u v h => ?_) fun _ =>
      InStep.pure rfl
    exact h.putCatalog hdisjoint hr (hc.register hd)
  cases step with
  | register d => exact hregister hstep
  | share source name =>
    -- the definition comes from a catalog of the same group, so it keeps to the group as well
    refine inStep_world.bind (fun x y hxy => ?_) fun _ _ h => h
    refine (inStep_lift (hxy.catalogs.find hstep)).bind ?_ fun _ _ h => h
    rintro r' _ ⟨rfl, hr'⟩
    exact hcatalog hr' fun c hc => hlookUp hc name fun d hd => hregister hd
  | names => exact hcatalog hr fun _ _ => InStep.pure rfl
  | size => exact hcatalog hr fun _ _ => InStep.pure rfl
  | has name => exact hcatalog hr fun _ _ => InStep.pure rfl
  | describe name => exact hcatalog hr fun c hc => hlookUp hc name fun _ _ => InStep.pure rfl
  | call name trial =>
    exact hcatalog hr fun c hc => hlookUp hc name fun d hd =>
      (inStep_tryOut hdisjoint hd trial).bind_eq fun _ => InStep.pure rfl

/-- Steps on a composer of the group go alike in both worlds. -/
theorem inStep_composerStep {r : Ref} (hr : g.composer r.name) (step : ComposerStep) :
    Steps g g' w (step.perform r) := by
  have hlog (rs : List Record) : Steps g g' w (logAll rs) := InStep.modify fun _ _ h => h.log rs
  cases step with
  | add messages =>
    refine (inStep_composer hr).bind_eq fun c =>
      InStep.bind_eq (InStep.modify fun u v h => ?_) fun _ =>
      (InStep.lift _).bind_eq fun _ => InStep.pure rfl
    exact { h with composers := h.composers.put hdisjoint.composer hr (c.add messages).1 }
  | templateFor method form =>
    exact (inStep_composer hr).bind_eq fun _ => (InStep.lift _).bind_eq fun _ => InStep.pure rfl
  | compose method parameters form field =>
    exact (inStep_composer hr).bind_eq fun _ => (hlog _).bind_eq fun _ =>
      (InStep.lift _).bind_eq fun _ => InStep.pure rfl
  | templates => exact (inStep_composer hr).bind_eq fun _ => InStep.pure rfl

/-- **A step of a group does the same wherever its part is the same**, and changes no other part. -/
theorem inStep_step {s : Step} (hs : s.Within g) : Steps g g' w s.perform := by
  cases s with
  | newCatalog name source =>
    refine (inStep_catalogOf hs.2).bind ?_ fun _ _ h => h
    rintro c _ ⟨rfl, hc⟩
    refine InStep.bind_eq (InStep.modify fun u v h => ?_) fun _ => InStep.pure rfl
    refine { h with
      catalogs := h.catalogs.add hdisjoint.catalog hs.1 c, definitions := fun r c' hr hc' => ?_ }
    rcases Shelf.of_get?_add hc' with hc' | rfl
    · exact h.definitions r c' hr hc'
    · exact hc
  | newComposer name messages =>
    refine (InStep.lift _).bind_eq fun c => InStep.bind_eq (InStep.modify fun u v h => ?_) fun _ =>
      InStep.pure rfl
    exact { h with composers := h.composers.add hdisjoint.composer hs c }
  | newAccessor name values =>
    refine (InStep.lift _).bind_eq fun a => InStep.bind_eq (InStep.modify fun u v h => ?_) fun _ =>
      InStep.pure rfl
    exact { h with accessors := h.accessors.add hdisjoint.accessor hs a }
  | newFunction name function =>
    refine InStep.bind_eq (InStep.modify fun u v h => ?_) fun _ => InStep.pure rfl
    exact { h with accessors := h.accessors.add hdisjoint.accessor hs _ }
  | newEngine name setup rules messages =>
    exact (inStep_newEngine hdisjoint hs.1 hs.2 rules messages).bind_eq fun _ => InStep.pure rfl
  | newEngineFromFile name setup file messages =>
    exact (inStep_newEngineFromFile hdisjoint _ hs.1 hs.2 file messages).bind_eq fun _ =>
      InStep.pure rfl
  | engine name step => exact inStep_engineStep hdisjoint hs step
  | accessor name step =>
    refine inStep_world.bind (fun x y hxy => ?_) fun _ _ h => h
    refine (inStep_lift (hxy.accessors.find hs)).bind ?_ fun _ _ h => h
    rintro r _ ⟨rfl, hr⟩
    exact inStep_accessorStep hdisjoint hr step
  | catalog name step =>
    refine inStep_world.bind (fun x y hxy => ?_) fun _ _ h => h
    refine (inStep_lift (hxy.catalogs.find hs.1)).bind ?_ fun _ _ h => h
    rintro r _ ⟨rfl, hr⟩
    exact inStep_catalogStep hdisjoint hr hs.2
  | composer name step =>
    refine inStep_world.bind (fun x y hxy => ?_) fun _ _ h => h
    refine (inStep_lift (hxy.composers.find hs)).bind ?_ fun _ _ h => h
    rintro r _ ⟨rfl, hr⟩
    exact inStep_composerStep hdisjoint hr step

end Together

/-! ## Sessions -/

theorem World.agree_cleared (w : World) : World.Agree g w w.cleared := ⟨rfl, rfl, rfl, rfl⟩

namespace Together

/-- Worlds that agree on a group are together when a step begins. -/
theorem start (h : World.Agree g u v) (hu : u.Tidy g) :
    Together g g' u.cleared u.cleared v.cleared where
  accessors := ⟨h.accessors, hu.accessors, rfl⟩
  catalogs := ⟨h.catalogs, hu.catalogs, rfl⟩
  composers := ⟨h.composers, hu.composers, rfl⟩
  engines := h.engines
  others := rfl
  within := hu.engines
  definitions := hu.definitions
  journal := rfl
  notes := rfl

variable (h : Together g g' w u v)

include h

/-- Worlds that are together after a step agree on the group. -/
theorem agree : World.Agree g u v :=
  ⟨h.accessors.agree, h.catalogs.agree, h.composers.agree, h.engines⟩

theorem tidy : u.Tidy g :=
  ⟨h.within, h.accessors.tidy, h.catalogs.tidy, h.composers.tidy, h.definitions⟩

/-- What belongs to the other group is as it was. -/
theorem untouched : World.Agree g' w u :=
  ⟨h.accessors.rest, h.catalogs.rest, h.composers.rest, h.others⟩

/-- A step within the group shows the same of the engine that it is on. -/
theorem sighting? {s : Step} (hs : s.Within g) : s.sighting? u = s.sighting? v := by
  cases s with
  | engine name step =>
    change (if step.runs then (u.engines.get? name).map Engine.sighting else none) = _
    rw [h.get?_engine hs]
    rfl
  | _ => rfl

end Together

namespace Session

/-- A step of a group has the same outcome wherever its part is the same. -/
theorem step_within (hdisjoint : g.Disjoint g') {s : Step} (hs : s.Within g)
    (h : World.Agree g u v) (hu : u.Tidy g) : (step s u).1 = (step s v).1 ∧
      Together g g' u.cleared (step s u).2 (step s v).2 := by
  obtain ⟨hanswer, hafter⟩ := Together.inStep_step hdisjoint hs _ _ (Together.start h hu)
  refine ⟨?_, hafter⟩
  unfold step
  simp only [hanswer.eq, hafter.sighting? hs, hafter.notes, hafter.journal]

/-- The outcomes of the steps of one group, among those of all steps. -/
def outcomesOf (side : Bool) (steps : List (Bool × Step)) (outcomes : List Outcome) :
    List Outcome :=
  ((steps.zip outcomes).filter fun x => x.1.1 == side).map Prod.snd

/-- By induction on the steps: one of the group is done in both worlds, one of the other group in
the first alone. -/
theorem outcomesOf_run {groups : Bool → Group} {side : Bool}
    (hdisjoint : (groups side).Disjoint (groups !side)) {steps : List (Bool × Step)}
    (hsteps : ∀ x ∈ steps, x.2.Within (groups x.1)) (h : World.Agree (groups side) u v)
    (hu : u.Tidy (groups side)) (hu' : u.Tidy (groups !side)) :
    outcomesOf side steps (run (steps.map Prod.snd) u).1 =
      (run ((steps.filter fun x => x.1 == side).map Prod.snd) v).1 := by
  induction steps generalizing u v with
  | nil => rfl
  | cons x steps ih =>
    obtain ⟨label, s⟩ := x
    have hs := hsteps _ List.mem_cons_self
    have hrest := fun x hx => hsteps x (List.mem_cons_of_mem _ hx)
    by_cases hlabel : label = side
    · -- a step of the group is taken on both sides
      subst hlabel
      obtain ⟨houtcome, hafter⟩ := step_within hdisjoint hs h hu
      have hnext := ih hrest hafter.agree hafter.tidy
        (hu'.congr (u.agree_cleared.trans hafter.untouched))
      unfold outcomesOf at hnext ⊢
      simp only [List.map_cons, run, List.zip_cons_cons, List.filter_cons, beq_self_eq_true,
        if_true, hnext, houtcome]
    · -- a step of the other group is taken on one side only, and leaves the group alone
      obtain rfl : label = !side := by cases label <;> cases side <;> simp_all
      obtain ⟨-, hafter⟩ := step_within hdisjoint.symm hs (.refl u) hu'
      have hagree := u.agree_cleared.trans hafter.untouched
      have hnext := ih hrest (hagree.symm.trans h) (hu.congr hagree) hafter.tidy
      unfold outcomesOf at hnext ⊢
      simpa only [List.map_cons, run, List.zip_cons_cons, List.filter_cons, Bool.not_beq_self,
        Bool.false_eq_true, if_false] using hnext

/-- **Groups are isolated from each other.** Let the names of a session be divided into two groups,
such that each step mentions only names of its own group: objects that an engine works with belong
to its group, and a predicate refers only to engines of the group in which it is registered. Then
the steps of a group have the same outcomes if all steps of the other group are left out. -/
theorem groups_are_isolated (groups : Bool → Group)
    (hdisjoint : (groups true).Disjoint (groups false))
    (steps : List (Bool × Step)) (hsteps : ∀ x ∈ steps, x.2.Within (groups x.1)) (side : Bool) :
    outcomesOf side steps (outcomes (steps.map Prod.snd)) =
      outcomes ((steps.filter fun x => x.1 == side).map Prod.snd) := by
  have hsides : (groups side).Disjoint (groups !side) := by
    cases side
    · exact hdisjoint.symm
    · exact hdisjoint
  exact outcomesOf_run hsides hsteps (.refl ∅) (World.tidy_empty _) (World.tidy_empty _)

end Session

/-! ## Two engines side by side -/

namespace Neighbours

/-- The engine `a` with what it works with, and the engine `b` with what that one works with. -/
def group (side : Bool) : Group :=
  let engine := if side then "a" else "b"
  ⟨(· == engine), (· == "@" ++ engine), (· == "@" ++ engine), (· == "@" ++ engine)⟩

/-- Declarations for a form with a single field. -/
def rules : Value := .map [(.text "f", .map [(.text "x", .text "probe")])]

def setup : Setup := { values := .given (.map [(.text "f", .map [(.text "x", .text "")])]) }

/-- Both engines get a predicate of the same name. -/
def steps : List (Bool × Step) :=
  [(true, .newEngine "a" setup rules (.map [(.text "probe", .text "No.")])),
    (false, .newEngine "b" setup rules .null),
    (true, .catalog "@a" (.register { name := "probe", body := Probe.truthy.predicate "a" })),
    (false, .catalog "@b" (.register { name := "probe", body := Probe.undeclare.predicate "b" })),
    (false, .composer "@b" (.add (.map [(.text "probe", .text "Never.")]))),
    (false, .engine "b" (.validate (.text "f"))),
    (true, .engine "a" (.validate (.text "f")))]

/-- The two groups share no engine, accessor, catalog or composer. -/
theorem disjoint : (group true).Disjoint (group false) := by
  refine ⟨fun name h h' => ?_, fun name h h' => ?_, fun name h h' => ?_, fun name h h' => ?_⟩ <;>
    · rw [eq_of_beq h] at h'
      exact absurd h' (by decide)

/-- The steps of each side are within the group of that side. -/
theorem within (x : Bool × Step) (hx : x ∈ steps) : x.2.Within (group x.1) := by
  have hsetup (g : Group) : setup.Within g :=
    ⟨fun _ h => (nomatch h), fun _ h => (nomatch h), fun _ h => (nomatch h)⟩
  have hengine (side : Bool) (name : String) (h : (group side).engine name) :
      (group side).HasEngine name := by
    obtain rfl := eq_of_beq h
    exact ⟨h, beq_self_eq_true _, beq_self_eq_true _, beq_self_eq_true _⟩
  have hprobe (side : Bool) (p : Probe) (name : String) (h : (group side).engine name) :
      ({ name := "probe", body := p.predicate name } : Definition).Within (group side) := by
    intro value parameters context
    refine (p.asks_predicate name value parameters context).mono fun q hq => hq.mono ?_
    rintro _ rfl
    exact h
  simp only [steps, List.mem_cons, List.not_mem_nil, or_false] at hx
  rcases hx with rfl | rfl | rfl | rfl | rfl | rfl | rfl
  · exact ⟨hengine _ _ rfl, hsetup _⟩
  · exact ⟨hengine _ _ rfl, hsetup _⟩
  · exact ⟨rfl, hprobe _ _ _ rfl⟩
  · exact ⟨rfl, hprobe _ _ _ rfl⟩
  · rfl
  · rfl
  · rfl

/-- The outcomes of the one side are those that its steps come to without the other side. -/
theorem comes_to_alone :
    Session.outcomesOf true steps (Session.outcomes (steps.map Prod.snd)) =
        Session.outcomes ((steps.filter fun x => x.1 == true).map Prod.snd) ∧
      (Session.outcomes ((steps.filter fun x => x.1 == true).map Prod.snd)).map Outcome.answer =
        [.ok .done, .ok .done, .ok (.report (some ⟨.text "f", ⟨[(.text "x", ["No."])]⟩⟩))] :=
  ⟨Session.groups_are_isolated group disjoint steps within true, rfl⟩

end Neighbours

end FormRules
