import FormRules.Proofs.Catalog
import FormRules.Proofs.Parts
import FormRules.Proofs.Session.Trace
import FormRules.Proofs.Accessor

/-!
# Catalogs in sessions

In a session catalogs are made, empty or as copies, and definitions are registered in them, new ones
or ones that another catalog has. `CatalogEvent` lists what can happen to catalogs, and
`CatalogEvent.held` tells from all that has happened what a catalog holds: under each name the
definition that was registered last, or else the one that was copied. The catalogs of a session hold
just that (`Session.catalogs_hold`), and no step touches a catalog unless it registers something
there.

The steps of a session do one of a few things to the shelf of catalogs (`CatalogEvent.Effect`), and
each of these keeps the shelf in accord with what has happened (`Shelf.Follows`).
-/

namespace FormRules

/-! ## What happens to catalogs -/

/-- What is in a catalog when it is made. -/
inductive CatalogOrigin where
  | empty
  | builtins
  /-- what another catalog holds at the time -/
  | copy (source : Ref)

/-- What happens to a catalog. -/
inductive CatalogEvent where
  | made (r : Ref) (origin : CatalogOrigin)
  /-- a definition is registered under its name -/
  | registered (r : Ref) (d : Definition)
  /-- what a name stands for in another catalog is registered -/
  | shared (r source : Ref) (name : String)

namespace CatalogEvent

/-- The definition that a catalog holds for a name after what has happened, the latest first. -/
def held : List CatalogEvent → Ref → String → Option Definition
  | [], _, _ => none
  | made r origin :: before, r', name =>
    if r = r' then
      match origin with
      | .empty => none
      | .builtins => Catalog.builtins.resolve name
      | .copy source => held before source name
    else held before r' name
  | registered r d :: before, r', name =>
    if r = r' ∧ d.name = name then some d else held before r' name
  | shared r source key :: before, r', name =>
    match held before source key with
    | some d => if r = r' ∧ d.name = name then some d else held before r' name
    | none => held before r' name

end CatalogEvent

open CatalogEvent (held)

/-- What a step does to the catalogs, if anything. -/
def Step.catalogEvent (s : Step) (w : World) : Option CatalogEvent :=
  match s with
  | newCatalog name .empty => some (.made (w.catalogs.fresh name) .empty)
  | newCatalog name .builtins => some (.made (w.catalogs.fresh name) .builtins)
  | newCatalog name (.copy source) =>
    (w.catalogs.ref? source).map fun r => .made (w.catalogs.fresh name) (.copy r)
  | newEngine name setup _ _ | newEngineFromFile name setup _ _ =>
    -- an engine that is not given a catalog gets one of its own
    if setup.catalog = none ∧ (Session.step s w).1.answer.isOk then
      some (.made (w.catalogs.fresh (Draft.partName name)) .builtins)
    else none
  | catalog name (.register d) => (w.catalogs.ref? name).map fun r => .registered r d
  | catalog name (.share source key) =>
    (w.catalogs.ref? name).bind fun r =>
      (w.catalogs.ref? source).map fun r' => .shared r r' key
  | _ => none

/-- What has happened to the catalogs after some steps, the latest first. -/
def Session.catalogHistory : List Step → World → List CatalogEvent → List CatalogEvent
  | [], _, before => before
  | s :: steps, w, before =>
    catalogHistory steps (step s w).2 ((s.catalogEvent w).toList ++ before)

/-- The step registers something in a catalog. -/
def Step.RegistersIn (w : World) (r : Ref) : Step → Prop
  | catalog name (.register _) | catalog name (.share _ _) => w.catalogs.ref? name = some r
  | _ => False

/-! ## Steps on the shelf of catalogs -/

/-- What a new catalog holds. -/
def CatalogOrigin.Gives (s : Shelf Catalog) (c : Catalog) : CatalogOrigin → Prop
  | .empty => c = ∅
  | .builtins => c = .builtins
  | .copy r => s.get? r = some c

/-- What an event does to the shelf of catalogs. -/
inductive CatalogEvent.Effect : Option CatalogEvent → Shelf Catalog → Shelf Catalog → Prop where
  | nothing {s : Shelf Catalog} : Effect none s s
  /-- a catalog in use gets a further name -/
  | named {s : Shelf Catalog} {r : Ref} (name : String) (hr : (s.get? r).isSome) :
    Effect none s (s.bind name r)
  | made {s : Shelf Catalog} {c : Catalog} {origin : CatalogOrigin} (name : String)
    (hc : origin.Gives s c) : Effect (some (.made (s.fresh name) origin)) s (s.add name c)
  | registered {s : Shelf Catalog} {r : Ref} {c : Catalog} (d : Definition)
    (hc : s.get? r = some c) :
    Effect (some (.registered r d)) s (s.put r (c.register d))
  | shared {s : Shelf Catalog} {r source : Ref} {name : String} {c c' : Catalog} {d : Definition}
    (hc : s.get? r = some c) (hsource : s.get? source = some c') (hd : c'.resolve name = some d) :
    Effect (some (.shared r source name)) s (s.put r (c.register d))
  /-- the other catalog does not have the name -/
  | missing {s : Shelf Catalog} {source : Ref} {name : String} {c' : Catalog} (r : Ref)
    (hsource : s.get? source = some c') (hd : c'.resolve name = none) :
    Effect (some (.shared r source name)) s s

@[simp] theorem World.catalogs_cleared (w : World) : w.cleared.catalogs = w.catalogs := rfl

/-- All names stand for something. -/
def Shelf.Bound {α : Type} (s : Shelf α) : Prop :=
  ∀ name r, s.ref? name = some r → (s.get? r).isSome

open CatalogEvent (Effect)

/-! ### New engines -/

namespace Run

/-- The set-up leaves the catalogs alone until the new engine is put in place with the catalog of
the slot. -/
def SetsCatalog (name : String) (slot : Slot Catalog) (r : Run Unit) : Prop :=
  ∀ w, ((r w).1.isOk = false ∧ (r w).2.catalogs = w.catalogs) ∨
    ((r w).1.isOk ∧ (r w).2.catalogs = (Draft.settle w.catalogs (Draft.partName name) slot).2)

/-- What the run returns has a property. -/
def Returns {α : Type} (p : α → Prop) (r : Run α) : Prop := ∀ w a, (r w).1 = .ok a → p a

variable {α β : Type} {name : String} {slot : Slot Catalog}

theorem returns_pure {p : α → Prop} {a : α} (h : p a) : Returns p (pure a) := by
  rintro w _ ⟨⟩
  exact h

theorem Returns.bind {p : β → Prop} {r : Run α} {f : α → Run β} (hf : ∀ a, Returns p (f a)) :
    Returns p (r >>= f) := by
  intro w b hb
  rw [bind_apply] at hb
  rcases h : r w with ⟨fault | a, v⟩ <;> rw [h] at hb
  · cases hb
  · exact hf a v b hb

theorem SetsCatalog.after {p : α → Prop} {r : Run α} {f : α → Run Unit}
    (hr : Fixes World.catalogs r) (hp : Returns p r) (hf : ∀ a, p a → SetsCatalog name slot (f a)) :
    SetsCatalog name slot (r >>= f) := by
  intro w
  have hw := hr w
  have hresult := hp w
  rw [bind_apply]
  rcases h : r w with ⟨fault | a, v⟩ <;> rw [h] at hw hresult
  · exact .inl ⟨rfl, hw⟩
  · rw [← hw]
    exact hf a (hresult a rfl) v

theorem setsCatalog_placed {d : Draft} (hd : d.catalog = slot) :
    SetsCatalog name slot (modify (d.placed name)) := fun w =>
  .inr ⟨rfl, congrArg (fun slot => (Draft.settle w.catalogs _ slot).2) hd⟩

theorem returns_draft (p : Parts) (rules : Value) :
    Returns (fun d => d.catalog = p.catalog) (liftM (p.draft rules) : Run Draft) := by
  intro w d hd
  obtain ⟨accessor, -, hd⟩ := eq_ok_of_bind (show p.draft rules = .ok d from hd)
  obtain ⟨normalized, -, hd⟩ := eq_ok_of_bind hd
  cases hd
  rfl

theorem returns_override (d : Draft) (messages : Value) :
    Returns (fun d' => d'.catalog = d.catalog) (d.override messages) := by
  unfold Draft.override
  rcases d.composer with r | c
  · exact Returns.bind fun _ => Returns.bind fun _ => Returns.bind fun _ => returns_pure rfl
  · exact Returns.bind fun _ => returns_pure rfl

theorem setsCatalog_override {d : Draft} (hd : d.catalog = slot)
    (messages : Value) {f : Draft → Run Unit} (hf : ∀ d, d.catalog = slot →
      SetsCatalog name slot (f d)) :
    SetsCatalog name slot (d.override messages >>= f) :=
  .after (fixes_override (fun _ _ _ => rfl) d messages) (returns_override d messages)
    fun d' hd' => hf d' (hd'.trans hd)

/-- The catalog of a set-up is the one that its name stands for, or a new one. -/
theorem catalog_of_parts {s : Setup} {w : World} {p : Parts} (h : (s.parts w).1 = .ok p) :
    Setup.part w.catalogs .builtins s.catalog = .ok p.catalog := by
  rw [Setup.parts_apply] at h
  obtain ⟨values, -, h⟩ := eq_ok_of_bind h
  obtain ⟨catalog, hcatalog, h⟩ := eq_ok_of_bind h
  obtain ⟨composer, -, h⟩ := eq_ok_of_bind h
  cases h
  exact hcatalog

end Run

/-- A new engine is put in place with the catalog that it was given, or with one of its own. -/
theorem Setup.catalogs_after {s : Setup} {name : String} {f : Parts → Run Unit} {w : World}
    (hf : ∀ p, Run.SetsCatalog name p.catalog (f p)) :
    (((s.parts >>= f) w).1.isOk = false ∧ ((s.parts >>= f) w).2.catalogs = w.catalogs) ∨
      (((s.parts >>= f) w).1.isOk ∧ ∃ slot, Setup.part w.catalogs .builtins s.catalog = .ok slot ∧
        ((s.parts >>= f) w).2.catalogs =
          (Draft.settle w.catalogs (Draft.partName name) slot).2) := by
  have hw : (s.parts w).2 = w := Run.reads_parts s w
  rw [Run.bind_apply]
  rcases h : s.parts w with ⟨fault | p, v⟩ <;> rw [h] at hw <;> subst hw
  · exact .inl ⟨rfl, rfl⟩
  · have hslot := Run.catalog_of_parts (p := p) (congrArg Prod.fst h)
    exact (hf p v).imp_right fun ⟨hok, hcatalogs⟩ => ⟨hok, p.catalog, hslot, hcatalogs⟩

theorem Shelf.find_eq_ok_iff {α : Type} {s : Shelf α} {name : String} {r : Ref} :
    s.find name = .ok r ↔ s.ref? name = some r := by
  unfold find
  rcases s.ref? name with _ | r' <;> simp

namespace CatalogEvent.Effect

variable {w : World}

/-- A new engine gives its catalog a name, or brings one with it. -/
theorem engine {setup : Setup} {name : String} {ok : Bool} {t : Shelf Catalog}
    (hbound : w.catalogs.Bound)
    (h : (ok = false ∧ t = w.catalogs) ∨
      (ok ∧ ∃ slot, Setup.part w.catalogs .builtins setup.catalog = .ok slot ∧
        t = (Draft.settle w.catalogs (Draft.partName name) slot).2)) :
    Effect (if setup.catalog = none ∧ ok then
      some (.made (w.catalogs.fresh (Draft.partName name)) .builtins) else none) w.catalogs t := by
  rcases h with ⟨rfl, rfl⟩ | ⟨hok, slot, hslot, rfl⟩
  · simpa using Effect.nothing
  · rcases hcatalog : setup.catalog with _ | n <;> rw [hcatalog] at hslot
    · cases hslot
      have hgives : CatalogOrigin.builtins.Gives w.catalogs .builtins := rfl
      rw [if_pos ⟨rfl, hok⟩]
      exact .made _ hgives
    · obtain ⟨r, hr, hslot⟩ := Run.eq_ok_of_bind hslot
      cases hslot
      rw [if_neg (by simp)]
      exact .named _ (hbound n r (Shelf.find_eq_ok_iff.mp hr))

end CatalogEvent.Effect

namespace Run

theorem newEngine_catalogs (name : String) (rules messages : Value) (p : Parts) :
    SetsCatalog name p.catalog (liftM (p.draft rules) >>= fun d => d.override messages >>= fun d =>
      modify (d.placed name)) :=
  .after (reads_lift _).fixes (returns_draft p rules) fun _ hd =>
    setsCatalog_override hd messages fun _ => setsCatalog_placed

theorem newEngineFromFile_catalogs (tools : Tools) (name : String) (file : RuleFile)
    (messages : Value) (p : Parts) :
    SetsCatalog name p.catalog (file.load tools >>= fun document =>
      liftM (p.draft document.formsValue) >>= fun d =>
        d.override document.messagesValue >>= fun d => d.override messages >>= fun d =>
          modify (d.placed name)) :=
  .after (p := fun _ => True) (fixes_load (fun _ _ => rfl) tools file) (fun _ _ _ => trivial)
    fun _ _ => .after (reads_lift _).fixes (returns_draft p _) fun _ hd =>
      setsCatalog_override hd _ fun _ hd => setsCatalog_override hd messages fun _ =>
        setsCatalog_placed

/-- A run keeps the catalogs as they are. -/
theorem closed_catalogs (cs : Shelf Catalog) : Traced.Closed fun _ w => w.catalogs = cs where
  log _ h := h
  note _ h := h
  write _ _ h := h
  declare _ _ h := (World.catalogs_updateEngine _ _ _).trans h
  move _ _ h := (World.catalogs_updateEngine _ _ _).trans h
  publish _ _ h := (World.catalogs_updateEngine _ _ _).trans h
  mark _ h := h

end Run

theorem EngineStep.fixes_catalogs (name : String) (step : EngineStep) :
    (step.perform name).Fixes World.catalogs := by
  intro w
  have hclosed := Run.closed_catalogs w.catalogs
  rw [← EngineStep.erase_traced]
  exact (hclosed.steady none).engineStep (hclosed.validate _) name step [] w rfl

theorem Run.fixes_catalogs_tryOut (d : Definition) (trial : Trial) :
    (Run.tryOut d trial).Fixes World.catalogs := by
  intro w
  have hclosed := Run.closed_catalogs w.catalogs
  rw [← Traced.erase_tryOut]
  exact (hclosed.steady none).tryOut (hclosed.validate _) d trial [] w rfl

namespace Step

open Run

variable {w : World}

theorem effect_of_fixes {s : Step} (hfixes : s.perform.Fixes World.catalogs)
    (hevent : s.catalogEvent w = none) :
    Effect (s.catalogEvent w) w.catalogs (Session.step s w).2.catalogs := by
  have hsame : (Session.step s w).2.catalogs = w.catalogs := hfixes w.cleared
  rw [hevent, hsame]
  exact .nothing

theorem effect_newCatalog (hbound : w.catalogs.Bound) (name : String) (source : CatalogSource) :
    Effect ((newCatalog name source).catalogEvent w) w.catalogs
      (Session.step (newCatalog name source) w).2.catalogs := by
  cases source with
  | builtins =>
    have hgives : CatalogOrigin.builtins.Gives w.catalogs .builtins := rfl
    exact .made name hgives
  | empty =>
    have hgives : CatalogOrigin.empty.Gives w.catalogs .empty := rfl
    exact .made name hgives
  | copy n =>
    rcases hr : w.catalogs.ref? n with _ | r
    · have hfind : w.catalogs.find n = .error (.unknownName n) := by simp [Shelf.find, hr]
      have hsame : (Session.step (newCatalog name (.copy n)) w).2.catalogs = w.catalogs := by
        simp [Session.step, perform, catalogOf, bind_apply, Run.world, hfind]
      have hevent : (newCatalog name (.copy n)).catalogEvent w = none := by simp [catalogEvent, hr]
      rw [hevent, hsame]
      exact .nothing
    · obtain ⟨c, hc⟩ := Option.isSome_iff_exists.mp (hbound n r hr)
      have hfind : w.catalogs.find n = .ok r := Shelf.find_eq_ok_iff.mpr hr
      have hadded : (Session.step (newCatalog name (.copy n)) w).2.catalogs =
          w.catalogs.add name c := by
        simp [Session.step, perform, catalogOf, bind_apply, Run.world, catalog_apply, known, hfind,
          hc, -bind_pure_comp]
      have hevent : (newCatalog name (.copy n)).catalogEvent w =
          some (.made (w.catalogs.fresh name) (.copy r)) := by simp [catalogEvent, hr]
      rw [hevent, hadded]
      exact .made name hc

/-- A step that sets up an engine. -/
theorem effect_setUp (hbound : w.catalogs.Bound) {s : Step} {name : String} {setup : Setup}
    {f : Parts → Run Unit} (hs : s.perform = (setup.parts >>= f) >>= fun _ => pure Answer.done)
    (hf : ∀ p, SetsCatalog name p.catalog (f p))
    (hevent : s.catalogEvent w = if setup.catalog = none ∧ (Session.step s w).1.answer.isOk then
      some (.made (w.catalogs.fresh (Draft.partName name)) .builtins) else none) :
    Effect (s.catalogEvent w) w.catalogs (Session.step s w).2.catalogs := by
  have hperform : s.perform w.cleared =
      (((setup.parts >>= f) w.cleared).1.map fun _ => Answer.done,
        ((setup.parts >>= f) w.cleared).2) := by
    rw [hs]
    exact bind_pure_apply _ _ _
  have hworld : (Session.step s w).2 = ((setup.parts >>= f) w.cleared).2 :=
    congrArg Prod.snd hperform
  have hanswer : (Session.step s w).1.answer.isOk = ((setup.parts >>= f) w.cleared).1.isOk := by
    change (s.perform w.cleared).1.isOk = _
    rw [hperform]
    rcases ((setup.parts >>= f) w.cleared).1 with _ | _ <;> rfl
  rw [hevent, hanswer, hworld]
  exact .engine hbound (setup.catalogs_after hf)

theorem effect_share (hbound : w.catalogs.Bound) {name : String} {r : Ref} {c : Catalog}
    (hr : w.catalogs.ref? name = some r) (hc : w.catalogs.get? r = some c) (source key : String) :
    Effect ((catalog name (.share source key)).catalogEvent w) w.catalogs
      ((CatalogStep.share source key).perform r w.cleared).2.catalogs := by
  rcases hsource : w.catalogs.ref? source with _ | r'
  · have hfind : w.catalogs.find source = .error (.unknownName source) := by
      simp [Shelf.find, hsource]
    have hsame : ((CatalogStep.share source key).perform r w.cleared).2.catalogs = w.catalogs := by
      simp [CatalogStep.perform, bind_apply, Run.world, hfind, -bind_pure_comp]
    have hevent : (catalog name (.share source key)).catalogEvent w = none := by
      simp [catalogEvent, hr, hsource]
    rw [hevent, hsame]
    exact .nothing
  · obtain ⟨c', hc'⟩ := Option.isSome_iff_exists.mp (hbound source r' hsource)
    have hfind : w.catalogs.find source = .ok r' := Shelf.find_eq_ok_iff.mpr hsource
    have hevent : (catalog name (.share source key)).catalogEvent w = some (.shared r r' key) := by
      simp [catalogEvent, hr, hsource]
    rw [hevent]
    rcases hd : c'.resolve key with _ | d
    · have hsame : ((CatalogStep.share source key).perform r w.cleared).2.catalogs =
          w.catalogs := by
        simp [CatalogStep.perform, bind_apply, Run.world, catalog_apply, known, Catalog.lookUp,
          hfind, hc', hd, -bind_pure_comp]
      rw [hsame]
      exact .missing r hc' hd
    · have hput : ((CatalogStep.share source key).perform r w.cleared).2.catalogs =
          w.catalogs.put r (c.register d) := by
        simp [CatalogStep.perform, bind_apply, Run.world, catalog_apply, known, Catalog.lookUp,
          hfind, hc, hc', hd, -bind_pure_comp]
      rw [hput]
      exact .shared hc hc' hd

theorem effect_catalogStep (hbound : w.catalogs.Bound) {name : String} {r : Ref}
    (hr : w.catalogs.ref? name = some r) (step : CatalogStep) :
    Effect ((catalog name step).catalogEvent w) w.catalogs
      (step.perform r w.cleared).2.catalogs := by
  obtain ⟨c, hc⟩ := Option.isSome_iff_exists.mp (hbound name r hr)
  have hfixes (h : (step.perform r).Fixes World.catalogs)
      (hevent : (catalog name step).catalogEvent w = none) :
      Effect ((catalog name step).catalogEvent w) w.catalogs
        (step.perform r w.cleared).2.catalogs := by
    rw [hevent, h w.cleared]
    exact .nothing
  cases step with
  | register d =>
    have hput : ((CatalogStep.register d).perform r w.cleared).2.catalogs =
        w.catalogs.put r (c.register d) := by
      simp [CatalogStep.perform, bind_apply, catalog_apply, known, hc, -bind_pure_comp]
    have hevent : (catalog name (.register d)).catalogEvent w = some (.registered r d) := by
      simp [catalogEvent, hr]
    rw [hevent, hput]
    exact .registered d hc
  | share source key => exact effect_share hbound hr hc source key
  | names => exact hfixes (Reads.fixes ((reads_catalog r).bind fun _ => reads_pure _)) rfl
  | size => exact hfixes (Reads.fixes ((reads_catalog r).bind fun _ => reads_pure _)) rfl
  | has n => exact hfixes (Reads.fixes ((reads_catalog r).bind fun _ => reads_pure _)) rfl
  | describe n =>
    exact hfixes (Reads.fixes ((reads_catalog r).bind fun _ => (reads_lift _).bind fun _ =>
      reads_pure _)) rfl
  | call n trial =>
    exact hfixes ((reads_catalog r).fixes.bind fun _ => (reads_lift _).fixes.bind fun d =>
      (fixes_catalogs_tryOut d trial).bind fun _ => (reads_pure _).fixes) rfl

theorem effect_catalog (hbound : w.catalogs.Bound) (name : String) (step : CatalogStep) :
    Effect ((catalog name step).catalogEvent w) w.catalogs
      (Session.step (catalog name step) w).2.catalogs := by
  rcases hr : w.catalogs.ref? name with _ | r
  · have hfind : w.catalogs.find name = .error (.unknownName name) := by simp [Shelf.find, hr]
    have hsame : (Session.step (catalog name step) w).2.catalogs = w.catalogs := by
      simp [Session.step, perform, bind_apply, Run.world, hfind]
    have hevent : (catalog name step).catalogEvent w = none := by
      cases step <;> simp [catalogEvent, hr]
    rw [hevent, hsame]
    exact .nothing
  · have hfind : w.catalogs.find name = .ok r := Shelf.find_eq_ok_iff.mpr hr
    have hstep : (Session.step (catalog name step) w).2.catalogs =
        (step.perform r w.cleared).2.catalogs := by
      simp [Session.step, perform, bind_apply, Run.world, hfind]
    rw [hstep]
    exact effect_catalogStep hbound hr step

/-- **A step does to the catalogs what its event says.** -/
theorem effect (hbound : w.catalogs.Bound) (s : Step) :
    Effect (s.catalogEvent w) w.catalogs (Session.step s w).2.catalogs := by
  have hadd : ∀ f : World → World, (∀ w, (f w).catalogs = w.catalogs) →
      (do Run.modify f; return Answer.done : Run Answer).Fixes World.catalogs := fun f hf =>
    Run.Fixes.bind hf fun _ => (Run.reads_pure _).fixes
  cases s with
  | newCatalog name source => exact effect_newCatalog hbound name source
  | newComposer name messages =>
    exact effect_of_fixes ((reads_lift _).fixes.bind fun _ => hadd _ fun _ => rfl) rfl
  | newAccessor name values =>
    exact effect_of_fixes ((reads_lift _).fixes.bind fun _ => hadd _ fun _ => rfl) rfl
  | newFunction name function => exact effect_of_fixes (hadd _ fun _ => rfl) rfl
  | newEngine name setup rules messages =>
    exact effect_setUp hbound rfl (newEngine_catalogs name rules messages) rfl
  | newEngineFromFile name setup file messages =>
    exact effect_setUp hbound rfl (newEngineFromFile_catalogs _ name file messages) rfl
  | engine name step => exact effect_of_fixes (step.fixes_catalogs name) rfl
  | accessor name step =>
    exact effect_of_fixes (reads_world.fixes.bind fun _ => (reads_lift _).fixes.bind fun r =>
      step.fixes (fun _ _ _ => rfl) r) rfl
  | catalog name step => exact effect_catalog hbound name step
  | composer name step =>
    exact effect_of_fixes (reads_world.fixes.bind fun _ => (reads_lift _).fixes.bind fun r =>
      step.fixes (fun _ _ _ => rfl) (fun _ _ => rfl) r) rfl

end Step

/-! ## The shelf and what has happened -/

/-- The number of objects under a name grows with each object that is new. -/
theorem Shelf.serial_fresh_put {α : Type} (s : Shelf α) (r : Ref) (a : α) (name : String) :
    ((s.put r a).fresh name).serial =
      (s.fresh name).serial + if r.name = name ∧ s.get? r = none then 1 else 0 := by
  have hfilter := Table.filter_put (fun r : Ref => r.name == name) r a s.objects.entries
  change ((Table.put r a s.objects.entries).filter fun e => e.1.name == name).length =
    (s.objects.entries.filter fun e => e.1.name == name).length + _
  rw [hfilter]
  by_cases hname : r.name = name
  · have hget : Table.find r (s.objects.entries.filter fun e => e.1.name == name) = s.get? r :=
      Table.find_filter (p := fun r : Ref => r.name == name)
        (by simpa using hname) s.objects.entries
    rw [if_pos (by simpa using hname), Table.length_put, hget]
    rcases s.get? r with _ | b <;> simp [hname]
  · rw [if_neg (by simpa using hname), if_neg (fun h => hname h.1), Nat.add_zero]

/-- The catalogs on the shelf are those that have been made, and they hold what they were given. -/
structure Shelf.Follows (s : Shelf Catalog) (history : List CatalogEvent) : Prop where
  bound : s.Bound
  numbered : ∀ r, (s.get? r).isSome → r.serial < (s.fresh r.name).serial
  made : ∀ r, (s.get? r).isSome ↔ ∃ origin, .made r origin ∈ history
  kept : ∀ r c, s.get? r = some c → c.WellKept
  holds : ∀ r c, s.get? r = some c → c.resolve = held history r

namespace Shelf.Follows

variable {s t : Shelf Catalog} {history : List CatalogEvent} {r : Ref} {c : Catalog}

theorem empty : Follows ∅ [] where
  bound _ _ h := nomatch h
  numbered _ h := nomatch h
  made _ := ⟨fun h => (nomatch h), fun ⟨_, h⟩ => (nomatch h)⟩
  kept _ _ h := nomatch h
  holds _ _ h := nomatch h

/-- The next reference of a name is not in use. -/
theorem get?_fresh (hs : s.Follows history) (name : String) : s.get? (s.fresh name) = none := by
  rcases h : s.get? (s.fresh name) with _ | c
  · rfl
  · exact absurd (hs.numbered (s.fresh name) (by rw [h]; rfl)) (lt_irrefl _)

theorem bind (hs : s.Follows history) (name : String) (hr : (s.get? r).isSome) :
    (s.bind name r).Follows history := by
  refine ⟨fun n r' h => ?_, hs.numbered, hs.made, hs.kept, hs.holds⟩
  change (s.names.set name r).get? n = some r' at h
  rw [Table.get?_set] at h
  split at h
  · cases h
    exact hr
  · exact hs.bound n r' h

theorem numbered_put (hs : s.Follows history) (hr : r.serial < ((s.put r c).fresh r.name).serial)
    (r' : Ref) (hr' : ((s.put r c).get? r').isSome) :
    r'.serial < ((s.put r c).fresh r'.name).serial := by
  by_cases h : r = r'
  · rwa [h] at hr ⊢
  · rw [Shelf.get?_put, if_neg h] at hr'
    rw [Shelf.serial_fresh_put]
    exact Nat.lt_add_right _ (hs.numbered r' hr')

/-- A catalog changes, or there is a new one. -/
theorem put {event : CatalogEvent} (hs : s.Follows history)
    (hserial : r.serial < ((s.put r c).fresh r.name).serial)
    (hmade : ∀ r', (∃ origin, .made r' origin ∈ event :: history) ↔
      r = r' ∨ ∃ origin, .made r' origin ∈ history)
    (hkept : c.WellKept) (hself : c.resolve = held (event :: history) r)
    (hother : ∀ r', r ≠ r' → held (event :: history) r' = held history r') :
    (s.put r c).Follows (event :: history) where
  bound n r' h := by
    have hr' := hs.bound n r' h
    rw [Shelf.get?_put]
    split
    · rfl
    · exact hr'
  numbered := hs.numbered_put hserial
  made r' := by
    rw [hmade, ← hs.made, Shelf.get?_put]
    split
    · next h => simp [h]
    · next h => simp [h]
  kept r' c' h := by
    rw [Shelf.get?_put] at h
    split at h
    · cases h
      exact hkept
    · exact hs.kept r' c' h
  holds r' c' h := by
    rw [Shelf.get?_put] at h
    split at h
    · next heq =>
      cases h
      exact heq ▸ hself
    · next heq => rw [hother r' heq, hs.holds r' c' h]

/-- A definition comes into a catalog. -/
theorem register {event : CatalogEvent} (hs : s.Follows history) (hr : s.get? r = some c)
    (d : Definition)
    (hevent : ∀ r origin, .made r origin ≠ event)
    (hheld : ∀ r' name, held (event :: history) r' name =
      if r = r' ∧ d.name = name then some d else held history r' name) :
    (s.put r (c.register d)).Follows (event :: history) := by
  have hpresent : (s.get? r).isSome := by rw [hr]; rfl
  refine hs.put ?_ (fun r' => ?_) ((hs.kept r c hr).register d) ?_ fun r' hr' => ?_
  · rw [Shelf.serial_fresh_put]
    exact Nat.lt_add_right _ (hs.numbered r hpresent)
  · -- the catalog is one of those that have been made
    simp only [List.mem_cons, hevent, false_or, ← hs.made]
    constructor
    · exact .inr
    · rintro (rfl | h)
      · exact hpresent
      · exact h
  · funext name
    simp [hheld, Catalog.resolve_register, hs.holds r c hr]
  · funext name
    simp [hheld, hr']

/-- A catalog is made. -/
theorem add {origin : CatalogOrigin} (hs : s.Follows history) (name : String) (hkept : c.WellKept)
    (hself : c.resolve = held (.made (s.fresh name) origin :: history) (s.fresh name)) :
    (s.add name c).Follows (.made (s.fresh name) origin :: history) := by
  have hput : ((s.put (s.fresh name) c).get? (s.fresh name)).isSome := by
    rw [Shelf.get?_put, if_pos rfl]
    rfl
  have hshelf : (s.put (s.fresh name) c).Follows (.made (s.fresh name) origin :: history) := by
    refine hs.put ?_ (fun r => ?_) hkept hself fun r hr => ?_
    · rw [Shelf.serial_fresh_put, if_pos ⟨rfl, hs.get?_fresh name⟩]
      exact Nat.lt_succ_self _
    · simp [exists_or, eq_comm]
    · funext n
      simp [held, hr]
  exact hshelf.bind name hput

theorem wellKept_of_gives {origin : CatalogOrigin} (hs : s.Follows history)
    (hc : origin.Gives s c) :
    c.WellKept := by
  cases origin with
  | empty => exact (show c = ∅ from hc) ▸ Catalog.wellKept_empty
  | builtins => exact (show c = .builtins from hc) ▸ Catalog.wellKept_ofList _
  | copy r => exact hs.kept r c hc

theorem resolve_of_gives {origin : CatalogOrigin} (hs : s.Follows history) (hc : origin.Gives s c)
    (r : Ref) : c.resolve = held (.made r origin :: history) r := by
  funext name
  cases origin with
  | empty =>
    rw [show c = ∅ from hc]
    simp [held, Catalog.resolve]
  | builtins =>
    rw [show c = .builtins from hc]
    simp [held]
  | copy source =>
    rw [hs.holds source c hc]
    simp [held]

/-- **What a step does to the catalogs is what its event tells of them.** -/
theorem effect {event : Option CatalogEvent} (hs : s.Follows history) (he : Effect event s t) :
    t.Follows (event.toList ++ history) := by
  cases he with
  | nothing => exact hs
  | named name hr => exact hs.bind name hr
  | made name hc => exact hs.add name (hs.wellKept_of_gives hc) (hs.resolve_of_gives hc _)
  | registered d hc => exact hs.register hc d (fun _ _ h => nomatch h) fun _ _ => rfl
  | shared hc hsource hd =>
    rw [hs.holds _ _ hsource] at hd
    refine hs.register hc _ (fun _ _ h => nomatch h) fun r' name => ?_
    simp [held, hd]
  | missing r hsource hd =>
    rw [hs.holds _ _ hsource] at hd
    refine ⟨hs.bound, hs.numbered, fun r' => ?_, hs.kept, fun r' c' h => ?_⟩
    · simpa using hs.made r'
    · rw [hs.holds r' c' h]
      funext name
      simp [held, hd]

/-- Catalogs in which nothing is registered stay as they are. -/
theorem get?_effect {event : Option CatalogEvent} (hs : s.Follows history) (he : Effect event s t)
    (hr : s.get? r = some c) (hregistered : ∀ d, event ≠ some (.registered r d))
    (hshared : ∀ source name, event ≠ some (.shared r source name)) : t.get? r = some c := by
  have hput {r' : Ref} (h : r' ≠ r) (c' : Catalog) : (s.put r' c').get? r = some c := by
    rw [Shelf.get?_put, if_neg h, hr]
  cases he with
  | nothing => exact hr
  | named name _ => exact hr
  | made name _ =>
    refine hput (fun h => ?_) _
    have hnew := hs.get?_fresh name
    rw [h, hr] at hnew
    cases hnew
  | registered d _ => exact hput (fun h => hregistered d (h ▸ rfl)) _
  | shared _ _ _ => exact hput (fun h => hshared _ _ (by rw [h])) _
  | missing _ _ _ => exact hr

end Shelf.Follows

theorem Step.registersIn_of_registered {s : Step} {w : World} {r : Ref} {d : Definition}
    (h : s.catalogEvent w = some (.registered r d)) : s.RegistersIn w r := by
  unfold catalogEvent at h
  split at h <;> simp_all [RegistersIn, Option.bind_eq_some_iff]

theorem Step.registersIn_of_shared {s : Step} {w : World} {r source : Ref} {name : String}
    (h : s.catalogEvent w = some (.shared r source name)) : s.RegistersIn w r := by
  unfold catalogEvent at h
  split at h <;> simp_all [RegistersIn, Option.bind_eq_some_iff]

namespace Session

/-- By induction on the steps. -/
theorem follows_catalogHistory (steps : List Step) {w : World} {history : List CatalogEvent}
    (hw : w.catalogs.Follows history) :
    (run steps w).2.catalogs.Follows (catalogHistory steps w history) := by
  induction steps generalizing w history with
  | nil => exact hw
  | cons s steps ih => exact ih (hw.effect (s.effect hw.bound))

/-- **The catalogs of a session hold what has been registered in them, or else what they were made
from.** Whatever the session does: its catalogs are those that have been made; each of them answers
all questions as one that holds the definitions that its history tells; and a step that registers
nothing in a catalog, in particular one that changes or makes others, leaves it as it is. -/
theorem catalogs_hold (steps : List Step) :
    let w := (run steps ∅).2
    let history := catalogHistory steps ∅ []
    (∀ r, (w.catalogs.get? r).isSome ↔ ∃ origin, .made r origin ∈ history) ∧
      (∀ r c, w.catalogs.get? r = some c → c.Holds (held history r)) ∧
      ∀ s r c, w.catalogs.get? r = some c → ¬ s.RegistersIn w r →
        (step s w).2.catalogs.get? r = some c := by
  intro w history
  have hfollows : w.catalogs.Follows history := follows_catalogHistory steps .empty
  refine ⟨hfollows.made, fun r c hc => ?_, fun s r c hc hs => ?_⟩
  · rw [← hfollows.holds r c hc]
    exact (hfollows.kept r c hc).holds
  · exact hfollows.get?_effect (s.effect hfollows.bound) hc
      (fun _ h => hs (Step.registersIn_of_registered h)) fun _ _ h =>
        hs (Step.registersIn_of_shared h)

end Session

namespace CopiedCatalog

open Session

def older : Definition := ⟨"even", Probe.truthy.predicate "older", false, "First."⟩

def newer : Definition := ⟨"even", Probe.truthy.predicate "newer", false, "Second."⟩

/-- The definition is replaced in the source after the copy was made. -/
def steps : List Step :=
  [.newCatalog "source" .empty, .catalog "source" (.register older),
    .newCatalog "copy" (.copy "source"), .catalog "source" (.register newer),
    .catalog "copy" (.share "source" "odd")]

theorem copy_holds_older :
    ((run steps ∅).2.catalogs.get? ⟨"copy", 0⟩ = some (Catalog.register ∅ older) ∧
      ¬ (Step.catalog "source" (.share "copy" "even")).RegistersIn (run steps ∅).2 ⟨"copy", 0⟩) ∧
      (Catalog.register ∅ older).Holds (held (catalogHistory steps ∅ []) ⟨"copy", 0⟩) ∧
      held (catalogHistory steps ∅ []) ⟨"copy", 0⟩ "even" = some older ∧
      held (catalogHistory steps ∅ []) ⟨"source", 0⟩ "even" = some newer ∧
      (step (.catalog "source" (.share "copy" "even")) (run steps ∅).2).2.catalogs.get?
        ⟨"copy", 0⟩ =
        some (Catalog.register ∅ older) := by
  have hcopy : (run steps ∅).2.catalogs.get? ⟨"copy", 0⟩ = some (Catalog.register ∅ older) := rfl
  have hother : ¬ (Step.catalog "source" (.share "copy" "even")).RegistersIn (run steps ∅).2
      ⟨"copy", 0⟩ := by
    change ¬ (run steps ∅).2.catalogs.ref? "source" = some ⟨"copy", 0⟩
    rw [show (run steps ∅).2.catalogs.ref? "source" = some ⟨"source", 0⟩ from rfl]
    decide
  obtain ⟨-, hholds, hkept⟩ := catalogs_hold steps
  exact ⟨⟨hcopy, hother⟩, hholds _ _ hcopy, rfl, rfl, hkept _ _ _ hcopy hother⟩

end CopiedCatalog

end FormRules
