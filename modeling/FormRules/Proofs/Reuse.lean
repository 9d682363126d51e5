import FormRules.Proofs.Accessor
import FormRules.Proofs.Nesting
import FormRules.Proofs.Predicate.Asks

/-!
# Engines that are used again

An engine whose predicates look at values, parameters and siblings only keeps nothing from one run
to the next but its last report, and no run looks at that. So what such an engine has been asked to
do before, and how it ended, makes no difference: the next run comes to what it would come to on an
engine that has just been built alike (`Session.reused_engine_eq_new`).

That earlier runs leave no trace is a case of nested runs that do not disturb the outer one: a
predicate that asks for nothing but siblings is a harmless one. What is new here is the engine built
alike, in a world of its own with other names.
-/

namespace FormRules

open Run

/-! ## Engines built alike -/

namespace Engine

/-- The engines, each in its world, have the same configuration and rules, and objects in the same
state. -/
structure Replicates (w : World) (e : Engine) (v : World) (e' : Engine) : Prop where
  config : e.config = e'.config
  rules : e.rules = e'.rules
  accessor : known e.accessor.name (w.accessors.get? e.accessor) =
    known e'.accessor.name (v.accessors.get? e'.accessor)
  catalog : known e.catalog.name (w.catalogs.get? e.catalog) =
    known e'.catalog.name (v.catalogs.get? e'.catalog)
  composer : known e.composer.name (w.composers.get? e.composer) =
    known e'.composer.name (v.composers.get? e'.composer)

/-- The predicates that the engine finds are built in, or ask for nothing but siblings. -/
def Modest (e : Engine) (w : World) : Prop :=
  ∀ c method d, w.catalogs.get? e.catalog = some c → c.resolve method = some d →
    d ∈ Catalog.builtinDefinitions ∨ d.AsksSiblings

/-- The predicates of a modest engine ask for siblings only. -/
theorem Modest.asks {e : Engine} {w : World} (h : e.Modest w) {text : String}
    {prepared : PreparedRule} {d : Definition} (hd : (resolve e text w).1 = .ok (prepared, d)) :
    d.AsksSiblings := by
  obtain ⟨c, hc, hresolve⟩ := registered_of_resolve hd
  exact (h c _ d hc hresolve).elim Catalog.asks_builtin id

end Engine

/-- What is in a slot. -/
def Slot.content {α : Type} (shelf : Shelf α) : Slot α → Option α
  | .shared r => shelf.get? r
  | .fresh a => some a

/-- The draft is one for an engine like the given one: it has the same configuration and rules, and
its values, predicates and templates are the same. -/
structure Draft.Copies (d : Draft) (v w : World) (e : Engine) : Prop where
  config : d.config = e.config
  rules : d.rules = e.rules
  accessor : ∃ a, w.accessors.get? e.accessor = some a ∧ d.accessor.content v.accessors = some a
  catalog : ∃ c, w.catalogs.get? e.catalog = some c ∧ d.catalog.content v.catalogs = some c
  composer : ∃ c, w.composers.get? e.composer = some c ∧ d.composer.content v.composers = some c

/-- An object that is placed is found. -/
theorem Draft.get?_settle {α : Type} (shelf : Shelf α) (name : String) (slot : Slot α) :
    (Draft.settle shelf name slot).2.get? (Draft.settle shelf name slot).1 =
      slot.content shelf := by
  cases slot with
  | shared r => rfl
  | fresh a => exact Table.get?_set_self _ _ _

/-- A draft that is placed gives an engine like the one it copies. -/
theorem Draft.Copies.replicates {d : Draft} {v w : World} {e : Engine} (h : d.Copies v w e)
    (name : String) : ∃ e', (d.placed name v).engines.get? name = some e' ∧
      e.Replicates w (d.placed name v) e' := by
  have hknown {α : Type} {s t : Shelf α} {r : Ref} {slot : Slot α}
      (h : ∃ a, s.get? r = some a ∧ slot.content t = some a) :
      known r.name (s.get? r) = known (Draft.settle t (partName name) slot).1.name
        ((Draft.settle t (partName name) slot).2.get? (Draft.settle t (partName name) slot).1) := by
    obtain ⟨a, hs, ht⟩ := h
    rw [Draft.get?_settle, hs, ht]
    rfl
  exact ⟨_, Table.get?_set_self _ _ _, h.config.symm, h.rules.symm, hknown h.accessor,
    hknown h.catalog, hknown h.composer⟩

/-! ## Two worlds, each with its engine -/

section

variable {w v : World} {name name' : String} {e e' : Engine}

/-- Each world has changed at most in what its engine tells of its runs. -/
def Apart (w : World) (name : String) (v : World) (name' : String) (_ : List Scene) (u u' : World) :
    Prop :=
  World.AlikeAround name w u ∧ World.AlikeAround name' v u'

theorem Apart.quiet {h : List Scene} {u u' : World} (hu : Apart w name v name' h u u')
    (js js' : List Record) (ns ns' : List Value) : Apart w name v name' h
      { u with journal := js, notes := ns } { u' with journal := js', notes := ns' } :=
  ⟨hu.1.quiet js ns, hu.2.quiet js' ns'⟩

/-- Worlds stay apart when the cursors of the two engines move. -/
theorem Apart.setCursor {h : List Scene} {u u' : World} (hu : Apart w name v name' h u u')
    (cursor cursor' : Option Context) :
    Apart w name v name' h (Run.setCursor name cursor u) (Run.setCursor name' cursor' u') :=
  ⟨hu.1.trans (World.alikeAround_setCursor u cursor),
    hu.2.trans (World.alikeAround_setCursor u' cursor')⟩

/-- They stay apart when both engines publish the same report. -/
theorem Apart.publish {h : List Scene} {u u' : World} (hu : Apart w name v name' h u u')
    (report : Report) :
    Apart w name v name' h (Run.publish name report u) (Run.publish name' report u') :=
  ⟨hu.1.trans (World.alikeAround_of_inside (World.alikeInside_publish u report)),
    hu.2.trans (World.alikeAround_of_inside (World.alikeInside_publish u' report))⟩

/-- Kindred engines replicate each other in worlds that differ in what the engines tell of their
runs. -/
theorem Engine.Replicates.kin {u u' : World} (hrep : e.Replicates w v e') {d d' : Engine}
    (hd : e.Kin d) (hd' : e'.Kin d') (hu : World.AlikeAround name w u)
    (hu' : World.AlikeAround name' v u') : d.Replicates u u' d' := by
  obtain ⟨cursor, last, rfl⟩ := hd
  obtain ⟨cursor', last', rfl⟩ := hd'
  refine ⟨hrep.config, hrep.rules, ?_, ?_, ?_⟩
  · rw [← hu.accessors, ← hu'.accessors]
    exact hrep.accessor
  · rw [← hu.catalogs, ← hu'.catalogs]
    exact hrep.catalog
  · rw [← hu.composers, ← hu'.composers]
    exact hrep.composer

/-- A replica reads the same values. -/
theorem Engine.Replicates.read {w v : World} (hrep : e.Replicates w v e') (form field : Value) :
    (readField e.accessor form field w).1 = (readField e'.accessor form field v).1 := by
  change w.holds e.accessor form field = v.holds e'.accessor form field
  rw [World.holds_eq, World.holds_eq, hrep.accessor]

/-- A replica resolves rules to the same predicates. -/
theorem Engine.Replicates.resolve {w v : World} (hrep : e.Replicates w v e') (text : String) :
    (Run.resolve e text w).1 = (Run.resolve e' text v).1 := by
  rw [resolve_fst, resolve_fst, hrep.config, hrep.catalog]

/-- What is resolved in the course of a run asks for nothing but siblings. -/
theorem Engine.Modest.kin {u : World} (hmodest : e.Modest w) {d : Engine} (hd : e.Kin d)
    (hu : World.AlikeAround name w u) : d.Modest u := by
  obtain ⟨cursor, last, rfl⟩ := hd
  intro c method definition hc
  rw [← hu.catalogs] at hc
  exact hmodest c method definition hc

section

variable (hrep : e.Replicates w v e') {d d' : Engine} (hd : e.Kin d) (hd' : e'.Kin d')

include hrep hd hd'

/-- Engines that replicate each other read the same. -/
theorem Engine.Replicates.abreast (hmodest : e.Modest w) : Traced.Abreast (Apart w name v name')
    (fun x y => x = y ∧ x.AsksSiblings) d d' := by
  refine ⟨fun rs hu => hu.quiet _ _ _ _, fun _ hu => hu, fun form field hu => ?_,
    fun {h u u'} text hu => ?_, fun {h u u'} hu => ?_⟩
  · exact .of_eq ((hrep.kin hd hd' hu.1 hu.2).read form field)
  · rw [← (hrep.kin hd hd' hu.1 hu.2).resolve text]
    rcases hx : (Run.resolve d text u).1 with fault | ⟨prepared, definition⟩
    · exact .error fault
    · exact .ok ⟨rfl, rfl, (hmodest.kin hd hu.1).asks hx⟩
  · rw [composer_apply, composer_apply, (hrep.kin hd hd' hu.1 hu.2).composer]
    exact .of_eq rfl

/-- A check that asks for nothing but siblings comes to the same on both engines. -/
theorem Engine.Replicates.check {α : Type} {caller : Option Caller} {form : Value}
    {passes : String → Value → Traced Bool} {passes' : String → Value → Run Bool} {c : Check α}
    (hc : c.Asks Request.IsSibling) :
    Traced.Mirrors (fun _ _ => False) (Apart w name v name') (Matching Eq) (Apart w name v name')
      (c.traced caller (Traced.respond (readField d.accessor form) passes))
      (c.run (respond (readField d'.accessor form) passes')) := by
  refine hc.mirrors (fun _ hu => hu.quiet _ _ _ _) (fun _ hu => hu.quiet _ _ _ _) fun q hq => ?_
  cases q with
  | sibling field =>
    have hread : Traced.Mirrors (fun _ _ => False) (Apart w name v name') Eq (Apart w name v name')
        (Traced.silent (readField d.accessor form field)) (readField d'.accessor form field) :=
      Traced.Mirrors.reads (reads_readField _ _ _) (reads_readField _ _ _) fun _ _ _ hu =>
        (hrep.kin hd hd' hu.1 hu.2).read form field
    exact Traced.mirrors_exchange (fun _ _ _ hu => hu) hread fun _ _ _ _ hu => hu
  | _ => exact hq.elim

/-- The engines go well together on every form. -/
theorem Engine.Replicates.partners (hmodest : e.Modest w) (form : Value)
    (passes : String → Value → Traced Bool) (passes' : String → Value → Run Bool) :
    Traced.Partners (fun _ _ => False) (Apart w name v name') (fun x y => x = y ∧ x.AsksSiblings)
      name name' form passes passes' d d' := by
  have hrules : d.rules = d'.rules := by
    obtain ⟨cursor, last, rfl⟩ := hd
    obtain ⟨cursor', last', rfl⟩ := hd'
    exact hrep.rules
  refine ⟨?_, hrep.abreast hd hd' hmodest, fun _ _ _ hu => hu.setCursor _ _, ?_⟩
  · unfold Engine.fieldsOf
    rw [hrules]
  · rintro x _ ⟨rfl, hasks⟩ value parameters here
    exact hrep.check hd hd' (Definition.asks_call hasks _ _ _)

end

/-- **Engines that replicate each other come to the same**, if their predicates ask for nothing but
siblings. -/
theorem Run.validate_replica (he : w.engines.get? name = some e)
    (he' : v.engines.get? name' = some e')
    (hrep : e.Replicates w v e') (hmodest : e.Modest w) (depth : Nat) (form : Value) :
    (validate depth name form w).1 = (validate depth name' form v).1 := by
  cases depth with
  | zero => rfl
  | succ depth =>
    -- no predicate begins a nested run, so nothing needs to be known of these
    let nested (other : String) (form : Value) : Run Bool :=
      do return (← validate depth other form).valid
    have hrun : Traced.Mirrors (fun _ _ => False) (Apart w name v name') (Matching Eq)
        (Apart w name v name')
        (Traced.courseBy (fun other form => Traced.silent (nested other form)) name form)
        (validateBy nested name' form) := by
      refine Traced.mirrors_validateBy (D := fun x y => x = y ∧ x.AsksSiblings)
        (fun _ hu => hu.quiet _ _ _ _) (fun cursor _ _ _ hu => hu.setCursor cursor cursor)
        (fun report _ _ _ hu => hu.publish report) (fun _ _ _ hu => hu) ?_
      rintro h u u' ⟨hu, hu'⟩
      obtain ⟨d, hd, hkin⟩ := World.kin_of_alikeAround hu he
      obtain ⟨d', hd', hkin'⟩ := World.kin_of_alikeAround hu' he'
      rw [hd, hd']
      exact .ok (hrep.partners hkin hkin' hmodest form _ _)
    have hstep := (hrun.inStep w v ⟨.refl w, .refl v⟩).1.eq
    rwa [Traced.erase_courseBy] at hstep

end

/-! ## Earlier runs -/

/-- A check that asks for nothing but siblings is harmless. -/
theorem Check.Asks.harmless {α : Type} {w : World} {name : String} {e : Engine} {here : Context}
    {c : Check α} (hc : c.Asks Request.IsSibling) :
    c.Parallel (Request.Harmless name) (Glimpse w name e here) c := by
  induction hc with
  | result r => exact .result r
  | log r h ih => exact .log r ih
  | note entry h ih => exact .note entry entry ih
  | ask q hq h ih =>
    cases q with
    | sibling field =>
      refine .ask _ trivial fun a b hab => ?_
      rw [glimpse_sibling hab]
      exact ih b
    | _ => exact hq.elim

/-- What is asked of an engine besides new declarations. -/
def EngineStep.KeepsRules (step : EngineStep) : Prop := ∀ rules, step ≠ .declare rules

section

variable {w : World} {name : String} {e : Engine}

/-- The checks of a modest engine are harmless. -/
theorem Engine.Modest.harmless (hmodest : e.Modest w) (here : Context) (c : Check Bool)
    (hc : e.MayCall w here c) : c.Parallel (Request.Harmless name) (Glimpse w name e here) c := by
  obtain ⟨declared, texts, value, -, -, -, htext, hresolve⟩ := hc
  exact (Definition.asks_call (hmodest.asks hresolve) _ _ _).harmless

/-- A step that does not declare leaves no trace but the last report. -/
theorem EngineStep.alike_perform (he : w.engines.get? name = some e) (hmodest : e.Modest w)
    {step : EngineStep} (hstep : step.KeepsRules) {u : World} (hu : World.AlikeInside name w u) :
    World.AlikeInside name w (step.perform name u).2 := by
  have hread {r : Run Answer} (hr : r.Reads) : World.AlikeInside name w (r u).2 := by
    have hworld : (r u).2 = u := hr u
    rwa [hworld]
  have hrun (form : Value) : World.AlikeInside name w (Run.validate nestingLimit name form u).2 :=
    hu.trans (validate_eq_fresh he (fun _ _ => hmodest.harmless _ _) nestingLimit form u
      (World.alikeAround_of_inside hu)).2
  have hthen {α : Type} {r : Run α} {f : α → Answer} (hr : World.AlikeInside name w (r u).2) :
      World.AlikeInside name w ((r >>= fun a => pure (f a)) u).2 := by
    rwa [bind_pure_apply]
  have hpasses (form : Value) :
      World.AlikeInside name w (Run.passes nestingLimit name form u).2 := by
    rw [passes_apply]
    exact hrun form
  have hengine := reads_engine name
  cases step with
  | declare rules => exact absurd rfl (hstep rules)
  | rules => exact hread (hengine.bind fun _ => reads_pure _)
  | fieldsFor form => exact hread (hengine.bind fun _ => (reads_lift _).bind fun _ => reads_pure _)
  | validate form => exact hthen (hrun form)
  | passes form => exact hthen (hpasses form)
  | fails form => exact hthen (hpasses form)
  | errors => exact hread (hengine.bind fun _ => reads_pure _)
  | errorsFor field =>
    refine hread (hengine.bind fun d => ?_)
    rcases d.lastReport with _ | report
    · exact reads_pure _
    · exact (reads_lift _).bind fun _ => reads_pure _
  | lastReport => exact hread (hengine.bind fun _ => reads_pure _)
  | cursor => exact hread (hengine.bind fun _ => reads_pure _)

/-- By induction on the history. -/
theorem Session.alike_history (he : w.engines.get? name = some e) (hmodest : e.Modest w)
    {history : List EngineStep} (hhistory : ∀ step ∈ history, step.KeepsRules) {u : World}
    (hu : World.AlikeInside name w u) :
    World.AlikeInside name w (Session.run (history.map (Step.engine name)) u).2 := by
  induction history generalizing u with
  | nil => exact hu
  | cons step history ih =>
    refine ih (fun step hstep => hhistory step (List.mem_cons_of_mem _ hstep)) ?_
    exact EngineStep.alike_perform he hmodest (hhistory step List.mem_cons_self) (hu.quiet [] [])

/-- **An engine that was used is as good as a new one.** Let its predicates be built in, or ask for
nothing but siblings. Whatever was asked of it before, short of new declarations, and whether the
runs were completed or raised: nothing in the world has changed but its last report, and a run comes
to the same as on an engine that has just been built with the same configuration, rules, values,
predicates and templates. -/
theorem Session.reused_engine_eq_new {w : World} {name : String} {e : Engine}
    (he : w.engines.get? name = some e) (hmodest : e.Modest w) (history : List EngineStep)
    (hhistory : ∀ step ∈ history, step.KeepsRules) :
    World.AlikeInside name w (Session.run (history.map (Step.engine name)) w).2 ∧
      ∀ (d : Draft) (v : World), d.Copies v w e → ∀ (depth : Nat) (name' : String) (form : Value),
        (Run.validate depth name form (Session.run (history.map (Step.engine name)) w).2).1 =
          (Run.validate depth name' form (d.placed name' v)).1 := by
  have hafter := Session.alike_history he hmodest hhistory (.refl w)
  refine ⟨hafter, fun d v hd depth name' form => ?_⟩
  obtain ⟨e', he', hrep⟩ := hd.replicates name'
  have haround := World.alikeAround_of_inside hafter
  obtain ⟨d', hd', hkin⟩ := World.kin_of_alikeAround haround he
  have hkin' : e'.Kin e' := ⟨e'.cursor, e'.lastReport, rfl⟩
  have hself : World.AlikeAround name' (d.placed name' v) (d.placed name' v) := .refl _
  exact Run.validate_replica hd' he' (hrep.kin hkin hkin' haround hself)
    (hmodest.kin hkin haround) depth
    form

end

/-! ## An engine after a run that raised -/

namespace UsedBefore

def catalog : Catalog := .ofList (Catalog.builtinDefinitions ++
  [{ name := "truthy", body := Probe.truthy.predicate "e" },
    { name := "boom", body := Probe.boom.predicate "e" }])

/-- The form `broken` raises after its first field has failed. -/
def engine : Engine where
  config := {}
  rules := ⟨[(.text "signup", ⟨[(.text "mail", ["required", "truthy"])]⟩),
    (.text "broken", ⟨[(.text "mail", ["truthy"]), (.text "again", ["boom"])]⟩)]⟩
  accessor := ⟨"values", 0⟩
  catalog := ⟨"catalog", 0⟩
  composer := ⟨"composer", 0⟩

def values : Accessor := .computed fun _ _ => .ok (.text "")

def composer : Composer := ⟨⟨[(.text "required", "Needed."), (.text "truthy", "Empty.")]⟩, ∅⟩

def world : World where
  accessors := Shelf.put ∅ ⟨"values", 0⟩ values
  catalogs := Shelf.put ∅ ⟨"catalog", 0⟩ catalog
  composers := Shelf.put ∅ ⟨"composer", 0⟩ composer
  engines := Table.set ∅ "e" engine
  journal := []
  notes := []

/-- The predicates of this engine are built in, or ask for nothing. -/
theorem modest : engine.Modest world := by
  intro c method d hc hd
  obtain rfl : catalog = c := Option.some.inj hc
  have hmem := (Catalog.mem_of_resolve_ofList hd).1
  simp only [List.mem_append, List.mem_cons, List.not_mem_nil, or_false] at hmem
  rcases hmem with hbuiltin | rfl | rfl
  · exact .inl hbuiltin
  · exact .inr (Probe.asks_siblings (p := .truthy) (by decide) "e")
  · exact .inr (Probe.asks_siblings (p := .boom) (by decide) "e")

def history : List EngineStep :=
  [.validate (.text "signup"), .validate (.text "broken"), .errors, .passes (.text "broken")]

/-- No step of this history declares rules. -/
theorem history_keepsRules (step : EngineStep) (hstep : step ∈ history) : step.KeepsRules := by
  rintro rules rfl
  simp [history] at hstep

/-- The engine built anew, under another name and in a world that has nothing else. -/
def rebuilt : World :=
  Draft.placed ⟨engine.config, engine.rules, .fresh values, .fresh catalog, .fresh composer⟩ "new" ∅

/-- One run raises, and the next comes to the same as on a new engine. -/
theorem comes_to_same :
    (Run.validate 1 "e" (.text "broken") world).1 = .error .raised ∧
      (Run.validate 1 "e" (.text "signup")
        (Session.run (history.map (Step.engine "e")) world).2).1 =
        (Run.validate 1 "new" (.text "signup") rebuilt).1 ∧
      (Run.validate 1 "new" (.text "signup") rebuilt).1 =
        .ok ⟨.text "signup", ⟨[(.text "mail", ["Needed.", "Empty."])]⟩⟩ :=
  ⟨rfl, (Session.reused_engine_eq_new (e := engine) rfl modest history history_keepsRules).2 _ _
    ⟨rfl, rfl, ⟨values, rfl, rfl⟩, ⟨catalog, rfl, rfl⟩, ⟨composer, rfl, rfl⟩⟩ 1 "new" _, rfl⟩

end UsedBefore

end FormRules
