import FormRules.Proofs.Accessor
import FormRules.Proofs.Parts

/-!
# Runs in a group

What is done under names of a group can be done in two worlds that agree on its part. It comes to
the same in both, the worlds agree on the part again, and what belongs to another group stays as it
was. The relation `Together` says all of this at once, so that one pass over the parts of a run
shows it (`Together.runs_validate`).
-/

namespace FormRules

open Run

/-- Two worlds in which the same is done under names of one group: they agree on its part, and from
the first one, which was `w` in the beginning, nothing is missing that belongs to another group. -/
structure Together (g g' : Group) (w u v : World) : Prop where
  accessors : Shelf.Together g.accessor g'.accessor w.accessors u.accessors v.accessors
  catalogs : Shelf.Together g.catalog g'.catalog w.catalogs u.catalogs v.catalogs
  composers : Shelf.Together g.composer g'.composer w.composers u.composers v.composers
  engines : u.engines.restrict g.engine = v.engines.restrict g.engine
  others : w.engines.restrict g'.engine = u.engines.restrict g'.engine
  within : ∀ name e, g.engine name → u.engines.get? name = some e → e.Within g
  definitions : ∀ r c, g.catalog r.name → u.catalogs.get? r = some c → c.Within g
  journal : u.journal = v.journal
  notes : u.notes = v.notes

variable {g g' : Group} {w u v : World}

namespace Together

/-- Worlds that are together have the same engines of the group. -/
theorem get?_engine (h : Together g g' w u v) {name : String} (hname : g.engine name) :
    u.engines.get? name = v.engines.get? name := by
  rw [← Table.get?_restrict u.engines hname, h.engines, Table.get?_restrict v.engines hname]

/-- They stay together when both journals take the same records. -/
theorem log (h : Together g g' w u v) (rs : List Record) : Together g g' w
    { u with journal := u.journal ++ rs } { v with journal := v.journal ++ rs } :=
  { h with journal := congrArg (· ++ rs) h.journal }

/-- They stay together when both take the same note. -/
theorem note (h : Together g g' w u v) (entry : Value) : Together g g' w
    { u with notes := u.notes ++ [entry] } { v with notes := v.notes ++ [entry] } :=
  { h with notes := congrArg (· ++ [entry]) h.notes }

section

variable (hdisjoint : g.Disjoint g')

include hdisjoint

/-- They stay together when both replace an engine of the group by the same one. -/
theorem setEngine (h : Together g g' w u v) {name : String} (hname : g.engine name) {e : Engine}
    (he : e.Within g) : Together g g' w { u with engines := u.engines.set name e }
      { v with engines := v.engines.set name e } := by
  refine { h with engines := ?_, others := ?_, within := fun n e' hn he' => ?_ }
  · rw [Table.restrict_set, Table.restrict_set, if_pos hname, if_pos hname, h.engines]
  · rw [Table.restrict_set, if_neg (hdisjoint.engine name hname), h.others]
  · change (u.engines.set name e).get? n = some e' at he'
    rw [Table.get?_set] at he'
    split at he'
    · obtain rfl := Option.some.inj he'
      exact he
    · exact h.within n e' hn he'

/-- An engine of the group is changed, but not what it works with. -/
theorem updateEngine (h : Together g g' w u v) {name : String} (hname : g.engine name)
    {f : Engine → Engine} (hf : ∀ e, e.Within g → (f e).Within g) :
    Together g g' w (u.updateEngine name f) (v.updateEngine name f) := by
  unfold World.updateEngine
  rw [← h.get?_engine hname]
  rcases he : u.engines.get? name with _ | e
  · exact h
  · exact h.setEngine hdisjoint hname (hf e (h.within name e hname he))

/-- They stay together when both move the cursor of an engine of the group. -/
theorem setCursor (h : Together g g' w u v) {name : String} (hname : g.engine name)
    (cursor : Option Context) :
    Together g g' w (Run.setCursor name cursor u) (Run.setCursor name cursor v) :=
  h.updateEngine hdisjoint hname fun _ he => ⟨he.accessor, he.catalog, he.composer⟩

/-- They stay together when both publish the same report. -/
theorem publish (h : Together g g' w u v) {name : String} (hname : g.engine name)
    (report : Report) :
    Together g g' w (Run.publish name report u) (Run.publish name report v) :=
  h.updateEngine hdisjoint hname fun _ he => ⟨he.accessor, he.catalog, he.composer⟩

/-- They stay together when both replace a catalog of the group by the same one. -/
theorem putCatalog (h : Together g g' w u v) {r : Ref} (hr : g.catalog r.name) {c : Catalog}
    (hc : c.Within g) : Together g g' w { u with catalogs := u.catalogs.put r c }
      { v with catalogs := v.catalogs.put r c } := by
  refine { h with
    catalogs := h.catalogs.put hdisjoint.catalog hr c, definitions := fun r' c' hr' hc' => ?_ }
  change (u.catalogs.put r c).get? r' = some c' at hc'
  rw [Shelf.get?_put] at hc'
  split at hc'
  · obtain rfl := Option.some.inj hc'
    exact hc
  · exact h.definitions r' c' hr' hc'

end

/-! ## What is looked up and changed -/

/-- Looking up an engine of the group finds the same one in both worlds. -/
theorem inStep_engine {name : String} (hname : g.engine name) : InStep (Together g g' w)
    (Matching fun e e' => e = e' ∧ e.Within g) (Together g g' w) (engine name) (engine name) := by
  refine InStep.reads (reads_engine name) (reads_engine name) fun u v h => ?_
  rw [engine_apply, engine_apply, ← h.get?_engine hname]
  rcases he : u.engines.get? name with _ | e
  · exact .error _
  · exact .ok ⟨rfl, h.within name e hname he⟩

/-- So does looking up an accessor of the group. -/
theorem inStep_accessor {r : Ref} (hr : g.accessor r.name) :
    InStep (Together g g' w) (Matching Eq) (Together g g' w) (accessor r) (accessor r) := by
  refine InStep.reads (reads_accessor r) (reads_accessor r) fun u v h => .of_eq ?_
  rw [accessor_apply, accessor_apply, Shelf.get?_congr h.accessors.agree hr]

/-- So does looking up a composer of the group. -/
theorem inStep_composer {r : Ref} (hr : g.composer r.name) :
    InStep (Together g g' w) (Matching Eq) (Together g g' w) (composer r) (composer r) := by
  refine InStep.reads (reads_composer r) (reads_composer r) fun u v h => .of_eq ?_
  rw [composer_apply, composer_apply, Shelf.get?_congr h.composers.agree hr]

/-- So does looking up a catalog of the group, whose predicates are within the group. -/
theorem inStep_catalog {r : Ref} (hr : g.catalog r.name) : InStep (Together g g' w)
    (Matching fun c c' => c = c' ∧ c.Within g) (Together g g' w) (catalog r) (catalog r) := by
  refine InStep.reads (reads_catalog r) (reads_catalog r) fun u v h => ?_
  rw [catalog_apply, catalog_apply, ← Shelf.get?_congr h.catalogs.agree hr]
  rcases hc : u.catalogs.get? r with _ | c
  · exact .error _
  · exact .ok ⟨rfl, h.definitions r c hr hc⟩

/-- A field is read alike in both worlds. -/
theorem inStep_readField {r : Ref} (hr : g.accessor r.name) (form field : Value) :
    InStep (Together g g' w) (Matching Eq) (Together g g' w) (readField r form field)
      (readField r form field) :=
  (inStep_accessor hr).bind_eq fun _ => InStep.lift _

section

variable (hdisjoint : g.Disjoint g')

include hdisjoint

/-- A field is written alike in both worlds. -/
theorem inStep_writeField {r : Ref} (hr : g.accessor r.name) (form field x : Value) :
    InStep (Together g g' w) (Matching Eq) (Together g g' w) (writeField r form field x)
      (writeField r form field x) := by
  refine (inStep_accessor hr).bind_eq fun a => InStep.bind_eq ?_ fun _ => InStep.lift _
  exact InStep.modify fun u v h =>
    { h with accessors := h.accessors.put hdisjoint.accessor hr (a.put form field x).1 }

/-- Rules are declared alike in both worlds. -/
theorem inStep_declare {name : String} (hname : g.engine name) (rules : Value) :
    InStep (Together g g' w) (Matching Eq) (Together g g' w) (declare name rules)
      (declare name rules) := by
  refine (inStep_engine hname).bind ?_ fun _ _ h => h
  rintro e _ ⟨rfl, -⟩
  refine (InStep.lift _).bind_eq fun rules => InStep.modify fun u v h => ?_
  exact h.updateEngine hdisjoint hname fun _ he => ⟨he.accessor, he.catalog, he.composer⟩

end

/-! ## Runs -/

/-- An engine of the group reads the same in both worlds, and finds predicates of the group. -/
theorem abreast {e : Engine} (he : e.Within g) :
    Traced.Abreast (fun _ => Together g g' w) (fun d d' => d = d' ∧ d.Within g) e e := by
  refine ⟨fun rs h => h.log rs, fun _ h => h, fun form field h => ?_, fun {_ u v} text h => ?_,
    fun h => ?_⟩
  · exact (inStep_readField he.accessor form field _ _ h).1
  · have hsame : (resolve e text u).1 = (resolve e text v).1 := by
      rw [resolve_fst, resolve_fst, Shelf.get?_congr h.catalogs.agree he.catalog]
    rw [← hsame]
    rcases hx : (resolve e text u).1 with fault | ⟨prepared, d⟩
    · exact .error fault
    · obtain ⟨c, hc, hd⟩ := registered_of_resolve hx
      exact .ok ⟨rfl, rfl, h.definitions e.catalog c he.catalog hc _ d hd⟩
  · exact (inStep_composer he.composer _ _ h).1

/-- Two runs that do the same under names of the group. -/
abbrev Runs {α : Type} (g g' : Group) (w : World) (r : Traced α) (s : Run α) : Prop :=
  Traced.Mirrors (fun _ _ => False) (fun _ => Together g g' w) (Matching Eq)
    (fun _ => Together g g' w) r s

section

variable (hdisjoint : g.Disjoint g') {sibling : Value → Run Value}
  (hsibling : ∀ field, InStep (Together g g' w) (Matching Eq) (Together g g' w) (sibling field)
    (sibling field))
  {passes : String → Value → Traced Bool} {passes' : String → Value → Run Bool}
  (hpasses : ∀ name form, g.engine name → Runs g g' w (passes name form) (passes' name form))

include hdisjoint hsibling hpasses

/-- Requests within the group are answered alike. -/
theorem runs_respond {q : Request} (hq : q.Within fun name => g.engine name) :
    Runs g g' w (Traced.respond sibling passes q) (Run.respond sibling passes' q) := by
  cases q with
  | sibling field => exact Traced.Mirrors.silent fun _ => hsibling field
  | passes name form => exact hpasses name form hq
  | observe name =>
    refine Traced.Mirrors.silent fun _ => (inStep_engine hq).bind ?_ fun _ _ h => h
    rintro e _ ⟨rfl, -⟩
    exact InStep.pure rfl
  | assign name form field x =>
    refine Traced.Mirrors.silent fun _ => (inStep_engine hq).bind ?_ fun _ _ h => h
    rintro e _ ⟨rfl, he⟩
    exact inStep_writeField hdisjoint he.accessor form field x
  | declare name rules => exact Traced.Mirrors.silent fun _ => inStep_declare hdisjoint hq rules

/-- A predicate of the group at work. -/
theorem runs_check {α : Type} {caller : Option Caller} {c : Check α}
    (hc : c.Asks (Request.Within fun name => g.engine name)) :
    Runs g g' w (c.traced caller (Traced.respond sibling passes))
      (c.run (Run.respond sibling passes')) := by
  refine hc.mirrors (fun rs h => h.log rs) (fun entry h => h.note entry) fun q hq => ?_
  refine (Traced.mirrors_exchange (fun _ _ _ h => h) (runs_respond hdisjoint hsibling hpasses hq)
    fun _ _ _ _ h => h).imp fun _ _ h => h.imp fun _ _ => Matching.eq

end

section

variable (hdisjoint : g.Disjoint g')

include hdisjoint

/-- The inside of a run goes alike, if the runs nested in it do. -/
theorem runs_courseBy {passes : String → Value → Traced Bool} {passes' : String → Value → Run Bool}
    (hpasses : ∀ name form, g.engine name → Runs g g' w (passes name form) (passes' name form))
    (name : String) (form : Value) (hname : g.engine name) :
    Runs g g' w (Traced.courseBy passes name form) (Run.validateBy passes' name form) := by
  refine Traced.mirrors_validateBy (D := fun d d' => d = d' ∧ d.Within g) (fun rs h => h.log rs)
    (fun cursor _ _ _ h => h.setCursor hdisjoint hname cursor)
    (fun report _ _ _ h => h.publish hdisjoint hname report) (fun _ _ _ h => h)
    fun _ u v h => (inStep_engine hname u v h).1.imp ?_
  rintro e _ ⟨rfl, he⟩
  refine ⟨rfl, abreast he, fun _ _ _ h => h.setCursor hdisjoint hname _, ?_⟩
  rintro d _ ⟨rfl, hd⟩ value parameters here
  exact runs_check hdisjoint (inStep_readField he.accessor form) hpasses
    (Definition.asks_call hd _ _ _)

theorem runs_validate (depth : Nat) {name : String} (hname : g.engine name) (form : Value) :
    Runs g g' w (Traced.validate depth name form) (Run.validate depth name form) :=
  Traced.mirrors_validate (P := fun name => g.engine name) (S := fun _ _ => Together g g' w)
    (runs_courseBy hdisjoint) (fun _ _ _ _ h => h) (fun _ _ _ _ _ h => .inr h)
      (fun _ _ _ _ _ _ h => h)
    depth hname form

/-- Passing goes alike. -/
theorem runs_passes (depth : Nat) {name : String} (hname : g.engine name) (form : Value) :
    Runs g g' w (Traced.passes depth name form) (Run.passes depth name form) :=
  (runs_validate hdisjoint depth hname form).bind_eq fun _ => Traced.Mirrors.pure rfl

/-- Trying out a definition within the group goes alike. -/
theorem runs_tryOut {d : Definition} (hd : d.Within g) (trial : Trial) :
    Runs g g' w (Traced.tryOut d trial) (Run.tryOut d trial) := by
  have hpasses (name : String) (form : Value) (hname : g.engine name) :
      Runs g g' w (Traced.passes nestingLimit name form) (Run.passes nestingLimit name form) :=
    runs_passes hdisjoint nestingLimit hname form
  unfold Traced.tryOut Run.tryOut
  rcases trial.scope with _ | ⟨here, values⟩
  · exact runs_check hdisjoint (fun _ _ _ h => ⟨.error _, h⟩) hpasses
      (Definition.asks_call hd _ _ _)
  · refine Traced.Mirrors.bind_eq (Traced.Mirrors.silent fun _ => InStep.lift _) fun a => ?_
    exact runs_check hdisjoint (fun _ => InStep.lift _) hpasses (Definition.asks_call hd _ _ _)

end

end Together

end FormRules
