import FormRules.Proofs.Engine.Draft
import FormRules.Proofs.Run.Invariant

/-!
# Traces of sessions

The scenes of a session are those of the runs that its steps start, with a scene after every engine
that was made and after every step. They are told of the very worlds that the session passes through
(`Step.erase_traced`). An invariant that speaks of scenes and engines only, and that single runs
keep, lasts through all sessions (`Traced.Lasting`).
-/

namespace FormRules

open Traced

/-- A step on an engine, with its scenes. -/
def EngineStep.traced (name : String) : EngineStep → Traced Answer
  | .validate form => do return .report (some (← Traced.validate nestingLimit name form))
  | .passes form => do return .truth (← Traced.passes nestingLimit name form)
  | .fails form => do return .truth !(← Traced.passes nestingLimit name form)
  | step => silent (step.perform name)

/-- A step on a catalog, with its scenes. -/
def CatalogStep.traced (r : Ref) : CatalogStep → Traced Answer
  | .call name trial => do
    let d ← (← Run.catalog r).lookUp name
    return .truth (← tryOut d trial)
  | step => silent (step.perform r)

/-- A step of a session, with its scenes. -/
def Step.traced : Step → Traced Answer
  | newEngine name setup rules messages => do
    Run.newEngine name setup rules messages
    mark (.made name)
    return .done
  | newEngineFromFile name setup file messages => do
    Run.newEngineFromFile .standard name setup file messages
    mark (.made name)
    return .done
  | engine name step => step.traced name
  | catalog name step => do step.traced (← (← Run.world).catalogs.find name)
  | step => silent step.perform

/-- The scenes of a session. -/
def Session.scenes : List Step → World → List Scene
  | [], _ => []
  | s :: steps, w =>
    (s.traced w.cleared).2 ++ ⟨.stepped, (Session.step s w).2⟩ :: scenes steps (Session.step s w).2

/-! ## Tracing changes nothing -/

theorem EngineStep.erase_traced (name : String) (step : EngineStep) :
    (step.traced name).erase = step.perform name := by
  cases step <;>
    simp only [EngineStep.traced, EngineStep.perform, erase_bind, erase_validate, erase_passes,
      erase_pure, erase_silent]

theorem CatalogStep.erase_traced (r : Ref) (step : CatalogStep) :
    (step.traced r).erase = step.perform r := by
  cases step <;>
    simp only [CatalogStep.traced, CatalogStep.perform, erase_bind, erase_lift, erase_lift_attempt,
      erase_tryOut, erase_pure, erase_silent]

/-- Without its scenes, a traced step is the step itself. -/
theorem Step.erase_traced (s : Step) : s.traced.erase = s.perform := by
  cases s <;>
    simp only [Step.traced, Step.perform, erase_bind, erase_lift, erase_lift_attempt, erase_mark,
      EngineStep.erase_traced, CatalogStep.erase_traced, erase_pure, erase_silent, pure_bind]

/-- The worlds that a session passes through are those of its traced steps. -/
theorem Session.step_world (s : Step) (w : World) : (step s w).2 = (s.traced w.cleared).1.2 := by
  change (s.perform w.cleared).2 = (s.traced.erase w.cleared).2
  rw [Step.erase_traced]

/-! ## What steps leave alone -/

open Run in
/-- Steps on accessors change accessors only. -/
theorem AccessorStep.fixes {γ : Type} {part : World → γ}
    (h : ∀ w r a, part { w with accessors := w.accessors.put r a } = part w) (r : Ref)
    (step : AccessorStep) : Fixes part (step.perform r) := by
  cases step with
  | setValue form field v =>
    exact (fixes_writeField h r form field v).bind fun _ => (reads_pure _).fixes
  | getValue form field =>
    exact Reads.fixes ((reads_readField r form field).bind fun _ => reads_pure _)

open Run in
theorem CatalogStep.fixes_engines (r : Ref) (step : CatalogStep)
    (hstep : ∀ name trial, step ≠ .call name trial) : Fixes World.engines (step.perform r) := by
  have hcatalog : ∀ r, Reads (catalog r) := reads_catalog
  cases step with
  | register d =>
    exact (hcatalog r).fixes.bind fun _ => Fixes.bind (fun _ => rfl) fun _ => (reads_pure _).fixes
  | share source name =>
    exact reads_world.fixes.bind fun _ => (reads_lift _).fixes.bind fun _ =>
      (hcatalog _).fixes.bind fun _ => (reads_lift _).fixes.bind fun _ =>
        (hcatalog r).fixes.bind fun _ => Fixes.bind (fun _ => rfl) fun _ => (reads_pure _).fixes
  | names => exact Reads.fixes ((hcatalog r).bind fun _ => reads_pure _)
  | size => exact Reads.fixes ((hcatalog r).bind fun _ => reads_pure _)
  | has name => exact Reads.fixes ((hcatalog r).bind fun _ => reads_pure _)
  | describe name =>
    exact Reads.fixes ((hcatalog r).bind fun _ => (reads_lift _).bind fun _ => reads_pure _)
  | call name trial => exact absurd rfl (hstep name trial)

open Run in
/-- Steps on composers change composers and the journal only. -/
theorem ComposerStep.fixes {γ : Type} {part : World → γ}
    (hput : ∀ w r c, part { w with composers := w.composers.put r c } = part w)
    (hlog : ∀ w rs, part { w with journal := w.journal ++ rs } = part w) (r : Ref)
    (step : ComposerStep) : Fixes part (step.perform r) := by
  have hcomposer : Reads (composer r) := reads_composer r
  cases step with
  | add messages =>
    exact hcomposer.fixes.bind fun c =>
      Fixes.bind (r := modify fun w => { w with composers := w.composers.put r (c.add messages).1 })
        (fun w => hput w r _) fun _ => (reads_lift _).fixes.bind fun _ => (reads_pure _).fixes
  | templateFor method form =>
    exact Reads.fixes (hcomposer.bind fun _ => (reads_lift _).bind fun _ => reads_pure _)
  | compose method parameters form field =>
    exact hcomposer.fixes.bind fun c =>
      Fixes.bind (r := logAll (c.compose method parameters form field).1) (fun w => hlog w _)
        fun _ => (reads_lift _).fixes.bind fun _ => (reads_pure _).fixes
  | templates => exact Reads.fixes (hcomposer.bind fun _ => reads_pure _)

open Run in
theorem Step.reads_catalogOf (source : CatalogSource) : Reads (Step.catalogOf source) := by
  cases source with
  | builtins => exact reads_pure _
  | empty => exact reads_pure _
  | copy name =>
    exact reads_world.bind fun _ => (reads_lift _).bind fun _ => reads_catalog _

/-! ## Invariants of sessions -/

namespace Traced

variable {J : List Scene → World → Prop}

/-- A step on an engine keeps an invariant, if single runs do. -/
theorem Steady.engineStep {caller : Option Caller} (hJ : Steady J caller)
    (hrun : ∀ name form, Keeps J (validate nestingLimit name form)) (name : String)
    (step : EngineStep) : Keeps J (step.traced name) := by
  have hengine : (Run.engine name).Reads := Run.reads_engine name
  have hpasses (form : Value) : Keeps J (passes nestingLimit name form) :=
    (hrun name form).bind fun _ => Keeps.pure _
  cases step with
  | declare rules =>
    refine Leads.silent fun h w hw => ?_
    have hdeclared := hJ.redeclare name rules h w hw
    change J h ((Run.declare name rules >>= fun _ => pure Answer.done) w).2
    rw [Run.bind_apply]
    rcases hrun : Run.declare name rules w with ⟨_ | _, v⟩ <;> rw [hrun] at hdeclared <;>
      exact hdeclared
  | rules => exact Keeps.reads (hengine.bind fun _ => Run.reads_pure _)
  | fieldsFor form =>
    exact Keeps.reads (hengine.bind fun _ => (Run.reads_lift _).bind fun _ => Run.reads_pure _)
  | validate form => exact (hrun name form).bind fun _ => Keeps.pure _
  | passes form => exact (hpasses form).bind fun _ => Keeps.pure _
  | fails form => exact (hpasses form).bind fun _ => Keeps.pure _
  | errors => exact Keeps.reads (hengine.bind fun _ => Run.reads_pure _)
  | errorsFor field =>
    refine Keeps.reads (hengine.bind fun e => ?_)
    rcases e.lastReport with _ | report
    · exact Run.reads_pure _
    · exact (Run.reads_lift _).bind fun _ => Run.reads_pure _
  | lastReport => exact Keeps.reads (hengine.bind fun _ => Run.reads_pure _)
  | cursor => exact Keeps.reads (hengine.bind fun _ => Run.reads_pure _)

/-- A definition that is called outside of any engine keeps an invariant, if single runs do. -/
theorem Steady.tryOut (hJ : Steady J none)
    (hrun : ∀ name form, Keeps J (validate nestingLimit name form)) (d : Definition)
    (trial : Trial) :
    Keeps J (tryOut d trial) := by
  have hpasses (name : String) (form : Value) : Keeps J (passes nestingLimit name form) :=
    (hrun name form).bind fun _ => Keeps.pure _
  unfold Traced.tryOut
  rcases trial.scope with _ | ⟨here, values⟩
  · exact hJ.check (hJ.respond (fun _ => Run.reads_fail _) hpasses) _
  · refine Keeps.bind (Keeps.reads (Run.reads_lift _)) fun accessor => ?_
    exact hJ.check (hJ.respond (fun _ => Run.reads_lift _) hpasses) _

/-- An invariant of scenes and engines that single runs keep, and that new engines do not break. -/
structure Lasting (J : List Scene → World → Prop) : Prop where
  engines : ∀ {h w v}, v.engines = w.engines → J h w → J h v
  declare : ∀ {h w} (name : String) (rules : RuleSet), J h w →
    J h (w.updateEngine name fun e => { e with rules := rules })
  asked : ∀ {h w} (q : Request), J h w → J (h ++ [⟨.asked none q, w⟩]) w
  answered : ∀ {h w} (q : Request) (reply : Attempt q.Reply), J h w →
    J (h ++ [⟨.answered none q reply, w⟩]) w
  run : ∀ name form, Keeps J (validate nestingLimit name form)
  made : ∀ {h w v} (name : String) (e : Engine), e.cursor = none → e.lastReport = none →
    v.engines = w.engines.set name e → J h w → J (h ++ [⟨.made name, v⟩]) v
  stepped : ∀ {h w}, J h w → J (h ++ [⟨.stepped, w⟩]) w

namespace Lasting

variable {α : Type} (hJ : Lasting J)

include hJ

theorem fixes {r : Run α} (hr : r.Fixes World.engines) : Keeps J (silent r) :=
  Leads.silent fun _ w hw => hJ.engines (hr w) hw

theorem steady : Steady J none where
  log _ := hJ.engines rfl
  note _ := hJ.engines rfl
  write _ _ := hJ.engines rfl
  declare := hJ.declare
  reached h := nomatch h
  called _ _ h := nomatch h
  asked := hJ.asked
  answered := hJ.answered

/-- A set-up that is followed by the scene of the new engine. -/
theorem setUp {name : String} {r : Run Unit} (hr : r.SetsUp name) :
    Keeps J (do silent r; mark (.made name); return Answer.done) := by
  intro h w hw
  change J (h ++ (Traced.bind (silent r) _ w).2) (Traced.bind (silent r) _ w).1.2
  rcases hr w with ⟨e, hcursor, hreport, hok, hengines⟩ | ⟨⟨fault, herror⟩, hengines⟩
  · have hrun : r w = (.ok (), (r w).2) := by rw [← hok]
    unfold Traced.bind silent
    rw [hrun]
    exact hJ.made name e hcursor hreport hengines hw
  · have hrun : r w = (.error fault, (r w).2) := by rw [← herror]
    unfold Traced.bind silent
    rw [hrun, List.append_nil]
    exact hJ.engines hengines hw

theorem engineStep (name : String) (step : EngineStep) : Keeps J (step.traced name) :=
  hJ.steady.engineStep hJ.run name step

theorem catalogStep (r : Ref) (step : CatalogStep) : Keeps J (step.traced r) := by
  cases step with
  | call name trial =>
    refine Keeps.bind (Keeps.reads (Run.reads_catalog r)) fun _ => ?_
    refine Keeps.bind (Keeps.reads (Run.reads_lift _)) fun d => ?_
    exact (hJ.steady.tryOut hJ.run d trial).bind fun _ => Keeps.pure _
  | _ => exact hJ.fixes (CatalogStep.fixes_engines r _ fun _ _ h => nomatch h)

/-- A step keeps an invariant of sessions. -/
theorem step (s : Step) : Keeps J s.traced := by
  have hadd : ∀ f : World → World, (∀ w, (f w).engines = w.engines) →
      (do Run.modify f; return Answer.done : Run Answer).Fixes World.engines := fun f hf =>
    Run.Fixes.bind hf fun _ => (Run.reads_pure _).fixes
  cases s with
  | newCatalog name source =>
    exact hJ.fixes ((Step.reads_catalogOf source).fixes.bind fun _ => hadd _ fun _ => rfl)
  | newComposer name messages =>
    exact hJ.fixes ((Run.reads_lift _).fixes.bind fun _ => hadd _ fun _ => rfl)
  | newAccessor name values =>
    exact hJ.fixes ((Run.reads_lift _).fixes.bind fun _ => hadd _ fun _ => rfl)
  | newFunction name function => exact hJ.fixes (hadd _ fun _ => rfl)
  | newEngine name setup rules messages =>
    exact hJ.setUp (Run.setsUp_newEngine setup rules messages)
  | newEngineFromFile name setup file messages =>
    exact hJ.setUp (Run.setsUp_newEngineFromFile _ setup file messages)
  | engine name step => exact hJ.engineStep name step
  | accessor name step =>
    exact hJ.fixes (Run.reads_world.fixes.bind fun _ => (Run.reads_lift _).fixes.bind fun r =>
      AccessorStep.fixes (fun _ _ _ => rfl) r step)
  | catalog name step =>
    refine Keeps.bind (Keeps.reads Run.reads_world) fun _ => ?_
    exact Keeps.bind (Keeps.reads (Run.reads_lift _)) fun r => hJ.catalogStep r step
  | composer name step =>
    exact hJ.fixes (Run.reads_world.fixes.bind fun _ => (Run.reads_lift _).fixes.bind fun r =>
      ComposerStep.fixes (fun _ _ _ => rfl) (fun _ _ => rfl) r step)

/-- **An invariant of sessions lasts through all of them.** -/
theorem scenes (steps : List Step) {h : List Scene} {w : World} (hw : J h w) :
    ∃ v, J (h ++ Session.scenes steps w) v := by
  induction steps generalizing h w with
  | nil => exact ⟨w, by rwa [Session.scenes, List.append_nil]⟩
  | cons s steps ih =>
    have hstep := hJ.step s h w.cleared (hJ.engines (w := w) rfl hw)
    rw [← Session.step_world] at hstep
    obtain ⟨v, hv⟩ := ih (hJ.stepped hstep)
    refine ⟨v, ?_⟩
    rw [Session.scenes]
    simpa using hv

end Lasting

end Traced

end FormRules
