import FormRules.Proofs.Session.Trace
import Mathlib.Logic.Function.Basic

/-!
# The cursor

An engine has one cursor, which all runs share that are nested in one another. Whenever a predicate
is at work, the cursor of the engine that called it is on the field it was called for, also right
after a nested run; and when a run has ended, in whatever way, every cursor is where it was before
(`Session.cursors_in_place`).

The invariant is `Traced.Placed`: the cursors are where they are meant to be, and they were at every
scene so far. A run moves the cursor of its own engine only, so the invariant holds with the cursor
of one engine replaced while the run goes through the fields, and with the old one at its end.
-/

namespace FormRules

namespace World

/-- The cursor of each engine. -/
def cursors (w : World) (name : String) : Option (Option Context) :=
  (w.engines.get? name).map Engine.cursor

/-- The form and the field that an engine is working on. -/
def position (w : World) (name : String) : Option (Value × Value) :=
  (w.engines.get? name).map fun e => (e.currentForm, e.currentField)

/-- The cursor tells the form and the field that the engine shows. -/
theorem position_of_cursors {w : World} {name : String} {here : Context}
    (h : w.cursors name = some (some here)) : w.position name = some (here.form, here.field) := by
  unfold cursors at h
  rcases he : w.engines.get? name with _ | e <;> rw [he] at h
  · cases h
  · have hc : e.cursor = some here := by simpa using h
    simp only [position, he, Option.map_some, Engine.currentForm, Engine.currentField, hc]

/-- Moving a cursor moves the one of that engine, if there is one. -/
theorem cursors_setCursor (name : String) (cursor : Option Context) (w : World) :
    (Run.setCursor name cursor w).cursors =
      Function.update w.cursors name ((w.cursors name).map fun _ => cursor) := by
  funext n
  unfold cursors Run.setCursor
  by_cases hn : n = name
  · subst hn
    rw [get?_updateEngine_self, Function.update_self, Option.map_map, Option.map_map]
    rfl
  · rw [get?_updateEngine_of_ne _ _ _ hn, Function.update_of_ne hn]

/-- A change of an engine that leaves its cursor alone leaves all cursors alone. -/
theorem cursors_updateEngine (w : World) (name : String) {f : Engine → Engine}
    (hf : ∀ e, (f e).cursor = e.cursor) : (w.updateEngine name f).cursors = w.cursors :=
  funext fun n => map_updateEngine w name hf n

end World

/-- The cursor of the engine that called a predicate is on the field it was called for. -/
def Caller.InPlace (c : Caller) (w : World) : Prop :=
  w.position c.engine = some (c.here.form, c.here.field)

/-- The cursors are as they should be: on the field of the predicate that is at work, and on nothing
between the steps of a session. -/
def Scene.InPlace (s : Scene) : Prop :=
  match s.event with
  | .called c .. => c.InPlace s.world
  | .asked (some c) _ => c.InPlace s.world
  | .answered (some c) .. => c.InPlace s.world
  | .stepped => ∀ name e, s.world.engines.get? name = some e →
      e.currentForm = .null ∧ e.currentField = .null
  | _ => True

namespace Traced

variable {cs : String → Option (Option Context)}

/-- The cursors are the given ones, and were as they should be at every scene. -/
def Placed (cs : String → Option (Option Context)) (h : List Scene) (w : World) : Prop :=
  (∀ s ∈ h, s.InPlace) ∧ w.cursors = cs

/-- A scene that is in place may be added. -/
theorem Placed.mark {h : List Scene} {w : World} (hp : Placed cs h w) {event : Event}
    (he : Scene.InPlace ⟨event, w⟩) : Placed cs (h ++ [⟨event, w⟩]) w := by
  refine ⟨?_, hp.2⟩
  intro s hs
  rcases List.mem_append.1 hs with hs | hs
  · exact hp.1 s hs
  · rw [List.mem_singleton.1 hs]
    exact he

/-- Moving the cursor of an engine keeps all others in place. -/
theorem Placed.move {h : List Scene} {w : World} (hp : Placed cs h w) {name : String}
    {c : Option Context} (hc : cs name = some c) (cursor : Option Context) :
    Placed (Function.update cs name (some cursor)) h (Run.setCursor name cursor w) := by
  refine ⟨hp.1, ?_⟩
  rw [World.cursors_setCursor, hp.2, hc, Option.map_some]

/-- While a predicate is at work, the cursors stay where they are. -/
theorem Placed.steady {caller : Option Caller}
    (hcaller : ∀ c, caller = some c → cs c.engine = some (some c.here)) :
    Steady (Placed cs) caller where
  log _ hp := hp
  note _ hp := hp
  write _ _ hp := hp
  declare name rules hp := ⟨hp.1, Eq.trans (World.cursors_updateEngine _ name fun _ => rfl) hp.2⟩
  reached _ hp := hp.mark trivial
  called {_ w c} _ _ hc hp := by
    refine hp.mark ?_
    exact World.position_of_cursors (by rw [hp.2, hcaller c hc])
  asked {_ w} q hp := by
    refine hp.mark ?_
    rcases caller with _ | c
    · trivial
    · exact World.position_of_cursors (by rw [hp.2, hcaller c rfl])
  answered {_ w} q reply hp := by
    refine hp.mark ?_
    rcases caller with _ | c
    · trivial
    · exact World.position_of_cursors (by rw [hp.2, hcaller c rfl])

/-- Whoever tries a predicate out has no cursor to keep. -/
theorem Placed.steady_none : Steady (Placed cs) none := Placed.steady fun _ hc => nomatch hc

/-- The fields of a form only move the cursor of their own engine. -/
theorem placed_fields {passes : String → Value → Traced Bool}
    (hpasses : ∀ cs name form, Keeps (Placed cs) (passes name form)) (name : String) (e : Engine)
    (form : Value) (declared : List (Value × List String)) (errors : Errors) :
    Keeps (fun h w => ∃ cursor, Placed (Function.update cs name (some cursor)) h w)
      (fields (respond (Run.readField e.accessor form) passes) name e form declared errors) := by
  have hsteady (field : Value) :
      Steady (Placed (Function.update cs name (some (some ⟨form, field⟩))))
      (some ⟨name, ⟨form, field⟩⟩) := by
    refine Placed.steady fun c hc => ?_
    obtain rfl := Option.some.inj hc
    exact Function.update_self _ _ _
  refine Keeps.fields (J := fun here => Placed (Function.update cs name (some (some here))))
    (fun field h w => ?_) (fun field _ _ hp => ⟨some ⟨form, field⟩, hp⟩)
    (fun field => (hsteady field).bears
      ((hsteady field).respond (fun _ => Run.reads_readField _ _ _) (hpasses _))) e declared errors
  -- wherever the last field left the cursor, it is now on this one
  rintro ⟨cursor, hp⟩
  have hmoved := hp.move (Function.update_self name (some cursor) cs) (some ⟨form, field⟩)
  rwa [Function.update_idem] at hmoved

/-- Collecting errors moves the cursor of the engine, and puts it back. -/
theorem placed_collect {passes : String → Value → Traced Bool}
    (hpasses : ∀ cs name form, Keeps (Placed cs) (passes name form)) {name : String} {e : Engine}
    (hcs : cs name = some e.cursor) (form : Value) (declared : FieldRules) :
    Keeps (Placed cs) (collect passes name e form declared) := by
  refine Leads.andThen (K := fun h w => ∃ cursor,
    Placed (Function.update cs name (some cursor)) h w) ?_ ?_
  · refine Leads.bind (Leads.silent fun h w hp => ?_)
      (fun _ => placed_fields hpasses name e form declared.entries ∅) fun _ _ hp => hp
    exact ⟨_, hp.move hcs (some ⟨form, .null⟩)⟩
  · rintro h w ⟨cursor, hp⟩
    have hback := hp.move (Function.update_self name (some cursor) cs) e.cursor
    rwa [Function.update_idem, ← hcs, Function.update_eq_self] at hback

/-- A run leaves the cursors where they are, if the runs nested in it do so too. -/
theorem placed_reportBy {passes : String → Value → Traced Bool}
    (hpasses : ∀ cs name form, Keeps (Placed cs) (passes name form)) (name : String)
    (form : Value) : Keeps (Placed cs) (reportBy passes name form) := by
  have hlog (r : Record) : Keeps (Placed cs) (silent (Run.log r)) :=
    Placed.steady_none.logAll [r]
  refine Leads.engine (fun e => ?_) fun _ _ hp => hp
  -- the engine that was looked up tells the cursor that is to be put back
  refine Leads.given (p := cs name = some e.cursor) (K := Placed cs) ?_ fun hcs => ?_
  · rintro h w ⟨hp, he⟩
    refine ⟨?_, hp⟩
    rw [← hp.2, World.cursors, he, Option.map_some]
  refine Keeps.bind (Keeps.reads (Run.reads_lift _)) fun declared => Keeps.bind (hlog _) fun _ => ?_
  exact (placed_collect hpasses hcs form declared).bind fun _ => (hlog _).bind fun _ => Keeps.pure _

/-- The inside of a run keeps the cursors, if nested runs do. -/
theorem placed_courseBy {passes : String → Value → Traced Bool}
    (hpasses : ∀ cs name form, Keeps (Placed cs) (passes name form)) (name : String)
    (form : Value) : Keeps (Placed cs) (courseBy passes name form) := by
  refine (placed_reportBy hpasses name form).bind fun report => ?_
  refine Keeps.bind (Leads.silent fun h w hp => ?_) fun _ => Keeps.pure _
  exact ⟨hp.1, Eq.trans (World.cursors_updateEngine _ name fun _ => rfl) hp.2⟩

/-- A run keeps them if its inside does. -/
theorem placed_around {name : String} {form : Value} {r : Traced Report}
    (hr : Keeps (Placed cs) r) : Keeps (Placed cs) (around name form r) :=
  Leads.around hr (fun _ _ hp => hp.mark trivial) fun _ _ _ hp => hp.mark trivial

/-- By induction on the depth to which runs may be nested. -/
theorem placed_course (depth : Nat) :
    ∀ cs name form, Keeps (Placed cs) (course depth name form) := by
  induction depth with
  | zero => exact fun _ _ _ => Leads.silent fun _ _ hp => hp
  | succ depth ih =>
    intro cs name form
    refine placed_courseBy (fun cs other form => ?_) name form
    exact Keeps.bind (placed_around (ih cs other form)) fun _ => Keeps.pure _

/-- A run keeps every cursor where it is, in whatever way it ends. -/
theorem placed_validate (depth : Nat) (name : String) (form : Value) :
    Keeps (Placed cs) (validate depth name form) :=
  placed_around (placed_course depth cs name form)

/-! ## Sessions -/

/-- No engine is in a run, and the cursors were as they should be at every scene. -/
def Idle (h : List Scene) (w : World) : Prop :=
  (∀ s ∈ h, s.InPlace) ∧ ∀ name e, w.engines.get? name = some e → e.cursor = none

/-- If all cursors are back in place, the engines are as idle as before. -/
theorem Idle.of_placed {h h' : List Scene} {w v : World} (hi : Idle h w)
    (hp : Placed w.cursors h' v) : Idle h' v := by
  refine ⟨hp.1, ?_⟩
  intro name e he
  have hcursor : w.cursors name = some e.cursor := by
    rw [← hp.2, World.cursors, he, Option.map_some]
  rcases hw : w.engines.get? name with _ | e' <;> rw [World.cursors, hw] at hcursor
  · cases hcursor
  · rw [← Option.some.inj hcursor]
    exact hi.2 name e' hw

theorem Idle.placed {h : List Scene} {w : World} (hi : Idle h w) : Placed w.cursors h w :=
  ⟨hi.1, rfl⟩

/-- Sessions leave the engines idle. -/
theorem lasting_idle : Lasting Idle where
  engines hv hi := ⟨hi.1, by rw [hv]; exact hi.2⟩
  declare name rules hi :=
    hi.of_placed (Placed.steady_none.declare name rules hi.placed)
  asked q hi := hi.of_placed (hi.placed.mark trivial)
  answered q reply hi := hi.of_placed (hi.placed.mark trivial)
  run name form := fun h w hi => hi.of_placed (placed_validate nestingLimit name form h w hi.placed)
  made {h w v} name e hcursor _ hv hi := by
    have hidle : Idle h v := by
      refine ⟨hi.1, fun n e' he => ?_⟩
      rw [hv] at he
      by_cases hn : name = n
      · rw [hn, Table.get?_set_self] at he
        rwa [← Option.some.inj he]
      · rw [Table.get?_set_of_ne _ (by simpa using hn)] at he
        exact hi.2 n e' he
    exact hidle.of_placed (hidle.placed.mark trivial)
  stepped {h w} hi := by
    refine hi.of_placed (hi.placed.mark fun name e he => ?_)
    rw [Engine.currentForm, Engine.currentField, hi.2 name e he]
    exact ⟨rfl, rfl⟩

end Traced

/-- A run leaves every cursor where it was, in whatever way it ends. -/
theorem Run.cursors_validate (depth : Nat) (name : String) (form : Value) (w : World) :
    (Run.validate depth name form w).2.cursors = w.cursors := by
  rw [← Traced.erase_validate]
  exact (Traced.placed_validate depth name form [] w ⟨List.forall_mem_nil _, rfl⟩).2

/-- So does asking whether a form passes. -/
theorem Run.cursors_passes (depth : Nat) (name : String) (form : Value) (w : World) :
    (Run.passes depth name form w).2.cursors = w.cursors := by
  rw [Run.passes_apply]
  exact Run.cursors_validate depth name form w

/-- So does every step on an engine. -/
theorem EngineStep.cursors_perform (name : String) (step : EngineStep) (w : World) :
    (step.perform name w).2.cursors = w.cursors := by
  rw [← EngineStep.erase_traced]
  exact (Traced.Placed.steady_none.engineStep (Traced.placed_validate nestingLimit) name step [] w
    ⟨List.forall_mem_nil _, rfl⟩).2

namespace Session

open Traced

/-- **Whenever a predicate is at work, the cursor of its engine is on the field it was called for**:
when it is called, and when it goes on after a request, also if a nested run returned or raised. A
run leaves every cursor where it was, at whatever depth it is nested and in whatever way it ends,
and so does every step on an engine. Between the steps of a session no engine is on any form or
field. The scenes are those of the run and of the steps themselves: tracing changes nothing about
them. -/
theorem cursors_in_place :
    (∀ depth name form w,
      (Traced.validate depth name form).erase w = Run.validate depth name form w ∧
      (∀ s ∈ (Traced.validate depth name form w).2, s.InPlace) ∧
      (Run.validate depth name form w).2.cursors = w.cursors ∧
      (Run.passes depth name form w).2.cursors = w.cursors) ∧
    (∀ name (step : EngineStep) w, (step.perform name w).2.cursors = w.cursors) ∧
    (∀ step : Step, step.traced.erase = step.perform) ∧
    ∀ steps, ∀ s ∈ Session.scenes steps ∅, s.InPlace := by
  refine ⟨fun depth name form w => ⟨?_, ?_, ?_, ?_⟩, EngineStep.cursors_perform, Step.erase_traced,
    fun steps => ?_⟩
  · exact congrFun (erase_validate depth name form) w
  · exact (placed_validate depth name form [] w ⟨List.forall_mem_nil _, rfl⟩).1
  · exact Run.cursors_validate depth name form w
  · exact Run.cursors_passes depth name form w
  · have hidle : Idle [] ∅ := ⟨List.forall_mem_nil _, fun _ _ he => nomatch he⟩
    obtain ⟨v, hv⟩ := lasting_idle.scenes steps hidle
    exact hv.1

end Session

end FormRules
