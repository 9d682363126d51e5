import FormRules.Proofs.Accessor
import FormRules.Proofs.Run.Progress
import FormRules.Proofs.Run.View

/-!
# Writes during a run

Predicates may write fields while a run goes on, of the form that is validated and of others, in the
run itself and in runs nested in it. What a field holds is at every moment what was written to it
last (`lastWritten`), and:

* all rules of a field receive the value that the field held when the run reached it;
* a predicate that reads a sibling gets what the sibling holds in that moment.

So a rule sees what an earlier rule wrote to its field, unless that rule belongs to the same field
(`Run.writes_heeded`).
-/

namespace FormRules

/-! ## The accessors of engines -/

/-- The accessor of an engine. -/
def World.accessorOf (w : World) (name : String) : Option Ref :=
  (w.engines.get? name).map Engine.accessor

namespace World

theorem accessorOf_updateEngine (w : World) (name : String) {f : Engine → Engine}
    (hf : ∀ e, (f e).accessor = e.accessor) : (w.updateEngine name f).accessorOf = w.accessorOf :=
  funext fun n => map_updateEngine w name hf n

end World

/-- No request changes the accessor of an engine. -/
theorem Run.fixes_accessorOf_respond {sibling : Value → Run Value}
    {passes : String → Value → Run Bool}
    (hsibling : ∀ field, (sibling field).Reads) {q : Request}
    (hq : ∀ other form, q ≠ .passes other form) :
    Fixes World.accessorOf (respond sibling passes q) := by
  cases q with
  | sibling field => exact (hsibling field).fixes
  | passes other form => exact absurd rfl (hq other form)
  | observe name => exact Reads.fixes ((reads_engine name).bind fun _ => reads_pure _)
  | assign name form field v =>
    exact (reads_engine name).fixes.bind fun e => fixes_writeField (fun _ _ _ => rfl) _ form field v
  | declare name rules =>
    exact fixes_declare (fun w name _ => w.accessorOf_updateEngine name fun _ => rfl) name rules

/-! ## What fields hold -/

/-- What a field of an accessor holds after a scene. -/
def Scene.held (r : Ref) (form field : Value) (now : Attempt Value) (s : Scene) : Attempt Value :=
  match s.event with
  | .answered _ (.assign name f x v) (.ok _) =>
    if s.world.accessorOf name = some r ∧ f == form ∧ x == field then .ok v else now
  | _ => now

/-- What was written to a field last, or else what it held before. -/
def lastWritten (r : Ref) (form field : Value) (before : Attempt Value) (h : List Scene) :
    Attempt Value :=
  h.foldl (Scene.held r form field) before

open Run in
/-- What a request does to a field can be read off the scene of its answer. -/
theorem held_respond {sibling : Value → Run Value} {passes : String → Value → Run Bool}
    (hsibling : ∀ field, (sibling field).Reads) (caller : Option Caller) {q : Request}
    (hq : ∀ other form, q ≠ .passes other form) (w : World) (r : Ref) {form field : Value}
    (hform : form.hashable) (hfield : field.hashable) :
    (respond sibling passes q w).2.holds r form field =
      Scene.held r form field (w.holds r form field)
      ⟨.answered caller q (respond sibling passes q w).1, (respond sibling passes q w).2⟩ := by
  have hfixed {part : Run q.Reply} (h : part.Fixes World.accessors) :
      (part w).2.holds r form field = w.holds r form field := World.holds_congr (h w) r form field
  cases q with
  | sibling x => exact hfixed (hsibling x).fixes
  | passes other form => exact absurd rfl (hq other form)
  | observe name => exact hfixed (Reads.fixes ((reads_engine name).bind fun _ => reads_pure _))
  | declare name rules =>
    exact hfixed (fixes_declare (fun w name _ => World.accessors_updateEngine w name _) name rules)
  | assign name f x v =>
    change ((engine name >>= fun e => writeField e.accessor f x v) w).2.holds r form field =
      Scene.held r form field (w.holds r form field)
        ⟨.answered caller (.assign name f x v)
          ((engine name >>= fun e => writeField e.accessor f x v) w).1,
          ((engine name >>= fun e => writeField e.accessor f x v) w).2⟩
    rcases he : engine name w with ⟨fault | e, u⟩ <;> obtain rfl := (reads_engine name).eq he
    · rw [bind_of_error he]
      rfl
    · -- the scene names the engine, which works with the same accessor after the write
      rw [bind_of_ok he, World.holds_writeField u r e.accessor f x v hform hfield]
      have haccessor : (writeField e.accessor f x v u).2.accessorOf name = some e.accessor := by
        have hfixes : Fixes World.accessorOf (writeField e.accessor f x v) :=
          fixes_writeField (fun _ _ _ => rfl) _ _ _ _
        rw [hfixes u, World.accessorOf, get?_of_engine (congrArg Prod.fst he)]
        rfl
      unfold Scene.held
      rcases hdone : (writeField e.accessor f x v u).1 with fault | done
      · exact if_neg fun h => Bool.false_ne_true h.1
      · simp only [haccessor, Option.some.injEq]
        exact if_congr (and_iff_right rfl) rfl rfl

namespace Traced

theorem follows_holds (r : Ref) {form field : Value} (hform : form.hashable)
    (hfield : field.hashable) :
    Follows (fun w => w.holds r form field) (Scene.held r form field) where
  log _ _ := World.holds_congr (by rfl) r form field
  note _ _ := World.holds_congr (by rfl) r form field
  move w name _ := World.holds_congr (w.accessors_updateEngine name _) r form field
  publish w name _ := World.holds_congr (w.accessors_updateEngine name _) r form field
  idle x s hs := by
    unfold Scene.held
    split
    · rename_i h
      rw [h] at hs
      exact hs.elim
    · rfl
  answered hsibling caller q hq w := held_respond hsibling caller hq w r hform hfield

theorem follows_accessorOf : Follows World.accessorOf fun now _ => now where
  log _ _ := rfl
  note _ _ := rfl
  move w name _ := w.accessorOf_updateEngine name fun _ => rfl
  publish w name _ := w.accessorOf_updateEngine name fun _ => rfl
  idle _ _ _ := rfl
  answered hsibling _ _ hq w := Run.fixes_accessorOf_respond hsibling hq w

end Traced

/-- Engines keep their accessors: at every scene of a run they have those that they had at its
begin. -/
theorem Run.accessorOf_scene {depth : Nat} {name : String} {form : Value} {w : World}
    {pre : List Scene}
    {s : Scene} (hs : pre ++ [s] <+: (Traced.validate depth name form w).2) :
    s.world.accessorOf = w.accessorOf := by
  rw [(Traced.follows_accessorOf.validate depth name form w).atScenes pre s hs]
  exact List.foldl_fixed' (fun _ => rfl) _

/-! ## What predicates see -/

/-- A predicate that reads a sibling gets what the accessor holds for it in this moment. -/
def Scene.ReadsSibling (accessorOf : String → Option Ref) (s : Scene) : Prop :=
  ∀ c field reply, s.event = .answered (some c) (.sibling field) reply →
    ∃ r, accessorOf c.engine = some r ∧ reply = s.world.holds r c.here.form field

/-- Engines have the given accessors, and siblings have been read from them so far. -/
def Siblings (accessorOf : String → Option Ref) (h : List Scene) (w : World) : Prop :=
  w.accessorOf = accessorOf ∧ ∀ s ∈ h, s.ReadsSibling accessorOf

namespace Traced

theorem answering_siblings (accessorOf : String → Option Ref) :
    Answering (Siblings accessorOf) where
  log _ hw := hw
  note _ hw := hw
  move name cursor hw := ⟨(follows_accessorOf.move _ name cursor).trans hw.1, hw.2⟩
  publish name report hw := ⟨(follows_accessorOf.publish _ name report).trans hw.1, hw.2⟩
  idle hidle hw := by
    refine ⟨hw.1, List.forall_mem_append.2 ⟨hw.2, List.forall_mem_singleton.2 ?_⟩⟩
    rintro c field reply rfl
    exact hidle.elim
  answered {name e} he here passes q hq h w hw := by
    have hreads : ∀ field, (Run.readField e.accessor here.form field).Reads :=
      Run.reads_readField e.accessor here.form
    refine ⟨(Run.fixes_accessorOf_respond hreads hq w).trans hw.1,
      List.forall_mem_append.2 ⟨hw.2, List.forall_mem_singleton.2 ?_⟩⟩
    intro c field reply hevent
    cases q with
    | sibling x =>
      obtain ⟨hc, hx, rfl⟩ := Event.answered.inj hevent
      obtain rfl := Option.some.inj hc
      obtain rfl := Request.sibling.inj hx
      obtain ⟨h', w', hw', hget⟩ := he
      refine ⟨e.accessor, ?_, ?_⟩
      · rw [← hw'.1, World.accessorOf, hget]
        rfl
      · -- a read changes nothing, so the reply can be checked against the scene it is told in
        have hworld : (Run.respond (Run.readField e.accessor here.form) passes (.sibling x) w).2 =
            w :=
          hreads x w
        rw [hworld]
        rfl
    | _ => exact nomatch (Event.answered.inj hevent).2.1

end Traced

/-- The scene heeds the writes that were made before it, in a run that began in the given world: all
fields hold what was written to them last; the predicate of a rule receives the value that its field
held when the run reached the field; and a predicate reads of a sibling what the sibling holds. -/
structure Scene.Heeds (w : World) (before : List Scene) (s : Scene) : Prop where
  holds : ∀ r form field, form.hashable → field.hashable → s.world.holds r form field =
    lastWritten r form field (w.holds r form field) (before ++ [s])
  received : ∀ c text value, s.event = .called c text value →
    ∃ p runs r earlier t, inProgress before = p :: runs ∧ w.accessorOf c.engine = some r ∧
      earlier ++ [t] <+: before ∧ p.Latest c t ∧ t.world.holds r c.here.form c.here.field =
        .ok value
  sibling : s.ReadsSibling w.accessorOf

theorem exists_prefix_of_mem {α : Type} {h : List α} {a : α} (ha : a ∈ h) :
    ∃ before, before ++ [a] <+: h := by
  obtain ⟨before, after, rfl⟩ := List.append_of_mem ha
  exact ⟨before, after, by rw [List.append_assoc, List.singleton_append]⟩

namespace Run

variable {depth : Nat} {name : String} {form : Value} {w : World} {pre : List Scene} {s : Scene}
  (hs : pre ++ [s] <+: (Traced.validate depth name form w).2)

include hs

/-- The rules of a field receive the value that the accessor held when the run reached the field. -/
theorem received_of_called {c : Caller} {text : String} {value : Value}
    (hevent : s.event = .called c text value) :
    ∃ p runs r earlier t, inProgress pre = p :: runs ∧ w.accessorOf c.engine = some r ∧
      earlier ++ [t] <+: pre ∧ p.Latest c t ∧
        t.world.holds r c.here.form c.here.field = .ok value := by
  obtain ⟨p, runs, hruns, t, e, hlatest, hbegun, hvalue⟩ :=
    (orderly_validate _ _ _ _ hs).fetched _ _ _ hevent
  have hmem : p ∈ inProgress pre := by
    rw [hruns]
    exact List.mem_cons_self
  have hsub := sublist_of_mem_inProgress pre p hmem
  -- the run began, and reached the field, in scenes before this one
  have hpre : ∀ {u}, u ∈ pre → ∃ earlier, earlier ++ [u] <+: pre := exists_prefix_of_mem
  obtain ⟨begin, hbegin⟩ := hpre (hsub.subset List.mem_cons_self)
  have hdone : t ∈ p.done := by
    obtain ⟨-, before, after, hdone, -⟩ := hlatest
    rw [hdone]
    exact List.mem_append_right _ List.mem_cons_self
  obtain ⟨earlier, hearlier⟩ := hpre (hsub.subset (List.mem_cons_of_mem _ hdone))
  refine ⟨p, runs, e.accessor, earlier, t, hruns, ?_, hearlier, hlatest, hvalue⟩
  rw [← accessorOf_scene (hbegin.trans ((List.prefix_append pre [s]).trans hs)), World.accessorOf,
    hbegun]
  rfl

theorem siblings_scene : s.ReadsSibling w.accessorOf := by
  have hstart : Siblings w.accessorOf [] w := ⟨rfl, List.forall_mem_nil _⟩
  have hall := ((Traced.answering_siblings w.accessorOf).sustained.validate depth name form
    [] w hstart).2
  exact hall s (hs.subset (List.mem_append_right _ (List.mem_singleton_self s)))

end Run

/-- **Writes are seen from the moment on in which they are made**, but for the value that the rules
of the current field work on: every scene of a run heeds the writes made before it, by its own
predicates or by those of runs nested in it. When the run has ended, with a report or with a fault,
each field of each accessor holds what was written to it last, or what it held before if nothing
was. -/
theorem Run.writes_heeded (depth : Nat) (name : String) (form : Value) (w : World) :
    (∀ pre s, pre ++ [s] <+: (Traced.validate depth name form w).2 → s.Heeds w pre) ∧
      ∀ r f x, f.hashable → x.hashable → (Run.validate depth name form w).2.holds r f x =
        lastWritten r f x (w.holds r f x) (Traced.validate depth name form w).2 := by
  have htracks (r : Ref) {f x : Value} (hf : f.hashable) (hx : x.hashable) :=
    (Traced.follows_holds r hf hx).validate depth name form w
  refine ⟨fun pre s hs => ⟨fun r f x hf hx => ?_, fun c text value hevent => ?_, ?_⟩,
    fun r f x hf hx => ?_⟩
  · exact (htracks r hf hx).atScenes pre s hs
  · exact received_of_called hs hevent
  · exact siblings_scene hs
  · rw [← Traced.erase_validate]
    exact (htracks r hf hx).now

end FormRules
