import FormRules.Proofs.Run.Invariant
import Mathlib.Data.List.Induction

/-!
# Runs in progress

The scenes of a run are mixed with those of the runs nested in it. `inProgress` sorts them out:
after every scene it gives the runs that have begun and not ended yet, innermost first, each with
its own deeds so far, which are the fields that it reached and the rules whose predicates it called.

* A run does what it had to do when it began, in that order and nothing else, and has done all of it
  when it ends with a report (`Scene.Orderly`).
* It calls the predicates of a field with the value that it fetched when it reached the field.

Both are said of every scene, and so of all runs in progress at once (`Run.orderly_validate`).
-/

namespace FormRules

/-! ## Deeds -/

/-- What a run does of its own accord. -/
inductive Deed where
  /-- it reaches a field -/
  | field (caller : Caller)
  /-- it calls the predicate of a rule -/
  | rule (caller : Caller) (text : String)

/-- The deed that an event tells of. -/
def Event.deed? : Event → Option Deed
  | .reached c => some (.field c)
  | .called c text _ => some (.rule c text)
  | _ => none

/-- The deeds that scenes tell of. -/
def deeds (h : List Scene) : List Deed := h.filterMap fun s => s.event.deed?

theorem deeds_concat (h : List Scene) {s : Scene} {d : Deed} (hs : s.event.deed? = some d) :
    deeds (h ++ [s]) = deeds h ++ [d] := by
  unfold deeds
  rw [List.filterMap_append]
  simp [hs]

/-- What a run of an engine on a form has to do at a field. -/
def fieldAgenda (name : String) (form : Value) (f : Value × List String) : List Deed :=
  .field ⟨name, ⟨form, f.1⟩⟩ :: f.2.map (.rule ⟨name, ⟨form, f.1⟩⟩)

/-- What a run of an engine on a form has to do: it reaches the declared fields in order, and calls
the rules of each in order. -/
def agendaOf (name : String) (form : Value) (declared : List (Value × List String)) : List Deed :=
  declared.flatMap (fieldAgenda name form)

/-- What the run that begins in a scene has to do, by the declarations that its engine has there. -/
def Scene.agenda (s : Scene) : List Deed :=
  match s.event with
  | .begun name form =>
    match Run.known name (s.world.engines.get? name) >>= fun e => e.fieldsOf form with
    | .ok declared => agendaOf name form declared.entries
    | .error _ => []
  | _ => []

/-! ## Runs that have begun and not ended -/

/-- A run in progress: the scene in which it began, and the scenes of its deeds so far. -/
structure Progress where
  begun : Scene
  done : List Scene

/-- The runs in progress after a scene, innermost first. -/
def Scene.progress (runs : List Progress) (s : Scene) : List Progress :=
  match s.event, runs with
  | .begun .., runs => ⟨s, []⟩ :: runs
  | .reached .., p :: runs => ⟨p.begun, p.done ++ [s]⟩ :: runs
  | .called .., p :: runs => ⟨p.begun, p.done ++ [s]⟩ :: runs
  | .ended .., _ :: runs => runs
  | _, runs => runs

/-- The runs that are in progress after some scenes. -/
def inProgress (h : List Scene) : List Progress := h.foldl Scene.progress []

theorem inProgress_concat (h : List Scene) (s : Scene) :
    inProgress (h ++ [s]) = s.progress (inProgress h) := by
  unfold inProgress
  rw [List.foldl_append, List.foldl_cons, List.foldl_nil]

/-- What is known of a run in progress was told by scenes. -/
theorem sublist_of_mem_inProgress (h : List Scene) :
    ∀ p ∈ inProgress h, (p.begun :: p.done).Sublist h := by
  induction h using List.reverseRecOn with
  | nil => exact fun p hp => nomatch hp
  | append_singleton h s ih =>
    intro p hp
    have hold {q : Progress} (hq : q ∈ inProgress h) : (q.begun :: q.done).Sublist (h ++ [s]) :=
      (ih q hq).trans (List.sublist_append_left h [s])
    -- the scene is added to the innermost run, if it is a deed
    have hdeed {q : Progress} {runs : List Progress} (hruns : inProgress h = q :: runs)
        (hp : p ∈ ⟨q.begun, q.done ++ [s]⟩ :: runs) : (p.begun :: p.done).Sublist (h ++ [s]) := by
      rcases List.mem_cons.1 hp with rfl | hp
      · exact (ih q (by rw [hruns]; exact List.mem_cons_self)).append (List.Sublist.refl [s])
      · exact hold (by rw [hruns]; exact List.mem_cons_of_mem _ hp)
    rw [inProgress_concat] at hp
    unfold Scene.progress at hp
    split at hp
    · rcases List.mem_cons.1 hp with rfl | hp
      · exact List.sublist_append_right h [s]
      · exact hold hp
    · exact hdeed ‹_› hp
    · exact hdeed ‹_› hp
    · exact hold (by rw [‹inProgress h = _›]; exact List.mem_cons_of_mem _ hp)
    · exact hold hp

namespace Progress

/-- The run has done what it had to do, as far as it has come. -/
def InOrder (p : Progress) : Prop := deeds p.done <+: p.begun.agenda

/-- The scene is the last one so far in which the run reached a field, and it was that of the
caller. -/
def Latest (p : Progress) (c : Caller) (s : Scene) : Prop :=
  s.event = .reached c ∧ ∃ before after, p.done = before ++ s :: after ∧
    ∀ t ∈ after, ∀ c', t.event ≠ .reached c'

/-- The field that the run reached last is that of the caller, and the engine of the run read the
value for it in that moment. -/
def Fetched (p : Progress) (c : Caller) (value : Value) : Prop :=
  ∃ s e, p.Latest c s ∧ p.begun.world.engines.get? c.engine = some e ∧
    (Run.readField e.accessor c.here.form c.here.field s.world).1 = .ok value

theorem Latest.call {p : Progress} {c c' : Caller} {s : Scene} {v : Value} {text : String}
    {w : World}
    (hp : p.Latest c s) : Latest ⟨p.begun, p.done ++ [⟨.called c' text v, w⟩]⟩ c s := by
  obtain ⟨hs, before, after, hdone, hafter⟩ := hp
  refine ⟨hs, before, after ++ [⟨.called c' text v, w⟩], ?_, ?_⟩
  · rw [hdone, List.append_assoc, List.cons_append]
  · intro t ht
    rcases List.mem_append.1 ht with ht | ht
    · exact hafter t ht
    · rw [List.mem_singleton.1 ht]
      exact fun _ h => nomatch h

theorem Fetched.call {p : Progress} {c c' : Caller} {value v : Value} {text : String} {w : World}
    (hp : p.Fetched c value) :
    Fetched ⟨p.begun, p.done ++ [⟨.called c' text v, w⟩]⟩ c value := by
  obtain ⟨s, e, hs, hread⟩ := hp
  exact ⟨s, e, hs.call, hread⟩

end Progress

/-- The scene is in order after the ones before: all runs in progress have done what they had to do
as far as they have come, a run that ends with a report has done all of it, and a predicate is
called with the value that was fetched when its field was reached. -/
structure Scene.Orderly (before : List Scene) (s : Scene) : Prop where
  inOrder : ∀ p ∈ inProgress (before ++ [s]), p.InOrder
  complete : ∀ name form report, s.event = .ended name form (.ok report) →
    ∃ p runs, inProgress before = p :: runs ∧ p.begun.event = .begun name form ∧
      deeds p.done = p.begun.agenda
  fetched : ∀ c text value, s.event = .called c text value →
    ∃ p runs, inProgress before = p :: runs ∧ p.Fetched c value

/-! ## Endings -/

namespace Traced

variable {α β : Type} {J L : List Scene → World → Prop}

/-- The run leads from worlds of the first kind to worlds that fit its result, or to worlds of the
last kind if a fault ends it. -/
def Ends (J : List Scene → World → Prop) (K : α → List Scene → World → Prop)
    (E : List Scene → World → Prop) (r : Traced α) : Prop :=
  ∀ h w, J h w → match (r w).1.1 with
    | .ok a => K a (h ++ (r w).2) (r w).1.2
    | .error _ => E (h ++ (r w).2) (r w).1.2

variable {K : α → List Scene → World → Prop} {K' : β → List Scene → World → Prop}
  {E : List Scene → World → Prop}

theorem Ends.of_leads {r : Traced α} (hr : Leads J L r) (hLE : ∀ h w, L h w → E h w) :
    Ends J (fun _ => L) E r := by
  intro h w hJ
  have hL := hr h w hJ
  rcases (r w).1.1 with fault | a
  · exact hLE _ _ hL
  · exact hL

theorem Ends.pure {a : α} (hK : ∀ h w, J h w → K a h w) : Ends J K E (Pure.pure a) := by
  intro h w hJ
  change K a (h ++ []) w
  rw [List.append_nil]
  exact hK h w hJ

theorem Ends.bind {r : Traced α} {f : α → Traced β} (hr : Ends J K E r)
    (hf : ∀ a, Ends (K a) K' E (f a)) : Ends J K' E (r >>= f) := by
  intro h w hJ
  have hend := hr h w hJ
  change match (Traced.bind r f w).1.1 with
    | .ok b => K' b (h ++ (Traced.bind r f w).2) (Traced.bind r f w).1.2
    | .error _ => E (h ++ (Traced.bind r f w).2) (Traced.bind r f w).1.2
  unfold Traced.bind
  rcases hw : r w with ⟨⟨fault | a, v⟩, before⟩ <;> rw [hw] at hend
  · exact hend
  · have hlast := hf a _ v hend
    rw [List.append_assoc] at hlast
    exact hlast

/-- What a lookup comes to may be used to follow the run. -/
theorem Ends.reads {r : Run α} {f : α → Traced β} (hr : r.Reads)
    (hf : ∀ a, Ends (fun h w => J h w ∧ (r w).1 = .ok a) K' E (f a)) (hE : ∀ h w, J h w → E h w) :
    Ends J K' E (silent r >>= f) := by
  refine Ends.bind (K := fun a h w => J h w ∧ (r w).1 = .ok a) (fun h w hJ => ?_) hf
  change match (r w).1 with
    | .ok a => J (h ++ []) (r w).2 ∧ (r (r w).2).1 = .ok a
    | .error _ => E (h ++ []) (r w).2
  have hw : (r w).2 = w := hr w
  rw [hw, List.append_nil]
  rcases (r w).1 with fault | a
  · exact hE h w hJ
  · exact ⟨hJ, rfl⟩

/-! ## Runs in order -/

/-- The runs in progress are the given ones, and all went in order so far. -/
structure Under (runs : List Progress) (h : List Scene) (w : World) : Prop where
  current : inProgress h = runs
  inOrder : ∀ p ∈ runs, p.InOrder
  orderly : ∀ pre s, pre ++ [s] <+: h → s.Orderly pre

theorem Under.nil (w : World) : Under [] [] w :=
  ⟨rfl, List.forall_mem_nil _, fun pre s hpre => by simp at hpre⟩

section

variable {runs : List Progress} {h : List Scene} {w : World} {event : Event}

/-- One more scene. -/
theorem Under.concat {runs' : List Progress} (hu : Under runs h w)
    (hruns : Scene.progress runs ⟨event, w⟩ = runs') (horder : ∀ p ∈ runs', p.InOrder)
    (hcomplete : ∀ name form report, event = .ended name form (.ok report) →
      ∃ p rest, runs = p :: rest ∧ p.begun.event = .begun name form ∧ deeds p.done = p.begun.agenda)
    (hfetched : ∀ c text value, event = .called c text value →
      ∃ p rest, runs = p :: rest ∧ p.Fetched c value) :
    Under runs' (h ++ [⟨event, w⟩]) w := by
  have hnow : inProgress (h ++ [⟨event, w⟩]) = runs' := by
    rw [inProgress_concat, hu.current, hruns]
  refine ⟨hnow, horder, fun pre s hpre => ?_⟩
  rcases List.prefix_concat_iff.1 hpre with heq | hpre
  · obtain ⟨rfl, hs⟩ := List.append_inj' heq rfl
    obtain rfl := List.singleton_inj.1 hs
    refine ⟨by rwa [hnow], ?_, ?_⟩
    · rwa [hu.current]
    · rwa [hu.current]
  · exact hu.orderly pre s hpre

theorem Under.asked (hu : Under runs h w) (caller : Option Caller) (q : Request) :
    Under runs (h ++ [⟨.asked caller q, w⟩]) w :=
  hu.concat rfl hu.inOrder (fun _ _ _ he => nomatch he) fun _ _ _ he => nomatch he

theorem Under.answered (hu : Under runs h w) (caller : Option Caller) (q : Request)
    (reply : Attempt q.Reply) : Under runs (h ++ [⟨.answered caller q reply, w⟩]) w :=
  hu.concat rfl hu.inOrder (fun _ _ _ he => nomatch he) fun _ _ _ he => nomatch he

theorem Under.begun (hu : Under runs h w) (name : String) (form : Value) :
    Under (⟨⟨.begun name form, w⟩, []⟩ :: runs) (h ++ [⟨.begun name form, w⟩]) w := by
  refine hu.concat rfl ?_ (fun _ _ _ he => nomatch he) fun _ _ _ he => nomatch he
  exact List.forall_mem_cons.2 ⟨List.nil_prefix, hu.inOrder⟩

theorem Under.of_eq {v : World} (hu : Under runs h w) : Under runs h v :=
  ⟨hu.current, hu.inOrder, hu.orderly⟩

/-- No predicate can bring runs out of order. -/
theorem under_calm (runs : List Progress) (caller : Option Caller) : Calm (Under runs) caller where
  log _ hu := hu.of_eq
  note _ hu := hu.of_eq
  write _ _ hu := hu.of_eq
  declare _ _ hu := hu.of_eq
  asked q hu := hu.asked caller q
  answered q reply hu := hu.answered caller q reply

end

/-- The innermost run began in the given scene, has done the given deeds, and is as told. -/
def Amid (runs : List Progress) (b : Scene) (done : List Deed) (P : Progress → Prop)
    (h : List Scene) (w : World) : Prop :=
  ∃ p, Under (p :: runs) h w ∧ p.begun = b ∧ deeds p.done = done ∧ P p

/-- The innermost run began in the given scene. -/
def Somewhere (runs : List Progress) (b : Scene) (h : List Scene) (w : World) : Prop :=
  ∃ p, Under (p :: runs) h w ∧ p.begun = b

section

variable {runs : List Progress} {b : Scene} {done : List Deed} {P : Progress → Prop}
  {h : List Scene} {w : World}

theorem Amid.somewhere (ha : Amid runs b done P h w) : Somewhere runs b h w := by
  obtain ⟨p, hu, hb, -⟩ := ha
  exact ⟨p, hu, hb⟩

theorem Amid.of_eq {v : World} (ha : Amid runs b done P h w) : Amid runs b done P h v := by
  obtain ⟨p, hu, hp⟩ := ha
  exact ⟨p, hu.of_eq, hp⟩

/-- Nothing that a predicate does is a deed of the run that called it. -/
theorem Keeps.amid {α : Type} {r : Traced α} (hr : ∀ runs, Keeps (Under runs) r) :
    Keeps (Amid runs b done P) r := by
  rintro h w ⟨p, hu, hp⟩
  exact ⟨p, hr _ h w hu, hp⟩

/-- The run reaches a field. -/
theorem Amid.reached {c : Caller} (ha : Amid runs b done P h w)
    (hb : done ++ [.field c] <+: b.agenda) :
    Amid runs b (done ++ [.field c])
      (fun p => ∃ before, p.done = before ++ [⟨.reached c, w⟩]) (h ++ [⟨.reached c, w⟩]) w := by
  obtain ⟨p, hu, rfl, rfl, -⟩ := ha
  refine ⟨⟨p.begun, p.done ++ [⟨.reached c, w⟩]⟩, ?_, rfl, deeds_concat _ rfl, p.done, rfl⟩
  refine hu.concat rfl ?_ (fun _ _ _ he => nomatch he) fun _ _ _ he => nomatch he
  refine List.forall_mem_cons.2 ⟨?_, fun q hq => hu.inOrder q (List.mem_cons_of_mem _ hq)⟩
  unfold Progress.InOrder
  rwa [deeds_concat (d := .field c) _ rfl]

/-- The run calls a predicate with the value that it fetched. -/
theorem Amid.called {c : Caller} {value : Value}
    (ha : Amid runs b done (Progress.Fetched · c value) h w)
    {text : String} (hb : done ++ [.rule c text] <+: b.agenda) :
    Amid runs b (done ++ [.rule c text]) (Progress.Fetched · c value)
      (h ++ [⟨.called c text value, w⟩]) w := by
  obtain ⟨p, hu, rfl, rfl, hp⟩ := ha
  refine ⟨⟨p.begun, p.done ++ [⟨.called c text value, w⟩]⟩, ?_, rfl, deeds_concat _ rfl, hp.call⟩
  refine hu.concat rfl ?_ (fun _ _ _ he => nomatch he) ?_
  · refine List.forall_mem_cons.2 ⟨?_, fun q hq => hu.inOrder q (List.mem_cons_of_mem _ hq)⟩
    unfold Progress.InOrder
    rwa [deeds_concat (d := .rule c text) _ rfl]
  · intro c' text' value' he
    obtain ⟨rfl, -, rfl⟩ := Event.called.inj he
    exact ⟨p, runs, rfl, hp⟩

end

section

variable {runs : List Progress} {b : Scene} {passes : String → Value → Traced Bool}
  (hpasses : ∀ runs name form, Keeps (Under runs) (passes name form)) {name : String} {form : Value}
  {e : Engine}

/-- A change of the world is no deed. -/
theorem ends_modify {done : List Deed} {P : Progress → Prop} (f : World → World) :
    Ends (Amid runs b done P) (fun _ => Amid runs b done P) (Somewhere runs b)
      (silent (Run.modify f)) :=
  Ends.of_leads (Leads.silent fun _ _ ha => ha.of_eq) fun _ _ => Amid.somewhere

include hpasses

/-- A rule is one deed, unless a fault prevents the call. -/
theorem ends_rule {field value : Value} {done : List Deed} {text : String}
    (hagenda : done ++ [.rule ⟨name, ⟨form, field⟩⟩ text] <+: b.agenda) (errors : Errors) :
    Ends (Amid runs b done (Progress.Fetched · ⟨name, ⟨form, field⟩⟩ value))
      (fun _ => Amid runs b (done ++ [.rule ⟨name, ⟨form, field⟩⟩ text])
        (Progress.Fetched · ⟨name, ⟨form, field⟩⟩ value))
      (Somewhere runs b)
      (rule (respond (Run.readField e.accessor form) passes) name e
        ⟨form, field⟩ value text errors) := by
  refine Ends.bind (Ends.of_leads (Keeps.reads (Run.reads_resolve e text)) fun _ _ =>
    Amid.somewhere)
    fun ⟨prepared, definition⟩ => ?_
  refine Ends.bind (Ends.of_leads (Leads.mark fun _ _ ha => ha.called hagenda) fun _ _ =>
    Amid.somewhere)
    fun _ => ?_
  -- from here on the deed is done, and what follows adds none
  refine Ends.of_leads (Keeps.amid fun runs => ?_) fun _ _ => Amid.somewhere
  have hcalm := under_calm runs (some ⟨name, ⟨form, field⟩⟩)
  refine Keeps.bind (hcalm.check
    (hcalm.respond (fun _ => Run.reads_readField _ _ _) (hpasses runs)) _)
    fun passed => ?_
  exact Keeps.ite (Keeps.pure errors) (hcalm.reject e ⟨form, field⟩ text prepared errors)

theorem ends_rules {field value : Value} {done : List Deed} (texts : List String)
    (hagenda : done ++ texts.map (.rule ⟨name, ⟨form, field⟩⟩) <+: b.agenda) (errors : Errors) :
    Ends (Amid runs b done (Progress.Fetched · ⟨name, ⟨form, field⟩⟩ value))
      (fun _ => Amid runs b (done ++ texts.map (.rule ⟨name, ⟨form, field⟩⟩))
        (Progress.Fetched · ⟨name, ⟨form, field⟩⟩ value))
      (Somewhere runs b)
      (rules (respond (Run.readField e.accessor form) passes) name e ⟨form, field⟩ value texts
        errors) := by
  induction texts generalizing done errors with
  | nil =>
    refine Ends.pure fun h w ha => ?_
    rwa [List.map_nil, List.append_nil]
  | cons text texts ih =>
    rw [List.map_cons, List.append_cons] at hagenda ⊢
    refine Ends.bind (ends_rule hpasses ((List.prefix_append _ _).trans hagenda) errors)
      fun errors => ?_
    exact ih hagenda errors

/-- The fields of a form are done one after the other. -/
theorem ends_fields (hb : b.world.engines.get? name = some e) {done : List Deed}
    (declared : List (Value × List String))
    (hagenda : done ++ agendaOf name form declared <+: b.agenda) (errors : Errors) :
    Ends (Amid runs b done fun _ => True)
      (fun _ => Amid runs b (done ++ agendaOf name form declared) fun _ => True) (Somewhere runs b)
      (fields (respond (Run.readField e.accessor form) passes) name e form declared errors) := by
  induction declared generalizing done errors with
  | nil =>
    refine Ends.pure fun h w ha => ?_
    rwa [agendaOf, List.flatMap_nil, List.append_nil]
  | cons entry rest ih =>
    obtain ⟨field, texts⟩ := entry
    have hsplit : done ++ agendaOf name form ((field, texts) :: rest) =
        done ++ [.field ⟨name, ⟨form, field⟩⟩] ++ texts.map (Deed.rule ⟨name, ⟨form, field⟩⟩) ++
          agendaOf name form rest := by
      simp [agendaOf, fieldAgenda]
    rw [hsplit] at hagenda ⊢
    have hrules := (List.prefix_append _ (agendaOf name form rest)).trans hagenda
    have hfield := (List.prefix_append _ (texts.map (Deed.rule ⟨name, ⟨form, field⟩⟩))).trans hrules
    refine Ends.bind (ends_modify _) fun _ => ?_
    refine Ends.bind (K := fun _ h w => Amid runs b (done ++ [.field ⟨name, ⟨form, field⟩⟩])
      (fun p => ∃ before, p.done = before ++ [⟨.reached ⟨name, ⟨form, field⟩⟩, w⟩]) h w)
      (Ends.of_leads (Leads.mark fun h w ha => ha.reached hfield) fun _ _ => Amid.somewhere)
      fun _ => ?_
    refine Ends.reads (Run.reads_readField _ _ _) (fun value => ?_) fun _ _ => Amid.somewhere
    -- the value is the one of the moment in which the field was reached
    have hfetched : ∀ h w, (Amid runs b (done ++ [.field ⟨name, ⟨form, field⟩⟩])
        (fun p => ∃ before, p.done = before ++ [⟨.reached ⟨name, ⟨form, field⟩⟩, w⟩]) h w ∧
          (Run.readField e.accessor form field w).1 = .ok value) →
        Amid runs b (done ++ [.field ⟨name, ⟨form, field⟩⟩])
          (Progress.Fetched · ⟨name, ⟨form, field⟩⟩ value) h w := by
      rintro h w ⟨⟨p, hu, rfl, hdone, before, hbefore⟩, hvalue⟩
      exact ⟨p, hu, rfl, hdone, _, e, ⟨rfl, before, [], hbefore, List.forall_mem_nil _⟩, hb, hvalue⟩
    refine fun h w ha => Ends.bind (ends_rules hpasses texts hrules errors)
      (fun errors => ?_) h w (hfetched h w ha)
    intro h w ha
    obtain ⟨p, hu, hp, hdone, -⟩ := ha
    exact ih hagenda errors h w ⟨p, hu, hp, hdone, trivial⟩

/-- Going through the fields, and putting the cursor back. -/
theorem ends_collect (hb : b.world.engines.get? name = some e) {declared : FieldRules}
    (hagenda : b.agenda = agendaOf name form declared.entries) :
    Ends (Amid runs b [] fun _ => True) (fun _ => Amid runs b b.agenda fun _ => True)
      (Somewhere runs b) (collect passes name e form declared) := by
  have hfields : Ends (Amid runs b [] fun _ => True) (fun _ => Amid runs b b.agenda fun _ => True)
      (Somewhere runs b)
      (do
        Run.modify (Run.setCursor name (some ⟨form, .null⟩))
        fields (respond (Run.readField e.accessor form) passes) name e form declared.entries
          ∅) := by
    refine Ends.bind (ends_modify _) fun _ => ?_
    rw [hagenda]
    refine ends_fields hpasses hb declared.entries ?_ ∅
    rw [hagenda]
    exact List.prefix_rfl
  intro h w ha
  have hend := hfields h w ha
  unfold collect Traced.andThen
  split at hend
  · rename_i errors herrors
    simp only [herrors]
    exact Amid.of_eq hend
  · rename_i fault hfault
    simp only [hfault]
    obtain ⟨p, hu, hp⟩ := hend
    exact ⟨p, hu.of_eq, hp⟩

/-- A run does what it had to do when it began. -/
theorem ends_courseBy (hbegun : b.event = .begun name form) :
    Ends (fun h w => Amid runs b [] (fun _ => True) h w ∧ w = b.world)
      (fun _ => Amid runs b b.agenda fun _ => True) (Somewhere runs b)
      (courseBy passes name form) := by
  refine Ends.bind (K := fun _ => Amid runs b b.agenda fun _ => True) ?_ fun report =>
    Ends.bind (ends_modify _) fun _ => Ends.pure fun _ _ ha => ha
  refine Ends.reads (Run.reads_engine name) (fun e => ?_) fun _ _ ha => ha.1.somewhere
  refine Ends.reads (Run.reads_lift _) (fun declared => ?_) fun _ _ ha => ha.1.1.somewhere
  rintro h w ⟨⟨⟨ha, rfl⟩, he⟩, hdeclared⟩
  have hdeclared : e.fieldsOf form = .ok declared := hdeclared
  have hb : b.world.engines.get? name = some e := Run.get?_of_engine he
  have hagenda : b.agenda = agendaOf name form declared.entries := by
    have hknown : (Run.known name (some e) >>= fun e => e.fieldsOf form) = .ok declared := hdeclared
    simp only [Scene.agenda, hbegun, hb, hknown]
  refine Ends.bind (ends_modify _) (fun _ => ?_) h b.world ha
  exact Ends.bind (ends_collect hpasses hb hagenda) fun errors =>
    Ends.bind (ends_modify _) fun _ => Ends.pure fun _ _ ha => ha

/-- A run leaves no run in progress that was not before. -/
theorem under_around : Keeps (Under runs) (around name form (courseBy passes name form)) := by
  intro h w hu
  have hbegun := hu.begun name form
  have hcourse := ends_courseBy hpasses (b := ⟨.begun name form, w⟩) rfl _ w
    ⟨⟨⟨⟨.begun name form, w⟩, []⟩, hbegun, rfl, rfl, trivial⟩, rfl⟩
  have hended : ∀ p result h v, Under (p :: runs) h v →
      (∀ report, result = .ok report → p.begun.event = .begun name form ∧
        deeds p.done = p.begun.agenda) →
      Under runs (h ++ [⟨.ended name form result, v⟩]) v := by
    intro p result h v hp hall
    refine hp.concat rfl (fun q hq => hp.inOrder q (List.mem_cons_of_mem _ hq)) ?_
      fun _ _ _ he => by cases he
    intro name' form' report he
    obtain ⟨rfl, rfl, rfl⟩ := Event.ended.inj he
    exact ⟨p, runs, rfl, hall report rfl⟩
  rcases hr : courseBy passes name form w with ⟨⟨fault | report, v⟩, scenes⟩ <;> rw [hr] at hcourse
  · obtain ⟨p, hp, -⟩ := hcourse
    simpa [around, hr] using hended p (.error fault) _ v hp fun _ he => by cases he
  · obtain ⟨p, hp, hb, hdone, -⟩ := hcourse
    simpa [around, hr] using hended p (.ok report) _ v hp fun _ _ => by
      rw [hdone, hb]
      exact ⟨rfl, rfl⟩

end

/-- By induction on the depth to which runs may be nested. -/
theorem under_validate (depth : Nat) :
    ∀ runs name form, Keeps (Under runs) (validate depth name form) := by
  induction depth with
  | zero =>
    intro runs name form h w hu
    have hbegun := hu.begun name form
    have hended : Under runs
        (h ++ [⟨.begun name form, w⟩] ++ [⟨.ended name form (.error .tooDeep), w⟩])
        w := by
      refine hbegun.concat rfl hu.inOrder (fun _ _ _ he => ?_) fun _ _ _ he => nomatch he
      obtain ⟨-, -, hresult⟩ := Event.ended.inj he
      cases hresult
    simpa [validate, around, course, silent] using hended
  | succ depth ih =>
    intro runs name form
    exact under_around fun runs other form => (ih runs other form).bind fun _ => Keeps.pure _

end Traced

/-- **All runs in progress are in order at every scene of a run**: the run itself, and those nested
in it at any depth. -/
theorem Run.orderly_validate (depth : Nat) (name : String) (form : Value) (w : World)
    {pre : List Scene} {s : Scene} (hs : pre ++ [s] <+: (Traced.validate depth name form w).2) :
    s.Orderly pre :=
  (Traced.under_validate depth [] name form [] w (Traced.Under.nil w)).orderly pre s hs

end FormRules
