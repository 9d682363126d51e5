import FormRules.Predicate.Probe
import FormRules.Proofs.Accessor
import FormRules.Proofs.Run.Mirror
import FormRules.Proofs.Run.Progress
import FormRules.Proofs.Run.View

/-!
# Declarations during a run

Predicates may declare rules anew while runs of the engine are in progress. A run goes through the
fields and rules that its form had when it began, whatever is declared afterwards; and a run that
begins goes by what was declared last, be it a nested one. A run whose engine begins no further run
after a declaration does not notice it at all: it comes to the same if the predicate just goes on as
if it had declared (`Run.declarations_kept`).

For the last of these, the run is put beside one in a world whose predicates declare nothing
(`World.Muted`). The engines of the two worlds may have different rules from the first declaration
on, and the next run that begins would tell them apart.
-/

namespace FormRules

/-! ## What engines have declared -/

/-- The rules of an engine. -/
def World.rulesOf (w : World) (name : String) : Option RuleSet :=
  (w.engines.get? name).map Engine.rules

/-- The rules that an engine reads from declarations, if it can use them. -/
def World.normalized (w : World) (name : String) (rules : Value) : Option RuleSet :=
  (w.engines.get? name).bind fun e => (e.config.normalize rules).toOption

/-- The scene tells that an engine has declared rules. -/
def Scene.Declares (name : String) (s : Scene) : Prop :=
  ∃ caller rules, s.event = .answered caller (.declare name rules) (.ok ())

/-- The rules of an engine after a scene. -/
def Scene.ruled (name : String) (now : Option RuleSet) (s : Scene) : Option RuleSet :=
  match s.event with
  | .answered _ (.declare n rules) (.ok _) =>
    if n = name then s.world.normalized name rules else now
  | _ => now

/-- The rules that were declared last, or else those from before. -/
def lastDeclared (name : String) (before : Option RuleSet) (h : List Scene) : Option RuleSet :=
  h.foldl (Scene.ruled name) before

/-- An update that keeps the rules of engines changes no rules. -/
theorem World.rulesOf_updateEngine (w : World) (n name : String) {f : Engine → Engine}
    (hf : ∀ e, (f e).rules = e.rules) :
    (w.updateEngine n f).rulesOf name = w.rulesOf name :=
  map_updateEngine w n hf name

open Run in
/-- What a request does to the rules of an engine can be read off the scene of its answer. -/
theorem ruled_respond {sibling : Value → Run Value} {passes : String → Value → Run Bool}
    (hsibling : ∀ field, (sibling field).Reads) (caller : Option Caller) {q : Request}
    (hq : ∀ other form, q ≠ .passes other form) (w : World) (name : String) :
    (respond sibling passes q w).2.rulesOf name = Scene.ruled name (w.rulesOf name)
      ⟨.answered caller q (respond sibling passes q w).1, (respond sibling passes q w).2⟩ := by
  have hfixed {part : Run q.Reply} (h : part.Fixes World.engines) :
      (part w).2.rulesOf name = w.rulesOf name :=
    congrArg (fun engines : Table String Engine => (engines.get? name).map Engine.rules) (h w)
  cases q with
  | sibling field => exact hfixed (hsibling field).fixes
  | passes other form => exact absurd rfl (hq other form)
  | observe n => exact hfixed (Reads.fixes ((reads_engine n).bind fun _ => reads_pure _))
  | assign n form field v =>
    exact hfixed ((reads_engine n).fixes.bind fun e =>
      fixes_writeField (fun _ _ _ => rfl) _ form field v)
  | declare n rules =>
    change (declare n rules w).2.rulesOf name = Scene.ruled name (w.rulesOf name)
      ⟨.answered caller (.declare n rules) (declare n rules w).1, (declare n rules w).2⟩
    rw [declare_apply]
    rcases he : w.engines.get? n with _ | e
    · rfl
    · simp only
      rcases hrules : e.config.normalize rules with fault | normalized
      · rfl
      · simp only [Scene.ruled, World.rulesOf, World.normalized, World.get?_updateEngine]
        by_cases hn : n = name
        · subst hn
          simp [he, hrules, Except.toOption]
        · rw [if_neg hn, if_neg fun h => hn h.symm]

/-- The rules of an engine are those that it declared last. -/
theorem Traced.follows_rulesOf (name : String) :
    Follows (fun w => w.rulesOf name) (Scene.ruled name) where
  log _ _ := rfl
  note _ _ := rfl
  move w n _ := w.rulesOf_updateEngine n name fun _ => rfl
  publish w n _ := w.rulesOf_updateEngine n name fun _ => rfl
  idle x s hs := by
    unfold Scene.ruled
    split
    · rename_i h
      rw [h] at hs
      exact hs.elim
    · rfl
  answered hsibling caller q hq w := ruled_respond hsibling caller hq w name

/-! ## Predicates that do not declare -/

/-- The second check is the first one, but that some declarations of an engine are left out: it goes
on with their outcome as if they had been made. -/
inductive Check.Muted {α : Type} (name : String) (outcome : Value → Attempt Unit) :
    Check α → Check α → Prop where
  | result (r : Attempt α) : Muted name outcome (.result r) (.result r)
  | log (r : Record) {c d : Check α} (h : Muted name outcome c d) :
    Muted name outcome (.log r c) (.log r d)
  | note (x : Value) {c d : Check α} (h : Muted name outcome c d) :
    Muted name outcome (.note x c) (.note x d)
  | ask (q : Request) {f g : Attempt q.Reply → Check α} (h : ∀ a, Muted name outcome (f a) (g a)) :
    Muted name outcome (.ask q f) (.ask q g)
  | declare (rules : Value) {f : Attempt Unit → Check α} {d : Check α}
    (h : Muted name outcome (f (outcome rules)) d) :
    Muted name outcome (.ask (.declare name rules) f) d

section

variable (name : String) (outcome : Value → Attempt Unit)

/-- The second definition differs at most in that its predicate leaves declarations out. -/
def Definition.Muted (d d' : Definition) : Prop :=
  ∃ body, d' = { d with body := body } ∧
    ∀ value parameters context, Check.Muted name outcome (d.body value parameters context)
      (body value parameters context)

/-- The second catalog has the same definitions, muted. -/
def Catalog.Muted (c c' : Catalog) : Prop :=
  ∀ method, Option.Rel (Definition.Muted name outcome) (c.resolve method) (c'.resolve method)

/-- The second world is the first one, with predicates that leave declarations out. -/
structure World.Muted (w v : World) : Prop where
  rest : v = { w with catalogs := v.catalogs }
  catalogs : ∀ r, Option.Rel (Catalog.Muted name outcome) (w.catalogs.get? r) (v.catalogs.get? r)

/-- The check with all declarations of an engine left out. -/
def Check.mute {α : Type} : Check α → Check α
  | .result r => .result r
  | .log r next => .log r next.mute
  | .note x next => .note x next.mute
  | .ask (.declare n rules) next =>
    if n = name then (next (outcome rules)).mute else .ask (.declare n rules) fun a => (next a).mute
  | .ask q next => .ask q fun a => (next a).mute

/-- The world in which no predicate declares anything for an engine. -/
def World.mute (w : World) : World :=
  let mute (d : Definition) : Definition :=
    { d with body := fun value parameters context =>
        (d.body value parameters context).mute name outcome }
  { w with catalogs.objects := w.catalogs.objects.mapValues (Table.mapValues mute) }

variable {name outcome}

/-- A check is beside its muted form. -/
theorem Check.muted_mute {α : Type} (c : Check α) :
    Check.Muted name outcome c (c.mute name outcome) := by
  induction c with
  | result r => exact .result r
  | log r next ih => exact .log r ih
  | note x next ih => exact .note x ih
  | ask q next ih =>
    cases q with
    | declare n rules =>
      unfold mute
      split
      · rename_i hn
        subst hn
        exact .declare rules (ih _)
      · exact .ask _ ih
    | _ => exact .ask _ ih

theorem Check.Muted.bind {α β : Type} {c d : Check α} {f : α → Check β}
    (h : Check.Muted name outcome c d) (hf : ∀ a, Check.Muted name outcome (f a) (f a)) :
    Check.Muted name outcome (c >>= f) (d >>= f) := by
  change Check.Muted name outcome (c.bind f) (d.bind f)
  induction h with
  | result r =>
    rcases r with fault | a
    · exact .result _
    · exact hf a
  | log r h ih => exact .log r ih
  | note x h ih => exact .note x ih
  | ask q h ih => exact .ask q ih
  | declare rules h ih => exact .declare rules ih

/-- Calls of definitions of which one is muted are so too. -/
theorem Definition.Muted.call {d d' : Definition} (h : Definition.Muted name outcome d d')
    (value : Value) (parameters : List Value) (context : Option Context) :
    Check.Muted name outcome (d.call value parameters context)
      (d'.call value parameters context) := by
  obtain ⟨body, rfl, hbody⟩ := h
  exact (hbody value parameters _).bind fun _ => .result _

/-- A world is beside its muted form. -/
theorem World.muted_mute (w : World) : World.Muted name outcome w (w.mute name outcome) := by
  refine ⟨rfl, fun r => ?_⟩
  change Option.Rel _ (w.catalogs.objects.get? r) ((w.catalogs.objects.mapValues _).get? r)
  rw [Table.get?_mapValues]
  rcases w.catalogs.objects.get? r with _ | c
  · exact .none
  · refine .some fun method => ?_
    change Option.Rel _ (c.get? method) ((c.mapValues _).get? method)
    rw [Table.get?_mapValues]
    rcases c.get? method with _ | d
    · exact .none
    · exact .some ⟨_, rfl, fun _ _ _ => Check.muted_mute _⟩

end

/-! ## A run beside a muted one -/

namespace Traced

/-- The engine begins a run after it has declared rules. -/
def Restarts (name : String) (pre : List Scene) (s : Scene) : Prop :=
  (∃ form, s.event = .begun name form) ∧ ∃ t ∈ pre, t.Declares name

/-- The second engine is the first one, but that its rules may be others if they are at liberty. -/
def Twins (free : Prop) (e e' : Engine) : Prop :=
  ∃ rules, e' = { e with rules := rules } ∧ (¬ free → rules = e.rules)

/-- The second world is one in which predicates leave declarations out, in a run with the given
scenes so far. -/
structure Beside (name : String) (outcome : Value → Attempt Unit) (h : List Scene) (w v : World) :
    Prop where
  accessors : w.accessors = v.accessors
  composers : w.composers = v.composers
  catalogs : ∀ r, Option.Rel (Catalog.Muted name outcome) (w.catalogs.get? r) (v.catalogs.get? r)
  engines : ∀ n, Option.Rel (Twins (n = name ∧ ∃ t ∈ h, t.Declares name)) (w.engines.get? n)
    (v.engines.get? n)
  outcomes : ∀ rules, (w.engines.get? name).map
    (fun e => (e.config.normalize rules).map fun _ => ()) =
    some (outcome rules)

section

variable {name : String} {outcome : Value → Attempt Unit} {h : List Scene} {w v : World}

/-- Twins stay so where more is allowed. -/
theorem Twins.mono {free free' : Prop} (hfree : free → free') {e e' : Engine}
    (he : Twins free e e') :
    Twins free' e e' := by
  obtain ⟨rules, rfl, hrules⟩ := he
  exact ⟨rules, rfl, fun h => hrules fun h' => h (hfree h')⟩

theorem Beside.told (hb : Beside name outcome h w v) (s : Scene) :
    Beside name outcome (h ++ [s]) w v := by
  refine ⟨hb.accessors, hb.composers, hb.catalogs, fun n => ?_, hb.outcomes⟩
  refine World.rel_mono (fun e e' => Twins.mono ?_) (hb.engines n)
  rintro ⟨hn, t, ht, hdeclares⟩
  exact ⟨hn, t, List.mem_append_left _ ht, hdeclares⟩

/-- Both worlds have an engine changed in the same way. -/
theorem Beside.updateEngine (hb : Beside name outcome h w v) (n : String) {f g : Engine → Engine}
    (hf : ∀ free e e', Twins free e e' → Twins free (f e) (g e'))
    (hconfig : ∀ e, (f e).config = e.config) :
    Beside name outcome h (w.updateEngine n f) (v.updateEngine n g) := by
  refine ⟨?_, ?_, ?_, World.rel_updateEngine hb.engines (fun e e' => hf _ e e') fun _ _ _ _ he =>
    he, ?_⟩
  · rw [World.accessors_updateEngine, World.accessors_updateEngine, hb.accessors]
  · rw [World.composers_updateEngine, World.composers_updateEngine, hb.composers]
  · rw [World.catalogs_updateEngine, World.catalogs_updateEngine]
    exact hb.catalogs
  · intro rules
    rw [World.map_updateEngine w n (fun e => by rw [hconfig])]
    exact hb.outcomes rules

/-- Worlds stay beside each other whatever is written to the journals and the notes. -/
theorem Beside.quiet (hb : Beside name outcome h w v) (js js' : List Record) (ns ns' : List Value) :
    Beside name outcome h { w with journal := js, notes := ns }
      { v with journal := js', notes := ns' } :=
  ⟨hb.accessors, hb.composers, hb.catalogs, hb.engines, hb.outcomes⟩

/-- They stay so when both move a cursor. -/
theorem Beside.setCursor (hb : Beside name outcome h w v) (n : String) (cursor : Option Context) :
    Beside name outcome h (Run.setCursor n cursor w) (Run.setCursor n cursor v) := by
  refine hb.updateEngine n ?_ fun _ => rfl
  rintro free e _ ⟨rules, rfl, hrules⟩
  exact ⟨rules, rfl, hrules⟩

/-- They stay so when both publish the same report. -/
theorem Beside.publish (hb : Beside name outcome h w v) (n : String) (report : Report) :
    Beside name outcome h (Run.publish n report w) (Run.publish n report v) := by
  refine hb.updateEngine n ?_ fun _ => rfl
  rintro free e _ ⟨rules, rfl, hrules⟩
  exact ⟨rules, rfl, hrules⟩

/-- Only the first of the worlds has declared new rules. -/
theorem Beside.declare (hb : Beside name outcome h w v) (rules : RuleSet)
    (hdeclared : ∃ t ∈ h, t.Declares name) :
    Beside name outcome h (w.updateEngine name fun e => { e with rules := rules }) v := by
  refine ⟨?_, ?_, ?_, fun n => ?_, fun rules => ?_⟩
  · rw [World.accessors_updateEngine, hb.accessors]
  · rw [World.composers_updateEngine, hb.composers]
  · rw [World.catalogs_updateEngine]
    exact hb.catalogs
  · have hn := hb.engines n
    rw [World.get?_updateEngine]
    split
    · rename_i heq
      generalize w.engines.get? n = a, v.engines.get? n = b at hn ⊢
      cases hn with
      | some he =>
        obtain ⟨rules', rfl, -⟩ := he
        exact .some ⟨rules', rfl, fun hfree => absurd ⟨heq, hdeclared⟩ hfree⟩
      | none => exact .none
    · exact hn
  · refine Eq.trans (World.map_updateEngine w name ?_ name) (hb.outcomes rules)
    exact fun _ => rfl

/-- Twins read the same. -/
theorem Twins.abreast {free : Prop} {e e' : Engine} (he : Twins free e e') :
    Abreast (Beside name outcome) (Definition.Muted name outcome) e e' := by
  obtain ⟨rules, rfl, -⟩ := he
  refine ⟨fun _ hb => hb.quiet _ _ _ _, fun _ hb => hb.told _, fun form field hb => ?_,
    fun text hb => ?_, fun hb => ?_⟩
  · exact Matching.of_eq (World.holds_congr hb.accessors e.accessor form field)
  · rw [Run.resolve_fst, Run.resolve_fst]
    refine Matching.bind (Matching.of_eq rfl) fun prepared _ hprepared => ?_
    rw [← hprepared]
    refine Matching.bind (Matching.known _ (hb.catalogs e.catalog)) fun c c' hc => ?_
    refine Matching.bind (Q := Definition.Muted name outcome) ?_ fun d d' hd => .ok ⟨rfl, hd⟩
    have hd := hc prepared.method
    unfold Catalog.lookUp
    generalize c.resolve prepared.method = a, c'.resolve prepared.method = b at hd ⊢
    cases hd with
    | some hd => exact .ok hd
    | none => exact .error _
  · rw [Run.composer_apply, Run.composer_apply, hb.composers]
    exact Matching.of_eq rfl

variable {Off : List Scene → Scene → Prop}

/-- A muted check comes to the same as the check itself. -/
theorem mirrors_muted {α : Type} {caller : Option Caller} {respond : (q : Request) → Traced q.Reply}
    {respond' : (q : Request) → Run q.Reply} {R : List Scene → World → World → Prop}
    (hlog : ∀ {h w v} (rs : List Record), R h w v →
      R h { w with journal := w.journal ++ rs } { v with journal := v.journal ++ rs })
    (hnote : ∀ {h w v} (entry : Value), R h w v →
      R h { w with notes := w.notes ++ [entry] } { v with notes := v.notes ++ [entry] })
    (hexchange : ∀ q, Mirrors Off R (Matching Eq) R (exchange caller respond q)
      (respond' q).attempt)
    (hdeclare : ∀ rules h w v, R h w v →
      (exchange caller respond (.declare name rules) w).1.1 = .ok (outcome rules) ∧
        R (h ++ (exchange caller respond (.declare name rules) w).2)
          (exchange caller respond (.declare name rules) w).1.2 v)
    {c d : Check α} (hcd : c.Muted name outcome d) :
    Mirrors Off R (Matching Eq) R (c.traced caller respond) (d.run respond') := by
  induction hcd with
  | result r => exact Mirrors.silent fun _ _ _ hwv => ⟨Matching.of_eq rfl, hwv⟩
  | log r h ih => exact (mirrors_log hlog _).bind_eq fun _ => ih
  | note x h ih => exact (mirrors_note hnote _).bind_eq fun _ => ih
  | ask q h ih =>
    rw [Check.run_ask]
    exact (hexchange q).bind_eq ih
  | declare rules h ih => exact Mirrors.bind_left (hdeclare rules) ih

open Run in
/-- An engine that both worlds look up. -/
theorem Beside.engine (n : String) (h : List Scene) : InStep (Beside name outcome h)
    (Matching fun e e' => ∃ free, Twins free e e') (Beside name outcome h) (engine n)
      (engine n) := by
  refine InStep.reads (reads_engine n) (reads_engine n) fun w v hb => ?_
  rw [engine_apply, engine_apply]
  exact (Matching.known n (hb.engines n)).imp fun e e' he => ⟨_, he⟩

open Run in
/-- They stay so when both write the same field. -/
theorem Beside.writeField (r : Ref) (form field x : Value) (h : List Scene) :
    InStep (Beside name outcome h) (Matching Eq) (Beside name outcome h)
      (writeField r form field x) (writeField r form field x) := by
  have haccessor : InStep (Beside name outcome h) (Matching Eq) (Beside name outcome h) (accessor r)
      (accessor r) := by
    refine InStep.reads (reads_accessor r) (reads_accessor r) fun w v hb => Matching.of_eq ?_
    rw [accessor_apply, accessor_apply, hb.accessors]
  refine haccessor.bind_eq fun a => InStep.bind_eq (InStep.modify fun w v hb => ?_) fun _ =>
    InStep.lift _
  exact ⟨congrArg (Shelf.put · r _) hb.accessors, hb.composers, hb.catalogs, hb.engines,
    hb.outcomes⟩

/-- Requests are answered alike, if nested runs are. -/
theorem Beside.respond {e e' : Engine} {free : Prop} (he : Twins free e e') (form : Value)
    {passes : String → Value → Traced Bool} {passes' : String → Value → Run Bool}
    (hpasses : ∀ other form, Mirrors Off (Beside name outcome) (Matching Eq) (Beside name outcome)
      (passes other form) (passes' other form)) (q : Request) :
    Mirrors Off (Beside name outcome) (Matching Eq) (Beside name outcome)
      (Traced.respond (Run.readField e.accessor form) passes q)
      (Run.respond (Run.readField e'.accessor form) passes' q) := by
  cases q with
  | sibling field =>
    exact Mirrors.reads (Run.reads_readField _ _ _) (Run.reads_readField _ _ _) fun h w v hb =>
      he.abreast.read form field hb
  | passes other form => exact hpasses other form
  | observe n =>
    refine Mirrors.silent fun h => (Beside.engine n h).bind ?_ fun _ _ h => h
    rintro e _ ⟨free, rules, rfl, -⟩
    exact Run.InStep.pure rfl
  | assign n form field x =>
    refine Mirrors.silent fun h => (Beside.engine n h).bind ?_ fun _ _ h => h
    rintro e _ ⟨free, rules, rfl, -⟩
    exact Beside.writeField e.accessor form field x h
  | declare n declarations =>
    refine Mirrors.silent fun h => (Beside.engine n h).bind ?_ fun _ _ h => h
    rintro e _ ⟨free, rules, rfl, -⟩
    refine (Run.InStep.lift (e.config.normalize declarations)).bind_eq fun normalized => ?_
    refine Run.InStep.modify fun w v hb => hb.updateEngine n ?_ fun _ => rfl
    rintro free e _ ⟨rules, rfl, -⟩
    exact ⟨normalized, rfl, fun _ => rfl⟩

/-- A declaration that only the first of the runs makes. -/
theorem Beside.exchange_declare (caller : Option Caller) (sibling : Value → Run Value)
    (passes : String → Value → Traced Bool) (rules : Value) (hb : Beside name outcome h w v) :
    (exchange caller (Traced.respond sibling passes) (.declare name rules) w).1.1 =
        .ok (outcome rules) ∧
      Beside name outcome
        (h ++ (exchange caller (Traced.respond sibling passes) (.declare name rules) w).2)
        (exchange caller (Traced.respond sibling passes) (.declare name rules) w).1.2 v := by
  have houtcome := hb.outcomes rules
  rw [exchange_apply]
  change Except.ok (Run.declare name rules w).1 = _ ∧
    Beside name outcome (h ++ [⟨.asked caller (.declare name rules), w⟩,
      ⟨.answered caller (.declare name rules) (Run.declare name rules w).1,
        (Run.declare name rules w).2⟩]) (Run.declare name rules w).2 v
  rw [Run.declare_apply]
  rcases he : w.engines.get? name with _ | e <;> rw [he] at houtcome
  · -- declarations have outcomes, so the engine is there
    cases houtcome
  · have htold {caller' : Option Caller} {reply : Attempt Unit} {u u' : World} := (hb.told
      ⟨.asked caller' (.declare name rules), u⟩).told
        ⟨.answered caller' (.declare name rules) reply, u'⟩
    simp only [List.append_assoc, List.cons_append, List.nil_append] at htold
    rw [← Option.some.inj houtcome]
    simp only
    rcases e.config.normalize rules with fault | normalized
    · exact ⟨rfl, htold⟩
    · have hdeclares : Scene.Declares name ⟨.answered caller (.declare name rules) (.ok ()),
          w.updateEngine name fun e => { e with rules := normalized }⟩ := ⟨caller, rules, rfl⟩
      refine ⟨rfl, htold.declare normalized ⟨_, ?_, hdeclares⟩⟩
      exact List.mem_append_right _ (List.mem_cons_of_mem _ (List.mem_singleton_self _))

/-- The worlds are beside each other, and the engine may begin a run. -/
def Ready (name : String) (outcome : Value → Attempt Unit) (n : String) (h : List Scene)
    (w v : World) : Prop :=
  Beside name outcome h w v ∧ ¬ (n = name ∧ ∃ t ∈ h, t.Declares name)

/-- Twins that begin with the same rules go well together on every form. -/
theorem Beside.partners {free : Prop} {e e' : Engine} (he : Twins free e e')
    (hrules : e'.rules = e.rules)
    (n : String) (form : Value) {passes : String → Value → Traced Bool}
    {passes' : String → Value → Run Bool}
    (hpasses : ∀ other form, Mirrors Off (Beside name outcome) (Matching Eq) (Beside name outcome)
      (passes other form) (passes' other form)) :
    Partners Off (Beside name outcome)
      (Definition.Muted name outcome) n n form passes passes' e e' := by
  have hcursor : e'.cursor = e.cursor := by
    obtain ⟨rules, rfl, -⟩ := he
    rfl
  refine ⟨?_, he.abreast, fun _ _ _ hb => ?_, fun d d' hd value parameters here => ?_⟩
  · unfold Engine.fieldsOf
    rw [hrules]
  · rw [hcursor]
    exact hb.setCursor n e.cursor
  · refine mirrors_muted (fun _ hb => hb.quiet _ _ _ _) (fun _ hb => hb.quiet _ _ _ _) (fun q => ?_)
      (fun rules h w v hb => ?_) (hd.call value parameters _)
    · exact (mirrors_exchange (fun _ _ _ hb => hb.told _) (Beside.respond he form hpasses q)
        fun _ _ _ _ hb => hb.told _).imp fun _ _ h => h.imp fun _ _ => Matching.eq
    · exact hb.exchange_declare _ _ _ rules

/-- A run comes to the same as the run beside it, unless its engine restarts. -/
theorem Beside.courseBy {passes : String → Value → Traced Bool}
    {passes' : String → Value → Run Bool}
    (hpasses : ∀ other form, Mirrors Off (Beside name outcome) (Matching Eq) (Beside name outcome)
      (passes other form) (passes' other form)) (n : String) (form : Value) :
    Mirrors Off (Ready name outcome n) (Matching Eq) (Beside name outcome) (courseBy passes n form)
      (Run.validateBy passes' n form) := by
  refine mirrors_validateBy (D := Definition.Muted name outcome) (fun _ hb => hb.quiet _ _ _ _)
    (fun cursor _ _ _ hb => hb.setCursor n cursor) (fun report _ _ _ hb => hb.publish n report)
    (fun _ _ _ hb => hb.1) ?_
  rintro h w v ⟨hb, hready⟩
  refine (Matching.known n (hb.engines n)).imp fun e e' he => ?_
  -- the run begins with the same rules, and from then on it does not look at them
  have hrules : e'.rules = e.rules := by
    obtain ⟨rules, rfl, hrules⟩ := he
    exact hrules hready
  exact Beside.partners he hrules n form hpasses

/-- When a run begins, the engine restarts, or both worlds are ready for it. -/
theorem Beside.begun (hb : Beside name outcome h w v) (n : String) (form : Value) :
    Restarts name h ⟨.begun n form, w⟩ ∨ Ready name outcome n (h ++ [⟨.begun n form, w⟩]) w v := by
  by_cases hn : n = name ∧ ∃ t ∈ h, t.Declares name
  · obtain ⟨rfl, hdeclared⟩ := hn
    exact .inl ⟨⟨form, rfl⟩, hdeclared⟩
  · refine .inr ⟨hb.told _, fun hn' => hn ⟨hn'.1, ?_⟩⟩
    obtain ⟨t, ht, caller, rules, hdeclares⟩ := hn'.2
    rcases List.mem_append.1 ht with ht | ht
    · exact ⟨t, ht, caller, rules, hdeclares⟩
    · rw [List.mem_singleton.1 ht] at hdeclares
      cases hdeclares

/-- A run goes alike in both worlds until the engine restarts. -/
theorem Beside.validate (depth : Nat) (n : String) (form : Value) :
    Mirrors (Restarts name) (Beside name outcome) (Matching Eq) (Beside name outcome)
      (validate depth n form) (Run.validate depth n form) :=
  mirrors_validate (P := fun _ => True) (S := Ready name outcome)
    (fun hpasses n form _ => Beside.courseBy (fun other form => hpasses other form trivial) n form)
    (fun _ _ _ _ hb => hb.1) (fun n form _ _ _ hb => hb.begun n form)
      (fun _ _ _ _ _ _ hb => hb.told _)
    depth trivial form

end

end Traced

/-- **A run keeps the declarations that it began with**, and begins with those that were made last.

At every scene, each run in progress has gone through the fields and rules that its form had when it
began, in that order, and has gone through all of them when it ends with a report; while the rules
of all engines are those that were declared last, also for the run that just begins. Therefore a
predicate that declares rules does not matter to runs in progress: if the engine begins no further
run after that, the outcome is the one of predicates that leave declarations out and go on as if
they had been made. -/
theorem Run.declarations_kept (depth : Nat) (name : String) (form : Value) (w : World) :
    (∀ pre s, pre ++ [s] <+: (Traced.validate depth name form w).2 → s.Orderly pre ∧
      ∀ n, s.world.rulesOf n = lastDeclared n (w.rulesOf n) (pre ++ [s])) ∧
    ∀ n e v, w.engines.get? n = some e →
      World.Muted n (fun rules => (e.config.normalize rules).map fun _ => ()) w v →
      (∀ pre s, pre ++ [s] <+: (Traced.validate depth name form w).2 → ¬ Traced.Restarts n pre s) →
      (Run.validate depth name form v).1 = (Run.validate depth name form w).1 := by
  refine ⟨fun pre s hs => ⟨orderly_validate depth name form w hs, fun n => ?_⟩, ?_⟩
  · exact ((Traced.follows_rulesOf n).validate depth name form w).atScenes pre s hs
  · intro n e v he hmuted hlast
    have hbeside : Traced.Beside n (fun rules => (e.config.normalize rules).map fun _ => ())
        [] w v := by
      -- nothing is declared yet, and the engines are the same
      rw [hmuted.rest]
      refine ⟨rfl, rfl, hmuted.catalogs, fun m => ?_, fun rules => ?_⟩
      · rcases w.engines.get? m with _ | e'
        · exact .none
        · exact .some ⟨e'.rules, rfl, fun _ => rfl⟩
      · rw [he]
        rfl
    rcases Traced.Beside.validate depth name form [] w v hbeside with ⟨pre, s, hpre, hoff⟩
      | ⟨hresult, -⟩
    · -- the worlds may part only where the engine restarts
      exact absurd hoff (hlast pre s hpre)
    · rw [← hresult.eq, ← Traced.erase_validate]
      rfl

/-! ## A form whose first field withdraws it -/

namespace Withdrawn

def engine : Engine where
  config := {}
  rules := ⟨[(.text "f", ⟨[(.text "a", ["undeclare"]), (.text "b", ["never"])]⟩)]⟩
  accessor := ⟨"values", 0⟩
  catalog := ⟨"catalog", 0⟩
  composer := ⟨"composer", 0⟩

def catalog : Catalog :=
  .ofList [{ name := "undeclare", body := Probe.undeclare.predicate "e" },
    { name := "never", body := Probe.never.predicate "e" }]

def world : World where
  accessors := Shelf.put ∅ ⟨"values", 0⟩ (.computed fun _ field => .ok field)
  catalogs := Shelf.put ∅ ⟨"catalog", 0⟩ catalog
  composers := Shelf.put ∅ ⟨"composer", 0⟩
    ⟨⟨[(.text "undeclare", "Gone."), (.text "never", "No.")]⟩, ∅⟩
  engines := Table.set ∅ "e" engine
  journal := []
  notes := []

/-- What a declaration comes to. -/
def outcome (rules : Value) : Attempt Unit := (engine.config.normalize rules).map fun _ => ()

/-- The engine begins no run after the first one. -/
theorem begins_once : ((Traced.validate 1 "e" (.text "f") world).2.tail.all fun s =>
    match s.event with
    | .begun .. => false
    | _ => true) = true := by
  rfl

/-- In this run no engine restarts. -/
theorem not_restarts {pre : List Scene} {s : Scene}
    (hs : pre ++ [s] <+: (Traced.validate 1 "e" (.text "f") world).2) :
    ¬ Traced.Restarts "e" pre s := by
  rintro ⟨⟨form, hbegun⟩, t, ht, -⟩
  obtain ⟨first, pre', rfl⟩ := List.exists_cons_of_ne_nil (List.ne_nil_of_mem ht)
  obtain ⟨after, hscenes⟩ := hs
  have htail := begins_once
  rw [← hscenes] at htail
  have hbegins := List.all_eq_true.1 htail s (by simp)
  rw [hbegun] at hbegins
  cases hbegins

theorem comes_to_muted :
    (Run.validate 1 "e" (.text "f") (world.mute "e" outcome)).1 =
        (Run.validate 1 "e" (.text "f") world).1 ∧
      (Run.validate 1 "e" (.text "f") world).1 =
        .ok ⟨.text "f", ⟨[(.text "a", ["Gone."]), (.text "b", ["No."])]⟩⟩ ∧
      (Run.validate 1 "e" (.text "f") world).2.rulesOf "e" = some ∅ :=
  ⟨(Run.declarations_kept 1 "e" (.text "f") world).2 "e" engine _ rfl world.muted_mute
    fun _ _ => not_restarts, rfl, rfl⟩

end Withdrawn

end FormRules
