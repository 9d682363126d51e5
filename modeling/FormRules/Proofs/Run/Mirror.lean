import FormRules.Proofs.Run.InStep
import FormRules.Proofs.Run.Invariant

/-!
# A run beside another one

Two runs are compared part by part, where the first one tells its scenes: what their worlds have in
common may depend on what has happened so far, and after a scene that leads astray nothing is asked
of them any more (`Traced.Mirrors`). The engines that run may be two, and need not have the same
objects; it is enough that they read the same from them (`Traced.Abreast`).

The parts of a run put no condition on predicates. What each has to come to in the two runs is the
hypothesis of `Traced.mirrors_fields`, from which the run itself follows
(`Traced.mirrors_reportBy`).
-/

namespace FormRules

variable {α β γ δ : Type}

/-- One of the scenes leads astray, given those before it. -/
def Astray (Off : List Scene → Scene → Prop) (h : List Scene) : Prop :=
  ∃ pre s, pre ++ [s] <+: h ∧ Off pre s

theorem Astray.append {Off : List Scene → Scene → Prop} {h : List Scene} (ha : Astray Off h)
    (h' : List Scene) : Astray Off (h ++ h') := by
  obtain ⟨pre, s, hpre, hoff⟩ := ha
  exact ⟨pre, s, hpre.trans (List.prefix_append h h'), hoff⟩

namespace Traced

/-- Begun in related worlds, the two runs come to related results and leave related worlds, unless
the scenes of the first have led astray. -/
def Mirrors (Off : List Scene → Scene → Prop) (R : List Scene → World → World → Prop)
    (T : Attempt α → Attempt β → Prop) (R' : List Scene → World → World → Prop) (r : Traced α)
    (s : Run β) : Prop :=
  ∀ h w v, R h w v → Astray Off (h ++ (r w).2) ∨
    T (r w).1.1 (s v).1 ∧ R' (h ++ (r w).2) (r w).1.2 (s v).2

variable {Off : List Scene → Scene → Prop} {R R' R'' : List Scene → World → World → Prop}
  {T : Attempt α → Attempt β → Prop} {Q : α → β → Prop} {Q' : γ → δ → Prop}

/-! ## Composing runs -/

theorem Mirrors.silent {r : Run α} {s : Run β} (hrs : ∀ h, Run.InStep (R h) T (R' h) r s) :
    Mirrors Off R T R' (silent r) s := by
  intro h w v hwv
  refine .inr ?_
  rw [show (Traced.silent r w).2 = [] from rfl, List.append_nil]
  exact hrs h w v hwv

theorem Mirrors.imp {T' : Attempt α → Attempt β → Prop} {r : Traced α} {s : Run β}
    (hrs : Mirrors Off R T R' r s) (hT : ∀ a b, T a b → T' a b) : Mirrors Off R T' R' r s :=
  fun h w v hwv => (hrs h w v hwv).imp_right fun hrest => ⟨hT _ _ hrest.1, hrest.2⟩

theorem Mirrors.pure {a : α} {b : β} (h : Q a b) :
    Mirrors Off R (Matching Q) R (Pure.pure a : Traced α) (Pure.pure b) :=
  Mirrors.silent fun _ => Run.InStep.pure h

theorem Mirrors.bind {r : Traced α} {s : Run β} {f : α → Traced γ} {g : β → Run δ}
    (hrs : Mirrors Off R (Matching Q) R' r s)
    (hfg : ∀ a b, Q a b → Mirrors Off R' (Matching Q') R'' (f a) (g b))
    (hR : ∀ h w v, R' h w v → R'' h w v) :
    Mirrors Off R (Matching Q') R'' (r >>= f) (s >>= g) := by
  intro h w v hwv
  have hfirst := hrs h w v hwv
  change Astray Off (h ++ (Traced.bind r f w).2) ∨
    Matching Q' (Traced.bind r f w).1.1 ((s >>= g) v).1 ∧
    R'' (h ++ (Traced.bind r f w).2) (Traced.bind r f w).1.2 ((s >>= g) v).2
  unfold Traced.bind
  rw [Run.bind_apply]
  rcases hr : r w with ⟨⟨a, w'⟩, before⟩
  rcases hs : s v with ⟨b, v'⟩
  rw [hr, hs] at hfirst
  rcases hfirst with hastray | ⟨hresult, hworld⟩
  · -- what is astray stays astray, whether the second part is reached or not
    refine .inl ?_
    rcases a with fault | a
    · exact hastray
    · rw [← List.append_assoc]
      exact hastray.append _
  · cases hresult with
    | ok hab =>
      have hrest := hfg _ _ hab _ w' v' hworld
      rwa [List.append_assoc] at hrest
    | error fault => exact .inr ⟨.error fault, hR _ w' v' hworld⟩

/-- Runs that begin with the same results. -/
theorem Mirrors.bind_eq {r : Traced α} {s : Run α} {f : α → Traced γ} {g : α → Run δ}
    (hrs : Mirrors Off R (Matching Eq) R r s)
    (hfg : ∀ a, Mirrors Off R (Matching Q') R (f a) (g a)) :
    Mirrors Off R (Matching Q') R (r >>= f) (s >>= g) := by
  refine hrs.bind (fun a b hab => ?_) fun _ _ _ h => h
  rw [hab]
  exact hfg b

/-- What the first run does alone has no counterpart. -/
theorem Mirrors.bind_left {r : Traced α} {a : α} {f : α → Traced γ} {s : Run β}
    {T : Attempt γ → Attempt β → Prop}
    (hr : ∀ h w v, R h w v → (r w).1.1 = .ok a ∧ R' (h ++ (r w).2) (r w).1.2 v)
    (hf : Mirrors Off R' T R'' (f a) s) : Mirrors Off R T R'' (r >>= f) s := by
  intro h w v hwv
  obtain ⟨hresult, hworld⟩ := hr h w v hwv
  change Astray Off (h ++ (Traced.bind r f w).2) ∨ T (Traced.bind r f w).1.1 (s v).1 ∧
    R'' (h ++ (Traced.bind r f w).2) (Traced.bind r f w).1.2 (s v).2
  unfold Traced.bind
  rcases hw : r w with ⟨⟨a', w'⟩, before⟩
  rw [hw] at hresult hworld
  obtain rfl : a' = .ok a := hresult
  have hrest := hf _ w' v hworld
  rwa [List.append_assoc] at hrest

/-- A scene has no counterpart. -/
theorem Mirrors.mark_bind {event : Event} {f : Unit → Traced α} {s : Run β}
    (hmark : ∀ h w v, R h w v → R' (h ++ [⟨event, w⟩]) w v) (hf : Mirrors Off R' T R'' (f ()) s) :
    Mirrors Off R T R'' (mark event >>= f) s :=
  Mirrors.bind_left (fun h w v hwv => ⟨rfl, hmark h w v hwv⟩) hf

theorem Mirrors.modify {f g : World → World} (h : ∀ h w v, R h w v → R' h (f w) (g v)) :
    Mirrors Off R (Matching Eq) R' (Traced.silent (Run.modify f)) (Run.modify g) :=
  Mirrors.silent fun _ => Run.InStep.modify (h _)

theorem Mirrors.andThen {r : Traced α} {s : Run β} {f g : World → World}
    (hrs : Mirrors Off R T R' r s) (hfg : ∀ h w v, R' h w v → R'' h (f w) (g v)) :
    Mirrors Off R T R'' (r.andThen f) (s.andThen g) :=
  fun h w v hwv => (hrs h w v hwv).imp_right fun hrest => ⟨hrest.1, hfg _ _ _ hrest.2⟩

/-- Faults that are kept as results. -/
theorem Mirrors.attempt {r : Traced α} {s : Run β} (hrs : Mirrors Off R T R' r s) :
    Mirrors Off R (Matching T) R' r.attempt s.attempt :=
  fun h w v hwv => (hrs h w v hwv).imp_right fun hrest => ⟨.ok hrest.1, hrest.2⟩

/-- Runs that only look at the world. -/
theorem Mirrors.reads {r : Run α} {s : Run β} (hr : r.Reads) (hs : s.Reads)
    (h : ∀ h w v, R h w v → T (r w).1 (s v).1) : Mirrors Off R T R (Traced.silent r) s :=
  Mirrors.silent fun _ => Run.InStep.reads hr hs (h _)

/-- Relations that do not look at scenes compare the runs as if they told none. -/
theorem Mirrors.of_inStep {R R' : World → World → Prop} {r : Traced α} {s : Run β}
    (hrs : Run.InStep R T R' r.erase s) : Mirrors Off (fun _ => R) T (fun _ => R') r s :=
  fun _ w v hwv => .inr (hrs w v hwv)

theorem Mirrors.inStep {R R' : World → World → Prop} {r : Traced α} {s : Run β}
    (hrs : Mirrors (fun _ _ => False) (fun _ => R) T (fun _ => R') r s) :
    Run.InStep R T R' r.erase s := by
  intro w v hwv
  rcases hrs [] w v hwv with ⟨_, _, _, hoff⟩ | h
  · exact hoff.elim
  · exact h

/-! ## Engines that read the same -/

/-- The two engines read the same, each from its own objects: values, rules and composers. The
predicates that they find are a matter of `D`. -/
structure Abreast (R : List Scene → World → World → Prop) (D : Definition → Definition → Prop)
    (e e' : Engine) : Prop where
  log : ∀ {h w v} (rs : List Record), R h w v →
    R h { w with journal := w.journal ++ rs } { v with journal := v.journal ++ rs }
  own : ∀ {h w v} {event : Event}, event.Own → R h w v → R (h ++ [⟨event, w⟩]) w v
  read : ∀ {h w v} form field, R h w v →
    Matching Eq (Run.readField e.accessor form field w).1 (Run.readField e'.accessor form field v).1
  resolve : ∀ {h w v} text, R h w v → Matching (fun x y => x.1 = y.1 ∧ D x.2 y.2)
    (Run.resolve e text w).1 (Run.resolve e' text v).1
  composer : ∀ {h w v}, R h w v →
    Matching Eq (Run.composer e.composer w).1 (Run.composer e'.composer v).1

/-- The two runs write the same to the journal. -/
theorem mirrors_log (hR : ∀ {h w v} (rs : List Record), R h w v →
      R h { w with journal := w.journal ++ rs } { v with journal := v.journal ++ rs })
    (rs : List Record) : Mirrors Off R (Matching Eq) R (silent (Run.logAll rs)) (Run.logAll rs) :=
  Mirrors.modify fun _ _ _ => hR rs

/-- The two runs leave the same note. -/
theorem mirrors_note (hR : ∀ {h w v} (entry : Value), R h w v →
      R h { w with notes := w.notes ++ [entry] } { v with notes := v.notes ++ [entry] })
    (entry : Value) :
    Mirrors Off R (Matching Eq) R (silent (Run.note entry)) (Run.note entry) :=
  Mirrors.modify fun _ _ _ => hR entry

/-- A request that the two runs make. -/
theorem mirrors_exchange {caller : Option Caller} {respond : (q : Request) → Traced q.Reply}
    {respond' : (q : Request) → Run q.Reply} {q : Request}
    {T : Attempt q.Reply → Attempt q.Reply → Prop}
    (hasked : ∀ h w v, R h w v → R (h ++ [⟨.asked caller q, w⟩]) w v)
    (hrespond : Mirrors Off R T R (respond q) (respond' q))
    (hanswered : ∀ reply h w v, R h w v → R (h ++ [⟨.answered caller q reply, w⟩]) w v) :
    Mirrors Off R (Matching T) R (exchange caller respond q) (respond' q).attempt := by
  refine Mirrors.mark_bind hasked ?_
  rw [← bind_pure (respond' q).attempt]
  refine hrespond.attempt.bind (fun reply reply' hreply => ?_) fun _ _ _ h => h
  exact Mirrors.mark_bind (hanswered reply) (Mirrors.pure hreply)

/-- Whatever the rules of a field call, the predicates of the two engines come to the same. -/
def CallsMirror (Off : List Scene → Scene → Prop) (R : List Scene → World → World → Prop)
    (D : Definition → Definition → Prop) (name : String) (e : Engine) (here : Context)
    (value : Value)
    (texts : List String) (respond : (q : Request) → Traced q.Reply)
    (respond' : (q : Request) → Run q.Reply) : Prop :=
  ∀ h w v text prepared d d', R h w v → text ∈ texts →
    (Run.resolve e text w).1 = .ok (prepared, d) → D d d' →
      Mirrors Off R (Matching Eq) R
        ((d.call value prepared.parameters (some here)).traced (some ⟨name, here⟩) respond)
        ((d'.call value prepared.parameters (some here)).run respond')

section

variable {D : Definition → Definition → Prop} {e e' : Engine} {name name' : String}
  {respond : (q : Request) → Traced q.Reply} {respond' : (q : Request) → Run q.Reply}

theorem Abreast.reject (he : Abreast R D e e') (here : Context) (text : String)
    (prepared : PreparedRule) (errors : Errors) :
    Mirrors Off R (Matching Eq) R (silent (Run.reject e here text prepared errors))
      (Run.reject e' here text prepared errors) := by
  refine Mirrors.silent fun h => ?_
  have hlog (rs : List Record) :
      Run.InStep (R h) (Matching Eq) (R h) (Run.logAll rs) (Run.logAll rs) :=
    Run.InStep.modify fun _ _ => he.log rs
  refine (Run.InStep.reads (Run.reads_composer _) (Run.reads_composer _) fun _ _ =>
    he.composer).bind_eq
    fun c => (hlog _).bind_eq fun _ => (Run.InStep.lift _).bind_eq fun message => ?_
  exact (hlog _).bind_eq fun _ => Run.InStep.pure rfl

theorem Abreast.rule (he : Abreast R D e e') {here : Context} {value : Value} {text : String}
    (hcall : CallsMirror Off R D name e here value [text] respond respond') (errors : Errors) :
    Mirrors Off R (Matching Eq) R (rule respond name e here value text errors)
      (Run.rule respond' e' here value text errors) := by
  -- what the rule comes to is kept as what was resolved in some world
  have hresolve : Mirrors Off R (Matching fun x y => x.1 = y.1 ∧ D x.2 y.2 ∧
      ∃ h w v, R h w v ∧ (Run.resolve e text w).1 = .ok x) R (silent (Run.resolve e text))
      (Run.resolve e' text) := by
    refine Mirrors.reads (Run.reads_resolve _ _) (Run.reads_resolve _ _) fun h w v hwv => ?_
    have hxy := he.resolve text hwv
    generalize (Run.resolve e' text v).1 = resolved at hxy ⊢
    rcases hx : (Run.resolve e text w).1 with fault | x <;> rw [hx] at hxy
    · cases hxy
      exact .error fault
    · obtain ⟨hxy⟩ := hxy
      exact .ok ⟨hxy.1, hxy.2, h, w, v, hwv, hx⟩
  refine hresolve.bind ?_ fun _ _ _ h => h
  rintro ⟨prepared, d⟩ ⟨_, d'⟩ ⟨rfl, hd, h, w, v, hwv, hx⟩
  refine Mirrors.mark_bind (fun _ _ _ => he.own trivial) ?_
  refine (hcall h w v text prepared d d' hwv (List.mem_singleton_self text) hx hd).bind_eq
    fun passed => ?_
  cases passed
  · exact he.reject here text prepared errors
  · exact Mirrors.pure rfl

theorem Abreast.rules (he : Abreast R D e e') {here : Context} {value : Value} {texts : List String}
    (hcall : CallsMirror Off R D name e here value texts respond respond') (errors : Errors) :
    Mirrors Off R (Matching Eq) R (rules respond name e here value texts errors)
      (Run.rules respond' e' here value texts errors) := by
  induction texts generalizing errors with
  | nil => exact Mirrors.pure rfl
  | cons text texts ih =>
    refine (he.rule (fun h w v t prepared d d' hwv ht => ?_) errors).bind_eq
      (ih fun h w v t prepared d d' hwv ht => ?_)
    · obtain rfl := List.mem_singleton.1 ht
      exact hcall h w v t prepared d d' hwv List.mem_cons_self
    · exact hcall h w v t prepared d d' hwv (List.mem_cons_of_mem _ ht)

/-- The fields of a form come to the same if, from the moment that the cursor is on a field, the
predicates of the field do. -/
theorem mirrors_fields {form : Value} {K : List Scene → World → World → Prop}
    {R : Value → List Scene → World → World → Prop} (he : ∀ field, Abreast (R field) D e e')
    (henter : ∀ field h w v, K h w v → R field h (Run.setCursor name (some ⟨form, field⟩) w)
      (Run.setCursor name' (some ⟨form, field⟩) v))
    (hleave : ∀ field h w v, R field h w v → K h w v) (declared : List (Value × List String))
    (hcall : ∀ field texts value, (field, texts) ∈ declared →
      (∃ h w v, R field h w v ∧ (Run.readField e.accessor form field w).1 = .ok value) →
      CallsMirror Off (R field) D name e ⟨form, field⟩ value texts respond respond')
    (errors : Errors) :
    Mirrors Off K (Matching Eq) K (fields respond name e form declared errors)
      (Run.fields respond' name' e' form declared errors) := by
  induction declared generalizing errors with
  | nil => exact Mirrors.pure rfl
  | cons entry rest ih =>
    obtain ⟨field, texts⟩ := entry
    have hrest := ih fun field texts value hmem =>
      hcall field texts value (List.mem_cons_of_mem _ hmem)
    -- the value is kept as one that was read in a world of the field
    have hread : Mirrors Off (R field) (Matching fun a b => a = b ∧ ∃ h w v, R field h w v ∧
          (Run.readField e.accessor form field w).1 = .ok a) (R field)
        (silent (Run.readField e.accessor form field)) (Run.readField e'.accessor form field) := by
      refine Mirrors.reads (Run.reads_readField _ _ _)
        (Run.reads_readField _ _ _) fun h w v hwv => ?_
      rw [← ((he field).read form field hwv).eq]
      rcases hw : (Run.readField e.accessor form field w).1 with fault | value
      · exact .error fault
      · exact .ok ⟨rfl, h, w, v, hwv, hw⟩
    refine Mirrors.bind (Mirrors.modify (henter field)) (fun _ _ _ => ?_) (hleave field)
    refine Mirrors.mark_bind (fun _ _ _ => (he field).own trivial) ?_
    refine Mirrors.bind hread (fun value _ hvalue => ?_) (hleave field)
    obtain ⟨rfl, hvalue⟩ := hvalue
    refine Mirrors.bind ((he field).rules
      (hcall field texts value List.mem_cons_self hvalue) errors)
      (fun errors _ herrors => ?_) (hleave field)
    rw [← herrors]
    exact fun h w v hwv => hrest errors h w v (hleave field h w v hwv)

variable {passes : String → Value → Traced Bool} {passes' : String → Value → Run Bool}
    {form : Value}
  {R₀ R₁ : List Scene → World → World → Prop}

/-- Collecting errors: `K` holds while the cursor moves. -/
theorem mirrors_collect {K : List Scene → World → World → Prop}
    {R : Value → List Scene → World → World → Prop} (he : ∀ field, Abreast (R field) D e e')
    (hstart : ∀ h w v, R₀ h w v → K h (Run.setCursor name (some ⟨form, .null⟩) w)
      (Run.setCursor name' (some ⟨form, .null⟩) v))
    (henter : ∀ field h w v, K h w v → R field h (Run.setCursor name (some ⟨form, field⟩) w)
      (Run.setCursor name' (some ⟨form, field⟩) v))
    (hleave : ∀ field h w v, R field h w v → K h w v)
    (hback : ∀ h w v, K h w v →
      R₀ h (Run.setCursor name e.cursor w) (Run.setCursor name' e'.cursor v))
    (declared : FieldRules)
    (hcall : ∀ field texts value, (field, texts) ∈ declared.entries →
      (∃ h w v, R field h w v ∧ (Run.readField e.accessor form field w).1 = .ok value) →
      CallsMirror Off (R field) D name e ⟨form, field⟩ value texts
        (Traced.respond (Run.readField e.accessor form) passes)
        (Run.respond (Run.readField e'.accessor form) passes')) :
    Mirrors Off R₀ (Matching Eq) R₀ (collect passes name e form declared)
      (Run.collect passes' name' e' form declared) :=
  Mirrors.andThen (Mirrors.bind (Mirrors.modify hstart)
    (fun _ _ _ => mirrors_fields he henter hleave declared.entries hcall ∅) fun _ _ _ h => h) hback

/-- A run up to its report. What the worlds have in common when the engine is looked up need not
last. -/
theorem mirrors_reportBy (hlog : ∀ {h w v} (rs : List Record), R₁ h w v →
      R₁ h { w with journal := w.journal ++ rs } { v with journal := v.journal ++ rs })
    (hlast : ∀ h w v, R₀ h w v → R₁ h w v)
    (hengine : ∀ h w v, R₀ h w v → Matching (fun e e' => e.fieldsOf form = e'.fieldsOf form ∧
        ∀ declared, e.fieldsOf form = .ok declared → Mirrors Off R₁ (Matching Eq) R₁
          (collect passes name e form declared) (Run.collect passes' name' e' form declared))
      (Run.known name (w.engines.get? name)) (Run.known name' (v.engines.get? name'))) :
    Mirrors Off R₀ (Matching Eq) R₁ (reportBy passes name form)
      (Run.reportBy passes' name' form) := by
  refine Mirrors.bind (Mirrors.reads (Run.reads_engine name) (Run.reads_engine name') hengine)
    ?_ hlast
  rintro e e' ⟨hsame, hcollect⟩
  -- both engines declare the same fields, and it is known which
  have hdeclared : Mirrors Off R₁ (Matching fun a b => a = b ∧ e.fieldsOf form = .ok a) R₁
      (silent (liftM (e.fieldsOf form))) (liftM (e'.fieldsOf form) : Run FieldRules) := by
    refine Mirrors.reads (Run.reads_lift _) (Run.reads_lift _) fun _ _ _ _ => ?_
    rw [Run.lift_apply, Run.lift_apply, ← hsame]
    rcases e.fieldsOf form with fault | declared
    · exact .error fault
    · exact .ok ⟨rfl, rfl⟩
  refine fun h w v hwv => (Mirrors.bind hdeclared ?_ fun _ _ _ h => h) h w v (hlast h w v hwv)
  rintro declared _ ⟨rfl, hfields⟩
  refine (mirrors_log hlog _).bind_eq fun _ => (hcollect declared hfields).bind_eq fun errors => ?_
  exact (mirrors_log hlog _).bind_eq fun _ => Mirrors.pure rfl

/-- A run that publishes its report. -/
theorem mirrors_courseBy (hreport : Mirrors Off R₀ (Matching Eq) R₁ (reportBy passes name form)
      (Run.reportBy passes' name' form))
    (hpublish : ∀ report h w v, R₁ h w v →
      R₁ h (Run.publish name report w) (Run.publish name' report v)) :
    Mirrors Off R₀ (Matching Eq) R₁ (courseBy passes name form)
      (Run.validateBy passes' name' form) := by
  refine hreport.bind (fun report _ hsame => ?_) fun _ _ _ h => h
  rw [← hsame]
  exact (Mirrors.modify (hpublish report)).bind_eq fun _ => Mirrors.pure rfl

/-- The two engines go well together on a form, in worlds that stay in one relation: they declare
the same fields and read the same, and their predicates come to the same. -/
structure Partners (Off : List Scene → Scene → Prop) (R : List Scene → World → World → Prop)
    (D : Definition → Definition → Prop) (name name' : String) (form : Value)
    (passes : String → Value → Traced Bool) (passes' : String → Value → Run Bool) (e e' : Engine) :
    Prop where
  fields : e.fieldsOf form = e'.fieldsOf form
  reads : Abreast R D e e'
  back : ∀ h w v, R h w v → R h (Run.setCursor name e.cursor w) (Run.setCursor name' e'.cursor v)
  calls : ∀ d d', D d d' → ∀ value parameters here, Mirrors Off R (Matching Eq) R
    ((d.call value parameters (some here)).traced (some ⟨name, here⟩)
      (Traced.respond (Run.readField e.accessor form) passes))
    ((d'.call value parameters (some here)).run
      (Run.respond (Run.readField e'.accessor form) passes'))

/-- A run in worlds that stay in one relation, whatever it does. -/
theorem mirrors_validateBy {R : List Scene → World → World → Prop}
    (hlog : ∀ {h w v} (rs : List Record), R h w v →
      R h { w with journal := w.journal ++ rs } { v with journal := v.journal ++ rs })
    (hmove : ∀ cursor h w v, R h w v →
      R h (Run.setCursor name cursor w) (Run.setCursor name' cursor v))
    (hpublish : ∀ report h w v, R h w v →
      R h (Run.publish name report w) (Run.publish name' report v))
    (hlast : ∀ h w v, R₀ h w v → R h w v)
    (hengine : ∀ h w v, R₀ h w v → Matching (Partners Off R D name name' form passes passes')
      (Run.known name (w.engines.get? name)) (Run.known name' (v.engines.get? name'))) :
    Mirrors Off R₀ (Matching Eq) R (courseBy passes name form)
      (Run.validateBy passes' name' form) := by
  refine mirrors_courseBy (mirrors_reportBy hlog hlast fun h w v hwv => ?_) hpublish
  refine (hengine h w v hwv).imp fun e e' he => ⟨he.fields, fun declared _ => ?_⟩
  refine mirrors_collect (K := R) (R := fun _ => R) (fun _ => he.reads) (hmove _) (fun _ => hmove _)
    (fun _ _ _ _ h => h) he.back declared ?_
  rintro field texts value - - _ _ _ text prepared d d' - - - hd
  exact he.calls d d' hd value prepared.parameters ⟨form, field⟩

/-- A run between its begin and its end, unless its begin leads astray. -/
theorem mirrors_around {r : Traced Report} {s : Run Report}
    (hrs : Mirrors Off R₀ (Matching Eq) R₁ r s)
    (hbegun : ∀ h w v, R₁ h w v → Off h ⟨.begun name form, w⟩ ∨
      R₀ (h ++ [⟨.begun name form, w⟩]) w v)
    (hended : ∀ result h w v, R₁ h w v → R₁ (h ++ [⟨.ended name form result, w⟩]) w v) :
    Mirrors Off R₁ (Matching Eq) R₁ (around name form r) s := by
  intro h w v hwv
  have hscenes : h ++ (around name form r w).2 =
      h ++ [⟨.begun name form, w⟩] ++ (r w).2 ++ [⟨.ended name form (r w).1.1, (r w).1.2⟩] := by
    simp [around]
  rw [hscenes]
  rcases hbegun h w v hwv with hoff | hstart
  · refine .inl (Astray.append ?_ _)
    exact Astray.append ⟨h, _, List.prefix_rfl, hoff⟩ _
  · rcases hrs _ w v hstart with hastray | ⟨hresult, hworld⟩
    · exact .inl (hastray.append _)
    · exact .inr ⟨hresult, hended _ _ _ _ hworld⟩

end

/-- A run comes to the same as the one beside it, if it does so wherever the runs nested in it do.
By induction on the depth to which runs may be nested. -/
theorem mirrors_validate {P : String → Prop} {S : String → List Scene → World → World → Prop}
    (hcourse : ∀ {passes : String → Value → Traced Bool} {passes' : String → Value → Run Bool},
      (∀ name form, P name → Mirrors Off R (Matching Eq) R (passes name form) (passes' name form)) →
        ∀ name form, P name → Mirrors Off (S name) (Matching Eq) R (courseBy passes name form)
          (Run.validateBy passes' name form))
    (hlast : ∀ name h w v, S name h w v → R h w v)
    (hbegun : ∀ name form h w v, R h w v →
      Off h ⟨.begun name form, w⟩ ∨ S name (h ++ [⟨.begun name form, w⟩]) w v)
    (hended : ∀ name form result h w v, R h w v → R (h ++ [⟨.ended name form result, w⟩]) w v)
    (depth : Nat) {name : String} (hname : P name) (form : Value) :
    Mirrors Off R (Matching Eq) R (validate depth name form) (Run.validate depth name form) := by
  induction depth generalizing name form with
  | zero =>
    -- too deep, in both worlds
    exact mirrors_around (Mirrors.silent fun _ _ _ h => ⟨.error _, hlast name _ _ _ h⟩)
      (hbegun name form)
      (hended name form)
  | succ depth ih =>
    refine mirrors_around (hcourse (fun other form hother => ?_) name form hname) (hbegun name form)
      (hended name form)
    exact (ih hother form).bind_eq fun _ => Mirrors.pure rfl

end Traced

/-! ## Runs whose checks go the same way -/

/-- The two engines are set up alike, and differ at most in what they tell of their runs. -/
def Engine.Kin (e e' : Engine) : Prop :=
  ∃ cursor last, e' = { e with cursor := cursor, lastReport := last }

/-- A check that one of the rules of a field calls for a value. -/
inductive Engine.Calls (e : Engine) (w : World) (here : Context) (value : Value)
    (texts : List String) : Check Bool → Prop where
  | mk {text : String} {prepared : PreparedRule} {definition : Definition} (htext : text ∈ texts)
    (hresolve : (Run.resolve e text w).1 = .ok (prepared, definition)) :
    Calls e w here value texts (definition.call value prepared.parameters (some here))

/-- Kindred engines read the same from worlds with the same objects. -/
theorem Tandem.abreast {R : World → World → Prop} (hR : Tandem R) {e e' : Engine}
    (hkin : e.Kin e') :
    Traced.Abreast (fun _ => R) Eq e e' := by
  obtain ⟨cursor, last, rfl⟩ := hkin
  refine ⟨fun rs => hR.quiet _ _ _ _, fun _ h => h, fun form field h => ?_, fun text h => ?_,
    fun h => (hR.composer e.composer _ _ h).1⟩
  · exact (hR.readField e.accessor form field _ _ h).1
  · have hresolve := (hR.resolve e text _ _ h).1.eq
    change Matching _ (Run.resolve e text _).1 (Run.resolve e text _).1
    rw [← hresolve]
    rcases (Run.resolve e text _).1 with fault | x
    · exact .error fault
    · exact .ok ⟨rfl, rfl⟩

namespace Run

variable {passes passes' : String → Value → Run Bool} {name : String} {form : Value}
  {R₀ : World → World → Prop}

/-- Collecting errors: `K` holds while the cursor moves. -/
theorem inStep_collect {e e' : Engine} (hkin : e.Kin e') {K : World → World → Prop}
    {R : Value → World → World → Prop} (hR : ∀ field, Tandem (R field))
    (hstart : ∀ w v, R₀ w v →
      K (setCursor name (some ⟨form, .null⟩) w) (setCursor name (some ⟨form, .null⟩) v))
    (henter : ∀ field w v, K w v →
      R field (setCursor name (some ⟨form, field⟩) w) (setCursor name (some ⟨form, field⟩) v))
    (hleave : ∀ field w v, R field w v → K w v)
    (hback : ∀ w v, K w v → R₀ (setCursor name e.cursor w) (setCursor name e'.cursor v))
    (declared : FieldRules)
    (hcall : ∀ field texts value, (field, texts) ∈ declared.entries →
      (∃ w v, R field w v ∧ (readField e.accessor form field w).1 = .ok value) →
      ∀ w v c, R field w v → e.Calls w ⟨form, field⟩ value texts c →
        InStep (R field) (Matching Eq) (R field)
          (c.run (Run.respond (readField e.accessor form) passes))
          (c.run (Run.respond (readField e.accessor form) passes'))) :
    InStep R₀ (Matching Eq) R₀ (collect passes name e form declared)
      (collect passes' name e' form declared) := by
  have haccessor : e'.accessor = e.accessor := by
    obtain ⟨cursor, last, rfl⟩ := hkin
    rfl
  have hmirrors : Traced.Mirrors (fun _ _ => False) (fun _ => R₀) (Matching Eq) (fun _ => R₀)
      (Traced.collect (fun other form => Traced.silent (passes other form)) name e form declared)
      (collect passes' name e' form declared) := by
    refine Traced.mirrors_collect (K := fun _ => K) (R := fun field _ => R field)
      (fun field => (hR field).abreast hkin) (fun _ => hstart) (fun field _ => henter field)
      (fun field _ => hleave field) (fun _ => hback) declared ?_
    rintro field texts value hmem ⟨_, w, v, hwv, hvalue⟩ _ x y text prepared d
      _ hxy htext hresolve rfl
    refine Traced.Mirrors.of_inStep ?_
    simp only [Traced.erase_check, Traced.erase_respond, haccessor]
    exact hcall field texts value hmem ⟨w, v, hwv, hvalue⟩ x y _ hxy (.mk htext hresolve)
  have hstep := hmirrors.inStep
  rwa [Traced.erase_collect] at hstep

theorem inStep_reportBy (h₀ : Tandem R₀)
    (hengine : ∀ w v, R₀ w v → Matching (fun e e' => e.Kin e' ∧
        ∀ declared, e.fieldsOf form = .ok declared →
          InStep R₀ (Matching Eq) R₀ (collect passes name e form declared)
            (collect passes' name e' form declared))
      (known name (w.engines.get? name)) (known name (v.engines.get? name))) :
    InStep R₀ (Matching Eq) R₀ (reportBy passes name form) (reportBy passes' name form) := by
  have hmirrors : Traced.Mirrors (fun _ _ => False) (fun _ => R₀) (Matching Eq) (fun _ => R₀)
      (Traced.reportBy (fun other form => Traced.silent (passes other form)) name form)
      (reportBy passes' name form) := by
    refine Traced.mirrors_reportBy
      (fun rs => h₀.quiet _ _ _ _) (fun _ _ _ h => h) fun _ w v hwv => ?_
    refine (hengine w v hwv).imp ?_
    rintro e e' ⟨⟨cursor, last, rfl⟩, hcollect⟩
    refine ⟨rfl, fun declared hdeclared => Traced.Mirrors.of_inStep ?_⟩
    rw [Traced.erase_collect]
    exact hcollect declared hdeclared
  have hstep := hmirrors.inStep
  rwa [Traced.erase_reportBy] at hstep

/-- A run is in step with another one if what it consists of is. -/
theorem inStep_validateBy (hreport : InStep R₀ (Matching Eq) R₀ (reportBy passes name form)
      (reportBy passes' name form))
    (hpublish : ∀ report w v, R₀ w v → R₀ (publish name report w) (publish name report v)) :
    InStep R₀ (Matching Eq) R₀ (validateBy passes name form) (validateBy passes' name form) :=
  hreport.bind_eq fun report => (InStep.modify (hpublish report)).bind_eq fun _ => InStep.pure rfl

end Run

end FormRules
