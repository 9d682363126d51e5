import FormRules.Proofs.Run.Trace
import FormRules.Proofs.World

/-!
# Invariants of runs

What holds of a run at every moment is an invariant of the scenes so far and the world as it is. An
invariant that survives every single thing that a predicate, a rule or a field can do survives the
whole of it, in whatever way it ends: each part of a traced run has one lemma that says so, and
`Traced.Sustained.validate` puts them together for invariants that hold again whenever a request has
been answered, among them those that nothing in a run can break (`Traced.Closed`).
-/

namespace FormRules

namespace Traced

variable {α β : Type} {J K L : List Scene → World → Prop}

/-- The run leads from worlds of the first kind to worlds of the second, in whatever way it ends. -/
def Leads (J K : List Scene → World → Prop) (r : Traced α) : Prop :=
  ∀ h w, J h w → K (h ++ (r w).2) (r w).1.2

/-- The run keeps an invariant, in whatever way it ends. -/
abbrev Keeps (J : List Scene → World → Prop) (r : Traced α) : Prop := Leads J J r

/-! ## Composing runs -/

/-- A run without scenes leads from one property to another if its effect on the world does. -/
theorem Leads.silent {r : Run α} (hr : ∀ h w, J h w → K h (r w).2) :
    Leads J K (Traced.silent r) := by
  intro h w hJ
  rw [show (Traced.silent r w).2 = [] from rfl, List.append_nil]
  exact hr h w hJ

/-- What only reads leads where nothing has to change. -/
theorem Leads.reads {r : Run α} (hr : r.Reads) (hJK : ∀ h w, J h w → K h w) :
    Leads J K (Traced.silent r) :=
  Leads.silent fun h w hJ => by
    have hw : (r w).2 = w := hr w
    rw [hw]
    exact hJK h w hJ

/-- What only reads keeps every property. -/
theorem Keeps.reads {r : Run α} (hr : r.Reads) : Keeps J (Traced.silent r) :=
  Leads.reads hr fun _ _ hJ => hJ

theorem Keeps.pure (a : α) : Keeps J (Pure.pure a : Traced α) :=
  Keeps.reads (Run.reads_pure a)

/-- A scene leads from one property to another if the second holds with it. -/
theorem Leads.mark {event : Event} (h : ∀ h w, J h w → K (h ++ [⟨event, w⟩]) w) :
    Leads J K (Traced.mark event) := h

/-- A compound run leads where its second part does, if what the first part leaves behind is good
enough when a fault ends it there. -/
theorem Leads.bind {r : Traced α} {f : α → Traced β} (hr : Leads J K r)
    (hf : ∀ a, Leads K L (f a)) (hKL : ∀ h w, K h w → L h w) : Leads J L (r >>= f) := by
  intro h w hJ
  have hK := hr h w hJ
  change L (h ++ (Traced.bind r f w).2) (Traced.bind r f w).1.2
  unfold Traced.bind
  rcases hw : r w with ⟨⟨_ | a, v⟩, before⟩
  · rw [hw] at hK
    exact hKL _ _ hK
  · rw [hw] at hK
    change L (h ++ (before ++ (f a v).2)) (f a v).1.2
    rw [← List.append_assoc]
    exact hf a _ v hK

/-- Two things one after the other keep what both keep. -/
theorem Keeps.bind {r : Traced α} {f : α → Traced β} (hr : Keeps J r)
    (hf : ∀ a, Keeps J (f a)) : Keeps J (r >>= f) :=
  Leads.bind hr hf fun _ _ hJ => hJ

/-- Catching a fault keeps what is kept. -/
theorem Keeps.attempt {r : Traced α} (hr : Keeps J r) : Keeps J r.attempt := hr

/-- A change afterwards leads on. -/
theorem Leads.andThen {r : Traced α} {f : World → World} (hr : Leads J K r)
    (hf : ∀ h w, K h w → L h (f w)) : Leads J L (r.andThen f) :=
  fun h w hJ => hf _ _ (hr h w hJ)

/-- What holds of all worlds that the run may begin in may be used to follow the run. -/
theorem Leads.given {p : Prop} {r : Traced α} (hJ : ∀ h w, J h w → p ∧ K h w)
    (hr : p → Leads K L r) : Leads J L r :=
  fun h w hw => hr (hJ h w hw).1 h w (hJ h w hw).2

/-- An engine that is looked up is the one that the world has. -/
theorem Leads.engine {name : String} {f : Engine → Traced β}
    (hf : ∀ e, Leads (fun h w => J h w ∧ w.engines.get? name = some e) L (f e))
    (hJL : ∀ h w, J h w → L h w) : Leads J L (Traced.silent (Run.engine name) >>= f) := by
  intro h w hJ
  change L (h ++ (Traced.bind _ f w).2) (Traced.bind _ f w).1.2
  unfold Traced.bind Traced.silent
  rw [Run.engine_apply]
  rcases he : w.engines.get? name with _ | e
  · rw [show Run.known name (none : Option Engine) = .error (.unknownName name) from rfl,
      List.append_nil]
    exact hJL h w hJ
  · exact hf e h w ⟨hJ, he⟩

/-- A run between its begin and its end. -/
theorem Leads.around {name : String} {form : Value} {r : Traced Report} (hr : Leads J K r)
    (hbegun : ∀ h w, J h w → J (h ++ [⟨.begun name form, w⟩]) w)
    (hended : ∀ result h w, K h w → L (h ++ [⟨.ended name form result, w⟩]) w) :
    Leads J L (around name form r) := by
  intro h w hJ
  have hK := hended (r w).1.1 _ _ (hr _ w (hbegun h w hJ))
  simpa [Traced.around] using hK

/-- A choice keeps what both keep. -/
theorem Keeps.ite {b : Bool} {r s : Traced α} (hr : Keeps J r) (hs : Keeps J s) :
    Keeps J (if b then r else s) := by
  cases b
  · exact hs
  · exact hr

/-! ## The parts of a run -/

/-- An invariant that does not see what is written to the journal and the notes. -/
structure Quiet (J : List Scene → World → Prop) : Prop where
  log : ∀ {h w} (rs : List Record), J h w → J h { w with journal := w.journal ++ rs }
  note : ∀ {h w} (entry : Value), J h w → J h { w with notes := w.notes ++ [entry] }

/-- An invariant that survives whatever a predicate can do except for starting runs. -/
structure Calm (J : List Scene → World → Prop) (caller : Option Caller) : Prop extends Quiet J where
  write : ∀ {h w} (r : Ref) (a : Accessor), J h w →
    J h { w with accessors := w.accessors.put r a }
  declare : ∀ {h w} (name : String) (rules : RuleSet), J h w →
    J h (w.updateEngine name fun e => { e with rules := rules })
  asked : ∀ {h w} (q : Request), J h w → J (h ++ [⟨.asked caller q, w⟩]) w
  answered : ∀ {h w} (q : Request) (reply : Attempt q.Reply), J h w →
    J (h ++ [⟨.answered caller q reply, w⟩]) w

/-- An invariant that survives whatever happens while a run is at a field, except for other runs. -/
structure Steady (J : List Scene → World → Prop) (caller : Option Caller) : Prop extends
    Calm J caller where
  reached : ∀ {h w} {c : Caller}, caller = some c → J h w → J (h ++ [⟨.reached c, w⟩]) w
  called : ∀ {h w} {c : Caller} (text : String) (value : Value), caller = some c → J h w →
    J (h ++ [⟨.called c text value, w⟩]) w

/-- An invariant that survives what a run does at a field, and that holds again whenever a request
has been answered; it may fail in between. -/
structure Bears (J : List Scene → World → Prop) (caller : Option Caller)
    (respond : (q : Request) → Traced q.Reply) : Prop extends Quiet J where
  reached : ∀ {h w} {c : Caller}, caller = some c → J h w → J (h ++ [⟨.reached c, w⟩]) w
  called : ∀ {h w} {c : Caller} (text : String) (value : Value), caller = some c → J h w →
    J (h ++ [⟨.called c text value, w⟩]) w
  exchange : ∀ q, Keeps J (exchange caller respond q)

variable {caller : Option Caller}

theorem Quiet.logAll (hJ : Quiet J) (rs : List Record) :
    Keeps J (Traced.silent (Run.logAll rs)) :=
  Leads.silent fun _ _ h => hJ.log rs h

/-- Writing a field keeps a calm property. -/
theorem Calm.writeField (hJ : Calm J caller) (r : Ref) (form field v : Value) :
    ∀ h w, J h w → J h (Run.writeField r form field v w).2 := by
  intro h w hw
  unfold Run.writeField
  rw [Run.bind_apply]
  rcases ha : Run.accessor r w with ⟨_ | a, u⟩ <;>
    obtain rfl := (Run.reads_accessor r).eq ha
  · exact hw
  · exact hJ.write r _ hw

/-- So does declaring rules. -/
theorem Calm.redeclare (hJ : Calm J caller) (name : String) (rules : Value) :
    ∀ h w, J h w → J h (Run.declare name rules w).2 := by
  intro h w hw
  unfold Run.declare
  rw [Run.bind_apply]
  rcases he : Run.engine name w with ⟨_ | e, u⟩ <;> obtain rfl := (Run.reads_engine name).eq he
  · exact hw
  · change J h ((liftM (e.config.normalize rules) >>= fun rules => Run.modify fun w =>
      w.updateEngine name fun e => { e with rules := rules }) u).2
    rw [Run.bind_apply, Run.lift_apply]
    rcases e.config.normalize rules with _ | rules
    · exact hw
    · exact hJ.declare name rules hw

/-- What a predicate asks for keeps an invariant, if the nested runs do. -/
theorem Calm.respond (hJ : Calm J caller) {sibling : Value → Run Value}
    {passes : String → Value → Traced Bool} (hsibling : ∀ field, (sibling field).Reads)
    (hpasses : ∀ name form, Keeps J (passes name form)) (q : Request) :
    Keeps J (Traced.respond sibling passes q) := by
  cases q with
  | sibling field => exact Keeps.reads (hsibling field)
  | passes name form => exact hpasses name form
  | observe name => exact Keeps.reads ((Run.reads_engine name).bind fun _ => Run.reads_pure _)
  | assign name form field v =>
    refine Leads.silent fun h w hw => ?_
    change J h ((Run.engine name >>= fun e => Run.writeField e.accessor form field v) w).2
    rw [Run.bind_apply]
    rcases he : Run.engine name w with ⟨_ | e, u⟩ <;> obtain rfl := (Run.reads_engine name).eq he
    · exact hw
    · exact hJ.writeField e.accessor form field v h u hw
  | declare name rules => exact Leads.silent (hJ.redeclare name rules)

section

variable {respond : (q : Request) → Traced q.Reply}

/-- A request and its reply keep a calm property, if the reply does. -/
theorem Calm.exchange (hJ : Calm J caller) (hrespond : ∀ q, Keeps J (respond q)) (q : Request) :
    Keeps J (exchange caller respond q) := by
  refine Keeps.bind (Leads.mark fun _ _ => hJ.asked q) fun _ => ?_
  refine Keeps.bind (hrespond q).attempt fun reply => ?_
  exact Keeps.bind (Leads.mark fun _ _ => hJ.answered q reply) fun _ => Keeps.pure reply

theorem Steady.bears (hJ : Steady J caller) (hrespond : ∀ q, Keeps J (respond q)) :
    Bears J caller respond :=
  ⟨hJ.toQuiet, hJ.reached, hJ.called, hJ.exchange hrespond⟩

/-- A predicate at work keeps an invariant, if its requests do. -/
theorem Quiet.check (hJ : Quiet J) (hexchange : ∀ q, Keeps J (exchange caller respond q))
    (c : Check α) : Keeps J (c.traced caller respond) := by
  induction c with
  | result r => exact Leads.silent fun _ _ h => h
  | log r next ih => exact (hJ.logAll [r]).bind fun _ => ih
  | note entry next ih =>
    have hnote : Keeps J (Traced.silent (Run.note entry)) :=
      Leads.silent fun _ _ h => hJ.note entry h
    exact hnote.bind fun _ => ih
  | ask q next ih => exact (hexchange q).bind ih

/-- A predicate at work keeps a calm property, whatever it asks for. -/
theorem Calm.check (hJ : Calm J caller) (hrespond : ∀ q, Keeps J (respond q)) (c : Check α) :
    Keeps J (c.traced caller respond) :=
  hJ.toQuiet.check (hJ.exchange hrespond) c

/-- A rule that fails only writes to the journal. -/
theorem Quiet.reject (hJ : Quiet J) (e : Engine) (here : Context) (text : String)
    (prepared : PreparedRule) (errors : Errors) :
    Keeps J (silent (Run.reject e here text prepared errors)) := by
  refine Leads.silent fun h w hw => ?_
  unfold Run.reject
  rw [Run.bind_apply]
  rcases hc : Run.composer e.composer w with ⟨_ | c, u⟩ <;>
    obtain rfl := (Run.reads_composer e.composer).eq hc
  · exact hw
  · rcases hm : c.compose prepared.method prepared.parameters here.form here.field with
      ⟨records, _ | message⟩
    · simp only [hm]
      exact hJ.log records hw
    · simp only [hm]
      exact hJ.log [.ruleFailed text here.form here.field] (hJ.log records hw)

/-- One rule keeps a property that its predicate keeps. -/
theorem Bears.rule {name : String} {here : Context} (hJ : Bears J (some ⟨name, here⟩) respond)
    (e : Engine) (value : Value) (text : String) (errors : Errors) :
    Keeps J (rule respond name e here value text errors) := by
  refine Keeps.bind (Keeps.reads (Run.reads_resolve e text)) fun ⟨prepared, definition⟩ => ?_
  refine Keeps.bind (Leads.mark fun _ _ => hJ.called text value rfl) fun _ => ?_
  refine Keeps.bind (hJ.toQuiet.check hJ.exchange _) fun passed => ?_
  exact Keeps.ite (Keeps.pure errors) (hJ.reject e here text prepared errors)

/-- The rules of a field keep it, by induction. -/
theorem Bears.rules {name : String} {here : Context} (hJ : Bears J (some ⟨name, here⟩) respond)
    (e : Engine) (value : Value) (texts : List String) (errors : Errors) :
    Keeps J (rules respond name e here value texts errors) := by
  induction texts generalizing errors with
  | nil => exact Keeps.pure errors
  | cons text texts ih => exact (hJ.rule e value text errors).bind ih

/-- The fields of a form keep an invariant `K` if, from the moment that the cursor is on a field,
the rules of the field keep an invariant of their own. -/
theorem Keeps.fields {name : String} {form : Value} {J : Context → List Scene → World → Prop}
    (henter : ∀ field h w, K h w →
      J ⟨form, field⟩ h (Run.setCursor name (some ⟨form, field⟩) w))
    (hleave : ∀ field h w, J ⟨form, field⟩ h w → K h w)
    (hJ : ∀ field, Bears (J ⟨form, field⟩) (some ⟨name, ⟨form, field⟩⟩) respond) (e : Engine)
    (declared : List (Value × List String)) (errors : Errors) :
    Keeps K (fields respond name e form declared errors) := by
  induction declared generalizing errors with
  | nil => exact Keeps.pure errors
  | cons entry rest ih =>
    obtain ⟨field, texts⟩ := entry
    refine Leads.bind (Leads.silent fun h w => henter field h w) (fun _ => ?_) (hleave field)
    refine Leads.bind (Leads.mark fun _ _ => (hJ field).reached rfl) (fun _ => ?_) (hleave field)
    refine Leads.bind (Keeps.reads (Run.reads_readField _ _ _)) (fun value => ?_) (hleave field)
    refine Leads.bind ((hJ field).rules e value texts errors) (fun errors => ?_) (hleave field)
    exact fun h w hw => ih errors h w (hleave field h w hw)

end

/-- The world has the engine, in some moment in which the invariant holds. -/
def Holds (J : List Scene → World → Prop) (name : String) (e : Engine) : Prop :=
  ∃ h w, J h w ∧ w.engines.get? name = some e

/-- Up to its report, a run keeps an invariant that does not mind cursors that move, if what it does
at the fields keeps it. -/
theorem Keeps.reportBy (hquiet : Quiet J)
    (hmove : ∀ {h w} (name : String) (cursor : Option Context), J h w →
      J h (Run.setCursor name cursor w))
    {passes : String → Value → Traced Bool} {name : String} {form : Value}
    (hJ : ∀ e, Holds J name e → ∀ field, Bears J (some ⟨name, ⟨form, field⟩⟩)
      (respond (Run.readField e.accessor form) passes)) :
    Keeps J (reportBy passes name form) := by
  have hlog (r : Record) : Keeps J (silent (Run.log r)) := hquiet.logAll [r]
  refine Leads.engine (fun e => ?_) fun _ _ h => h
  refine Leads.given (p := Holds J name e) (K := J) (fun h w hw => ⟨⟨h, w, hw⟩, hw.1⟩) fun he => ?_
  refine Keeps.bind (Keeps.reads (Run.reads_lift _)) fun declared => ?_
  refine Keeps.bind (hlog _) fun _ => Keeps.bind ?_ fun errors => (hlog _).bind fun _ =>
    Keeps.pure _
  refine Leads.andThen (Keeps.bind (Leads.silent fun _ _ => hmove name _) fun _ => ?_)
    fun _ _ => hmove name e.cursor
  exact Keeps.fields (J := fun _ => J) (fun _ _ _ => hmove name _) (fun _ _ _ h => h) (hJ e he) e
    declared.entries ∅

/-- All fields keep it, if moving the cursor does. -/
theorem Steady.reportBy (hJ : ∀ caller, Steady J caller)
    (hmove : ∀ {h w} (name : String) (cursor : Option Context), J h w →
      J h (Run.setCursor name cursor w))
    {passes : String → Value → Traced Bool} (hpasses : ∀ name form, Keeps J (passes name form))
    (name : String) (form : Value) : Keeps J (reportBy passes name form) :=
  Keeps.reportBy (hJ none).toQuiet hmove fun _ _ _ =>
    (hJ _).bears ((hJ none).respond (fun _ => Run.reads_readField _ _ _) hpasses)

end Traced

/-- The event is one of a run, not one of a session around it. -/
def Event.InRun : Event → Prop
  | .made _ => False
  | .stepped => False
  | _ => True

/-- The event is a move of the run itself. -/
def Event.Own : Event → Prop
  | .begun .. => True
  | .reached .. => True
  | .called .. => True
  | .ended .. => True
  | _ => False

namespace Traced

/-! ## Invariants of whole runs -/

/-- An invariant that survives the moves of a run, and that holds again whenever a request has been
answered. -/
structure Sustained (J : List Scene → World → Prop) : Prop extends Quiet J where
  move : ∀ {h w} (name : String) (cursor : Option Context), J h w →
    J h (Run.setCursor name cursor w)
  publish : ∀ {h w} (name : String) (report : Report), J h w → J h (Run.publish name report w)
  mark : ∀ {h w} {event : Event}, event.Own → J h w → J (h ++ [⟨event, w⟩]) w
  exchange : ∀ {passes : String → Value → Traced Bool},
    (∀ name form, Keeps J (passes name form)) → ∀ {name e}, Holds J name e →
      ∀ here q, Keeps J (exchange (some ⟨name, here⟩)
        (respond (Run.readField e.accessor here.form) passes) q)

namespace Sustained

variable {J : List Scene → World → Prop} (hJ : Sustained J)

include hJ

/-- The inside of a run keeps it, if nested runs do. -/
theorem courseBy {passes : String → Value → Traced Bool}
    (hpasses : ∀ name form, Keeps J (passes name form)) (name : String) (form : Value) :
    Keeps J (courseBy passes name form) := by
  have hreport : Keeps J (reportBy passes name form) := by
    refine Keeps.reportBy hJ.toQuiet hJ.move fun e he field => ?_
    exact ⟨hJ.toQuiet, fun _ => hJ.mark trivial, fun _ _ _ => hJ.mark trivial,
      hJ.exchange hpasses he ⟨form, field⟩⟩
  exact hreport.bind fun _ =>
    Keeps.bind (Leads.silent fun _ _ => hJ.publish name _) fun _ => Keeps.pure _

/-- A run keeps it if its inside does, whether it returns or raises. -/
theorem around {name : String} {form : Value} {r : Traced Report} (hr : Keeps J r) :
    Keeps J (around name form r) :=
  Leads.around hr (fun _ _ => hJ.mark trivial) fun _ _ _ => hJ.mark trivial

/-- By induction on the depth to which runs may be nested. -/
theorem course (depth : Nat) : ∀ name form, Keeps J (course depth name form) := by
  induction depth with
  | zero => exact fun _ _ => Leads.silent fun _ _ h => h
  | succ depth ih =>
    exact hJ.courseBy fun other form => (hJ.around (ih other form)).bind fun _ => Keeps.pure _

/-- A run keeps every invariant that its moves and requests keep, however deeply other runs are
nested in it and in whatever way it ends. -/
theorem validate (depth : Nat) (name : String) (form : Value) :
    Keeps J (validate depth name form) :=
  hJ.around (hJ.course depth name form)

end Sustained

/-- An invariant that survives every single thing that happens in a run. -/
structure Closed (J : List Scene → World → Prop) : Prop extends Quiet J where
  write : ∀ {h w} (r : Ref) (a : Accessor), J h w →
    J h { w with accessors := w.accessors.put r a }
  declare : ∀ {h w} (name : String) (rules : RuleSet), J h w →
    J h (w.updateEngine name fun e => { e with rules := rules })
  move : ∀ {h w} (name : String) (cursor : Option Context), J h w →
    J h (Run.setCursor name cursor w)
  publish : ∀ {h w} (name : String) (report : Report), J h w → J h (Run.publish name report w)
  mark : ∀ {h w} {event : Event}, event.InRun → J h w → J (h ++ [⟨event, w⟩]) w

namespace Closed

variable {J : List Scene → World → Prop} (hJ : Closed J)

include hJ

/-- A closed invariant is steady, whoever calls. -/
theorem steady (caller : Option Caller) : Steady J caller where
  log := hJ.log
  note := hJ.note
  write := hJ.write
  declare := hJ.declare
  reached _ := hJ.mark trivial
  called _ _ _ := hJ.mark trivial
  asked _ := hJ.mark trivial
  answered _ _ := hJ.mark trivial

theorem sustained : Sustained J where
  log := hJ.log
  note := hJ.note
  move := hJ.move
  publish := hJ.publish
  mark {_ _ event} hown := hJ.mark (by cases event <;> trivial)
  exchange hpasses _ _ _ _ := ((hJ.steady _).bears
    ((hJ.steady none).respond (fun _ => Run.reads_readField _ _ _) hpasses)).exchange

theorem course (depth : Nat) (name : String) (form : Value) : Keeps J (course depth name form) :=
  hJ.sustained.course depth name form

theorem validate (depth : Nat) (name : String) (form : Value) :
    Keeps J (validate depth name form) :=
  hJ.sustained.validate depth name form

end Closed

end Traced

end FormRules
