import FormRules.Proofs.Run.Laws
import FormRules.Session.Perform

/-!
# Traces of runs

A run has an outcome and leaves a world behind; what happened in between is not kept. A `Traced` run
also tells the scenes it passed through: when a run begins, when it reaches a field and when it
calls a predicate, when the predicate asks for something and when it goes on with the reply, and
when the run has ended, each with the world at that moment. Nobody can look at an engine at any
other moment.

Tracing changes nothing: without its scenes, a traced run is the run itself (`erase_validate`), and
a traced step is the step itself (`Step.erase_traced`).
-/

namespace FormRules

/-- Who calls a predicate: the engine whose run it is, for a field of a form. -/
structure Caller where
  engine : String
  here : Context

/-- What happens in a scene. -/
inductive Event where
  /-- a run of an engine on a form begins -/
  | begun (engine : String) (form : Value)
  /-- a run reaches a field, whose value it fetches next -/
  | reached (caller : Caller)
  /-- a run calls the predicate of a rule with the value of the field -/
  | called (caller : Caller) (text : String) (value : Value)
  /-- a predicate asks for something; one that is tried out has no caller -/
  | asked (caller : Option Caller) (q : Request)
  /-- the request is dealt with, in whatever way, and the predicate goes on with the reply -/
  | answered (caller : Option Caller) (q : Request) (reply : Attempt q.Reply)
  /-- a run has ended, with a report or with a fault -/
  | ended (engine : String) (form : Value) (result : Attempt Report)
  /-- an engine has been made -/
  | made (engine : String)
  /-- a step of a session is over -/
  | stepped

/-- A scene: what happens, and the world as it then is. -/
structure Scene where
  event : Event
  world : World

/-- A run that tells the scenes it passed through, in order. -/
def Traced (α : Type) : Type := World → (Attempt α × World) × List Scene

namespace Traced

variable {α β : Type}

/-- Nothing happens. -/
protected def pure (a : α) : Traced α := fun w => ((.ok a, w), [])

/-- One thing after another; a fault ends both. -/
protected def bind (r : Traced α) (f : α → Traced β) : Traced β := fun w =>
  match r w with
  | ((.ok a, w), before) => ((f a w).1, before ++ (f a w).2)
  | ((.error fault, w), before) => ((.error fault, w), before)

instance : Monad Traced where
  pure := Traced.pure
  bind := Traced.bind

/-- A run that passes through no scene. -/
def silent (r : Run α) : Traced α := fun w => (r w, [])

instance : MonadLift Run Traced := ⟨silent⟩

/-- A scene, and nothing else. -/
def mark (event : Event) : Traced Unit := fun w => ((.ok (), w), [⟨event, w⟩])

/-- Keep a fault as a result. -/
def attempt (r : Traced α) : Traced (Attempt α) := fun w =>
  ((.ok (r w).1.1, (r w).1.2), (r w).2)

/-- Change the world afterwards, also after a fault. -/
def andThen (r : Traced α) (f : World → World) : Traced α := fun w =>
  (((r w).1.1, f (r w).1.2), (r w).2)

/-- The run without its scenes. -/
def erase (r : Traced α) : Run α := fun w => (r w).1

/-! ## Forgetting the scenes -/

@[simp] theorem erase_pure (a : α) : (pure a : Traced α).erase = pure a := rfl

/-- Without scenes, two traced runs one after the other are the two runs. -/
@[simp] theorem erase_bind (r : Traced α) (f : α → Traced β) :
    (r >>= f).erase = r.erase >>= fun a => (f a).erase := by
  funext w
  change (Traced.bind r f w).1 = Run.bind r.erase (fun a => (f a).erase) w
  unfold Traced.bind Run.bind erase
  rcases r w with ⟨⟨_ | _, _⟩, _⟩ <;> rfl

/-- A run without scenes is itself. -/
@[simp] theorem erase_silent (r : Run α) : (silent r).erase = r := rfl

@[simp] theorem erase_lift (r : Run α) : (liftM r : Traced α).erase = r := rfl

@[simp] theorem erase_lift_attempt (a : Attempt α) : (liftM a : Traced α).erase = liftM a := rfl

/-- A scene changes nothing. -/
@[simp] theorem erase_mark (event : Event) : (mark event).erase = pure () := rfl

/-- Catching the fault of a traced run is catching that of the run. -/
@[simp] theorem erase_attempt (r : Traced α) : r.attempt.erase = r.erase.attempt := rfl

/-- A change afterwards is the same change. -/
@[simp] theorem erase_andThen (r : Traced α) (f : World → World) :
    (r.andThen f).erase = r.erase.andThen f := rfl

/-- A choice of traced runs is the choice of the runs. -/
@[simp] theorem erase_ite (b : Bool) (r s : Traced α) :
    (if b then r else s).erase = if b then r.erase else s.erase := by
  cases b <;> rfl

end Traced

/-! ## Runs with their scenes -/

/-- A request and its reply, with the scenes before and after. -/
def Traced.exchange (caller : Option Caller) (respond : (q : Request) → Traced q.Reply)
    (q : Request) :
    Traced (Attempt q.Reply) := do
  mark (.asked caller q)
  let reply ← (respond q).attempt
  mark (.answered caller q reply)
  return reply

/-- Let a check happen, with its scenes. -/
def Check.traced {α : Type} (caller : Option Caller) (respond : (q : Request) → Traced q.Reply) :
    Check α → Traced α
  | .result r => Traced.silent fun w => (r, w)
  | .log r next => do
    Run.log r
    next.traced caller respond
  | .note entry next => do
    Run.note entry
    next.traced caller respond
  | .ask q next => do
    let reply ← Traced.exchange caller respond q
    (next reply).traced caller respond

namespace Traced

/-- The answers to the requests of a predicate. -/
def respond (sibling : Value → Run Value) (passes : String → Value → Traced Bool) :
    (q : Request) → Traced q.Reply
  | .passes name form => passes name form
  | q => silent (Run.respond sibling (fun name form => (passes name form).erase) q)

/-- One rule of a field. -/
def rule (respond : (q : Request) → Traced q.Reply) (name : String) (e : Engine) (here : Context)
    (value : Value) (text : String) (errors : Errors) : Traced Errors := do
  let (prepared, definition) ← Run.resolve e text
  mark (.called ⟨name, here⟩ text value)
  let call := definition.call value prepared.parameters (some here)
  if ← call.traced (some ⟨name, here⟩) respond then
    return errors
  else
    Run.reject e here text prepared errors

/-- The rules of a field in order. -/
def rules (respond : (q : Request) → Traced q.Reply) (name : String) (e : Engine) (here : Context)
    (value : Value) : List String → Errors → Traced Errors
  | [], errors => return errors
  | text :: texts, errors => do
    let errors ← rule respond name e here value text errors
    rules respond name e here value texts errors

/-- The fields of a form in order. -/
def fields (respond : (q : Request) → Traced q.Reply) (name : String) (e : Engine) (form : Value) :
    List (Value × List String) → Errors → Traced Errors
  | [], errors => return errors
  | (field, texts) :: rest, errors => do
    Run.modify (Run.setCursor name (some ⟨form, field⟩))
    mark (.reached ⟨name, ⟨form, field⟩⟩)
    let value ← Run.readField e.accessor form field
    let errors ← rules respond name e ⟨form, field⟩ value texts errors
    fields respond name e form rest errors

/-- A run between the scenes of its begin and its end. -/
def around (name : String) (form : Value) (r : Traced Report) : Traced Report := fun w =>
  ((r w).1, ⟨.begun name form, w⟩ :: (r w).2 ++ [⟨.ended name form (r w).1.1, (r w).1.2⟩])

/-- The errors of the fields that an engine has declared for a form. -/
def collect (passes : String → Value → Traced Bool) (name : String) (e : Engine) (form : Value)
    (declared : FieldRules) : Traced Errors :=
  andThen
    (do
      Run.modify (Run.setCursor name (some ⟨form, .null⟩))
      fields (respond (Run.readField e.accessor form) passes) name e form declared.entries ∅)
    (Run.setCursor name e.cursor)

/-- The inside of a run of an engine on a form, up to its report. -/
def reportBy (passes : String → Value → Traced Bool) (name : String) (form : Value) :
    Traced Report := do
  let e ← Run.engine name
  let declared ← e.fieldsOf form
  Run.log (.started form declared.size)
  let errors ← collect passes name e form declared
  Run.log (.finished form errors.size)
  return ⟨form, errors⟩

/-- The inside of a run, whose predicates have other forms run by `passes`. -/
def courseBy (passes : String → Value → Traced Bool) (name : String) (form : Value) :
    Traced Report := do
  let report ← reportBy passes name form
  Run.modify (Run.publish name report)
  return report

/-- The inside of a run. -/
def course : Nat → String → Value → Traced Report
  | 0, _, _ => silent (Run.fail .tooDeep)
  | depth + 1, name, form =>
    courseBy (fun other form => do return (← around other form (course depth other form)).valid)
      name form

/-- A run with its scenes. -/
def validate (depth : Nat) (name : String) (form : Value) : Traced Report :=
  around name form (course depth name form)

/-- The form passes. -/
def passes (depth : Nat) (name : String) (form : Value) : Traced Bool := do
  return (← validate depth name form).valid

/-- A definition called outside of any engine. -/
def tryOut (d : Definition) (trial : Trial) : Traced Bool := do
  match trial.scope with
  | some (here, values) =>
    let accessor ← Accessor.ofValue values
    let sibling (field : Value) : Run Value := do return ← accessor.get here.form field
    (d.call trial.value trial.parameters (some here)).traced none
      (respond sibling (passes nestingLimit))
  | none =>
    let sibling (_ : Value) : Run Value := Run.fail .noContext
    (d.call trial.value trial.parameters none).traced none (respond sibling (passes nestingLimit))

/-- A request and its reply, all at once. -/
theorem exchange_apply (caller : Option Caller) (respond : (q : Request) → Traced q.Reply)
    (q : Request) (w : World) : exchange caller respond q w =
      ((.ok (respond q w).1.1, (respond q w).1.2), ⟨.asked caller q, w⟩ ::
        ((respond q w).2 ++ [⟨.answered caller q (respond q w).1.1, (respond q w).1.2⟩])) :=
  rfl

/-! ## Tracing changes nothing -/

theorem erase_respond (sibling : Value → Run Value) (passes : String → Value → Traced Bool)
    (q : Request) : (respond sibling passes q).erase =
      Run.respond sibling (fun name form => (passes name form).erase) q := by
  cases q <;> rfl

theorem erase_check (caller : Option Caller) (respond : (q : Request) → Traced q.Reply)
    (c : Check α) : (c.traced caller respond).erase = c.run fun q => (respond q).erase := by
  induction c with
  | result r => rfl
  | log r next ih => simp only [Check.traced, Check.run, erase_bind, erase_lift, ih]
  | note entry next ih => simp only [Check.traced, Check.run, erase_bind, erase_lift, ih]
  | ask q next ih =>
    funext w
    simp only [Check.traced, exchange, Check.run, erase_bind, erase_mark, erase_attempt, erase_pure,
      ih, bind_assoc, pure_bind]
    rfl

theorem erase_rule (respond : (q : Request) → Traced q.Reply) (name : String) (e : Engine)
    (here : Context) (value : Value) (text : String) (errors : Errors) :
    (rule respond name e here value text errors).erase =
      Run.rule (fun q => (respond q).erase) e here value text errors := by
  simp only [rule, Run.rule, erase_bind, erase_lift, erase_mark, erase_check, erase_ite, erase_pure,
    pure_bind]

theorem erase_rules (respond : (q : Request) → Traced q.Reply) (name : String) (e : Engine)
    (here : Context) (value : Value) (texts : List String) (errors : Errors) :
    (rules respond name e here value texts errors).erase =
      Run.rules (fun q => (respond q).erase) e here value texts errors := by
  induction texts generalizing errors with
  | nil => rfl
  | cons text texts ih => simp only [rules, Run.rules, erase_bind, erase_rule, ih]

theorem erase_fields (respond : (q : Request) → Traced q.Reply) (name : String) (e : Engine)
    (form : Value) (declared : List (Value × List String)) (errors : Errors) :
    (fields respond name e form declared errors).erase =
      Run.fields (fun q => (respond q).erase) name e form declared errors := by
  induction declared generalizing errors with
  | nil => rfl
  | cons entry rest ih =>
    simp only [fields, Run.fields, erase_bind, erase_lift, erase_mark, erase_rules, ih, pure_bind]

@[simp] theorem erase_around (name : String) (form : Value) (r : Traced Report) :
    (around name form r).erase = r.erase := rfl

theorem erase_collect (passes : String → Value → Traced Bool) (name : String) (e : Engine)
    (form : Value) (declared : FieldRules) :
    (collect passes name e form declared).erase =
      Run.collect (fun other form => (passes other form).erase) name e form declared := by
  simp only [collect, Run.collect, erase_bind, erase_lift, erase_andThen, erase_fields,
    erase_respond]

theorem erase_reportBy (passes : String → Value → Traced Bool) (name : String) (form : Value) :
    (reportBy passes name form).erase =
      Run.reportBy (fun other form => (passes other form).erase) name form := by
  simp only [reportBy, Run.reportBy, erase_bind, erase_lift, erase_lift_attempt, erase_collect,
    erase_pure]

/-- The inside of a traced run is the run, given how nested forms are run. -/
theorem erase_courseBy (passes : String → Value → Traced Bool) (name : String) (form : Value) :
    (courseBy passes name form).erase =
      Run.validateBy (fun other form => (passes other form).erase) name form := by
  simp only [courseBy, Run.validateBy, erase_bind, erase_lift, erase_reportBy, erase_pure]

/-- The inside of a traced run is the run, at every depth of nesting. -/
theorem erase_course (depth : Nat) (name : String) (form : Value) :
    (course depth name form).erase = Run.validate depth name form := by
  induction depth generalizing name form with
  | zero => rfl
  | succ depth ih =>
    simp only [course, Run.validate, erase_courseBy, erase_bind, erase_around, erase_pure, ih]

/-- **Tracing changes nothing**: without its scenes, a traced run is the run itself. -/
theorem erase_validate (depth : Nat) (name : String) (form : Value) :
    (validate depth name form).erase = Run.validate depth name form :=
  erase_course depth name form

/-- Traced or not, passing is having a valid report. -/
theorem erase_passes (depth : Nat) (name : String) (form : Value) :
    (passes depth name form).erase = Run.passes depth name form := by
  simp only [passes, Run.passes, erase_bind, erase_validate, erase_pure]

/-- Traced or not, a definition that is tried out comes to the same. -/
theorem erase_tryOut (d : Definition) (trial : Trial) :
    (tryOut d trial).erase = Run.tryOut d trial := by
  unfold tryOut Run.tryOut
  rcases trial.scope with _ | ⟨here, values⟩ <;>
    simp only [erase_bind, erase_lift_attempt, erase_check, erase_respond, erase_passes]

end Traced

end FormRules
