import FormRules.Journal
import FormRules.Report

/-!
# Checks

A `Check` is a predicate at work: a program that gives its result in the end and on the way may
write to the journal, leave notes, and ask for things it cannot know by itself. What it asks for is
a `Request`; whoever runs the check answers. A check has no other access to engines, so what a
predicate can do to a run is read off the requests it makes.
-/

namespace FormRules

/-- What a predicate may ask for. -/
inductive Request where
  /-- the current value of another field of the form -/
  | sibling (field : Value)
  /-- whether a form passes on an engine -/
  | passes (engine : String) (form : Value)
  /-- the state of an engine -/
  | observe (engine : String)
  /-- to write a field of a form, where an engine has its values from -/
  | assign (engine : String) (form field value : Value)
  /-- to replace the declarations of an engine -/
  | declare (engine : String) (rules : Value)

/-- The type of the answer to a request. -/
def Request.Reply : Request → Type
  | .sibling _ => Value
  | .passes _ _ => Bool
  | .observe _ => Sighting
  | .assign .. => Unit
  | .declare _ _ => Unit

/-- A program that comes to a result of type `α`. -/
inductive Check (α : Type) where
  /-- the result, or the fault that ends the program -/
  | result (r : Attempt α)
  /-- a record for the journal -/
  | log (r : Record) (next : Check α)
  /-- a note for whoever watches the run -/
  | note (entry : Value) (next : Check α)
  /-- a request, and how to go on with its answer or with the fault it ran into -/
  | ask (q : Request) (next : Attempt q.Reply → Check α)

namespace Check

variable {α β γ : Type}

/-- Go on after a check; a fault ends both. -/
protected def bind : Check α → (α → Check β) → Check β
  | result (.ok a), f => f a
  | result (.error fault), _ => result (.error fault)
  | log r next, f => log r (next.bind f)
  | note entry next, f => note entry (next.bind f)
  | ask q next, f => ask q fun reply => (next reply).bind f

instance : Monad Check where
  pure a := result (.ok a)
  bind := Check.bind

/-- The check that ends with a fault. -/
def fail (fault : Fault) : Check α := result (.error fault)

instance : MonadLift (Except Fault) Check := ⟨result⟩

/-- Ask, and end with the fault if the request ran into one. -/
def request (q : Request) : Check q.Reply := ask q result

/-- Write a record to the journal. -/
def record (r : Record) : Check Unit := log r (pure ())

/-- Leave a note. -/
def leave (entry : Value) : Check Unit := note entry (pure ())

@[simp] theorem pure_bind (a : α) (f : α → Check β) : (pure a : Check α) >>= f = f a := rfl

theorem bind_pure (c : Check α) : c >>= pure = c := by
  show c.bind pure = c
  induction c with
  | result r => cases r <;> rfl
  | log r next ih => exact congrArg (log r) ih
  | note entry next ih => exact congrArg (note entry) ih
  | ask q next ih => exact congrArg (ask q) (funext ih)

theorem bind_assoc (c : Check α) (f : α → Check β) (g : β → Check γ) :
    c >>= f >>= g = c >>= fun a => f a >>= g := by
  show (c.bind f).bind g = c.bind fun a => (f a).bind g
  induction c with
  | result r => cases r <;> rfl
  | log r next ih => exact congrArg (log r) ih
  | note entry next ih => exact congrArg (note entry) ih
  | ask q next ih => exact congrArg (ask q) (funext ih)

end Check

/-- What a predicate is told about the run that calls it. -/
structure Context where
  form : Value
  field : Value
deriving Inhabited

/-- A predicate: it is called with the value of a field, the parameters of the rule, and the context
if it takes one. The truth value of its result decides. -/
abbrev Predicate : Type := Value → List Value → Option Context → Check Value

namespace Predicate

/-- A predicate that decides by itself. -/
def ofDecision (f : Value → List Value → Check Bool) : Predicate := fun value parameters _ => do
  return .bool (← f value parameters)

/-- A predicate that decides with the help of its context. -/
def ofContextDecision (f : Value → List Value → Option Context → Check Bool) : Predicate :=
  fun value parameters context => do return .bool (← f value parameters context)

/-- Report a parameter that cannot be used; the rule fails. -/
def malformed (validation : String) (parameter : Value) : Check Bool := do
  Check.record (.malformed validation parameter)
  return false

/-- The current value of another field, which only a context gives access to. -/
def siblingValue (context : Option Context) (field : Value) : Check Value :=
  match context with
  | some _ => Check.request (.sibling field)
  | none => Check.fail .noContext

end Predicate

end FormRules
