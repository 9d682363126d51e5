import FormRules.Accessor
import FormRules.Catalog
import FormRules.Message.Composer
import FormRules.Rule.Declaration

/-!
# Worlds

Accessors, catalogs and composers are shared: several engines may hold the same one, and what one
does to it the others see. A `World` keeps all of them on shelves, where an object is found by its
`Ref` for as long as anything refers to it, while names may pass from one object to another. A
reference is a name together with the number of earlier objects made under it, so it depends only on
what was done under that name.

`Run` is the type of what happens in a world: from a world, a result or a fault, and the world after
it.
-/

namespace FormRules

/-- A reference to an object on a shelf. -/
structure Ref where
  /-- the name under which the object was made -/
  name : String
  /-- the number of objects made under the name before -/
  serial : Nat
deriving DecidableEq, Repr, Inhabited

/-- Objects by reference, and the names that are in use. -/
structure Shelf (α : Type) where
  objects : Table Ref α
  names : Table String Ref

namespace Shelf

variable {α : Type}

/-- The shelf without objects. -/
def empty : Shelf α := ⟨∅, ∅⟩

instance : EmptyCollection (Shelf α) := ⟨empty⟩

/-- The reference of a new object under a name. -/
def fresh (s : Shelf α) (name : String) : Ref :=
  ⟨name, (s.objects.entries.filter fun e => e.1.name == name).length⟩

/-- The object of a reference. -/
def get? (s : Shelf α) (r : Ref) : Option α := s.objects.get? r

/-- The reference that a name stands for. -/
def ref? (s : Shelf α) (name : String) : Option Ref := s.names.get? name

/-- The shelf with the object of a reference put in place. -/
def put (s : Shelf α) (r : Ref) (a : α) : Shelf α := { s with objects := s.objects.set r a }

/-- The shelf with a name given to a reference. -/
def bind (s : Shelf α) (name : String) (r : Ref) : Shelf α :=
  { s with names := s.names.set name r }

/-- The shelf with a new object under a name. -/
def add (s : Shelf α) (name : String) (a : α) : Shelf α :=
  (s.put (s.fresh name) a).bind name (s.fresh name)

/-- The reference of a name, which has to be in use. -/
def find (s : Shelf α) (name : String) : Attempt Ref :=
  match s.ref? name with
  | some r => .ok r
  | none => .error (.unknownName name)

end Shelf

/-- An engine: its declarations, its configuration, the objects it works with, where it is in a run,
and the report of its last completed run. -/
structure Engine where
  config : Config
  rules : RuleSet
  accessor : Ref
  catalog : Ref
  composer : Ref
  cursor : Option Context := none
  lastReport : Option Report := none

namespace Engine

/-- The fields that the engine has declared for a form. -/
def fieldsOf (e : Engine) (form : Value) : Attempt FieldRules := do
  return (e.rules.get? (← form.asKey)).getD ∅

/-- The errors of the last completed run. -/
def errors (e : Engine) : Errors :=
  match e.lastReport with
  | some report => report.errors
  | none => ∅

/-- The form that the engine is working on. -/
def currentForm (e : Engine) : Value :=
  match e.cursor with
  | some c => c.form
  | none => .null

/-- The field that the engine is working on. -/
def currentField (e : Engine) : Value :=
  match e.cursor with
  | some c => c.field
  | none => .null

/-- What can be seen of the engine. -/
def sighting (e : Engine) : Sighting := ⟨e.errors, e.currentForm, e.currentField⟩

end Engine

/-- All objects, the journal, and the notes that predicates left. -/
structure World where
  accessors : Shelf Accessor
  catalogs : Shelf Catalog
  composers : Shelf Composer
  engines : Table String Engine
  journal : List Record
  notes : List Value

namespace World

/-- The world without objects. -/
def empty : World := ⟨∅, ∅, ∅, ∅, [], []⟩

instance : EmptyCollection World := ⟨empty⟩

/-- The world with an engine changed. -/
def updateEngine (w : World) (name : String) (f : Engine → Engine) : World :=
  match w.engines.get? name with
  | some e => { w with engines := w.engines.set name (f e) }
  | none => w

end World

/-- What happens in a world. -/
def Run (α : Type) : Type := World → Attempt α × World

namespace Run

variable {α β : Type}

/-- Nothing happens. -/
protected def pure (a : α) : Run α := fun w => (.ok a, w)

/-- One thing after another; a fault ends both, and what happened before it stays. -/
protected def bind (r : Run α) (f : α → Run β) : Run β := fun w =>
  match r w with
  | (.ok a, w) => f a w
  | (.error fault, w) => (.error fault, w)

instance : Monad Run where
  pure := Run.pure
  bind := Run.bind

/-- End with a fault. -/
def fail (fault : Fault) : Run α := fun w => (.error fault, w)

instance : MonadLift (Except Fault) Run := ⟨fun r w => (r, w)⟩

/-- The world as it is. -/
def world : Run World := fun w => (.ok w, w)

/-- Change the world. -/
def modify (f : World → World) : Run Unit := fun w => (.ok (), f w)

/-- Keep a fault as a result. -/
def attempt (r : Run α) : Run (Attempt α) := fun w =>
  let (a, w) := r w
  (.ok a, w)

/-- Change the world afterwards, also after a fault. -/
def andThen (r : Run α) (f : World → World) : Run α := fun w =>
  let (a, w) := r w
  (a, f w)

/-- Write records to the journal. -/
def logAll (rs : List Record) : Run Unit :=
  modify fun w => { w with journal := w.journal ++ rs }

/-- Write a record to the journal. -/
def log (r : Record) : Run Unit := logAll [r]

/-- Leave a note. -/
def note (entry : Value) : Run Unit := modify fun w => { w with notes := w.notes ++ [entry] }

/-- What a name or reference stands for, which has to be there. -/
def known (name : String) (a : Option α) : Attempt α :=
  match a with
  | some a => .ok a
  | none => .error (.unknownName name)

/-- The engine with a name. -/
def engine (name : String) : Run Engine := do
  return ← known name ((← world).engines.get? name)

/-- The catalog of a reference. -/
def catalog (r : Ref) : Run Catalog := do return ← known r.name ((← world).catalogs.get? r)

/-- The composer of a reference. -/
def composer (r : Ref) : Run Composer := do return ← known r.name ((← world).composers.get? r)

/-- The accessor of a reference. -/
def accessor (r : Ref) : Run Accessor := do return ← known r.name ((← world).accessors.get? r)

/-- The current value of a field. -/
def readField (r : Ref) (form field : Value) : Run Value := do
  return ← (← accessor r).get form field

/-- Write a field. -/
def writeField (r : Ref) (form field v : Value) : Run Unit := do
  let (a, done) := (← accessor r).put form field v
  modify fun w => { w with accessors := w.accessors.put r a }
  done

/-- Replace the declarations of an engine. -/
def declare (name : String) (rules : Value) : Run Unit := do
  let e ← engine name
  let rules ← e.config.normalize rules
  modify fun w => w.updateEngine name fun e => { e with rules := rules }

/-! ## Laws -/

theorem bind_apply (r : Run α) (f : α → Run β) (w : World) :
    (r >>= f) w = match r w with
      | (.ok a, w) => f a w
      | (.error fault, w) => (.error fault, w) := rfl

@[simp] theorem pure_apply (a : α) (w : World) : (pure a : Run α) w = (.ok a, w) := rfl

@[simp] theorem fail_apply (fault : Fault) (w : World) :
    (fail fault : Run α) w = (.error fault, w) := rfl

@[simp] theorem modify_apply (f : World → World) (w : World) : modify f w = (.ok (), f w) := rfl

end Run

end FormRules
