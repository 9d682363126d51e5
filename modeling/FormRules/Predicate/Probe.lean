import FormRules.Catalog

/-!
# Probes

Predicates for trying out engines: they answer in a fixed way, note what they see of a run, start
runs of their own, or change the engine that runs them. The engine they look at is given by its
name.
-/

namespace FormRules

/-- A kind of probe. -/
inductive Probe where
  /-- passes -/
  | always
  /-- fails -/
  | never
  /-- decides by the truth value of the field -/
  | truthy
  /-- notes what it was called with -/
  | spy
  /-- notes the form and field that the engine is working on -/
  | cursor
  /-- passes if the form named by its parameter does, and notes the state of the engine after
  that -/
  | nested
  /-- decides by the truth value of the field named by its parameter, which it notes -/
  | sibling
  /-- writes the field named by its first parameter, of the form that the engine is working on -/
  | set
  /-- withdraws the declarations of the engine, and fails -/
  | undeclare
  /-- raises a fault -/
  | boom
deriving DecidableEq, Repr

namespace Probe

/-- A parameter that has to be there. -/
def parameter (parameters : List Value) (i : Nat) : Attempt Value :=
  match parameters[i]? with
  | some p => .ok p
  | none => .error .missingParameter

/-- What a context shows in a note. -/
def contextNote : Option Context → Value
  | some c => .list [c.form, c.field]
  | none => .null

/-- The predicate of a probe that looks at the engine with the given name. -/
def predicate (engine : String) : Probe → Predicate
  | always => fun _ _ _ => return .bool true
  | never => fun _ _ _ => return .bool false
  | truthy => fun value _ _ => return value
  | spy => fun value parameters context => do
    Check.leave (.list [.text "spy", value, .list parameters, contextNote context])
    return .bool true
  | cursor => fun _ _ _ => do
    let seen : Sighting ← Check.request (.observe engine)
    Check.leave (.list [.text "cursor", seen.form, seen.field])
    return .bool true
  | nested => fun _ parameters _ => do
    let form ← parameter parameters 0
    let passed : Bool ← Check.request (.passes engine form)
    let seen : Sighting ← Check.request (.observe engine)
    Check.leave
      (.list [.text "nested", .bool passed, seen.errors.toValue, seen.form, seen.field])
    return .bool passed
  | sibling => fun _ parameters context => do
    match context with
    | none => Check.fail .noContext
    | some _ =>
      let field ← parameter parameters 0
      let found : Value ← Check.request (.sibling field)
      Check.leave (.list [.text "sibling", found])
      return .bool found.truth
  | set => fun _ parameters _ => do
    let field ← parameter parameters 0
    let value ← parameter parameters 1
    let seen : Sighting ← Check.request (.observe engine)
    let _ : Unit ← Check.request (.assign engine seen.form field value)
    return .bool true
  | undeclare => fun _ _ _ => do
    let _ : Unit ← Check.request (.declare engine .null)
    return .bool false
  | boom => fun _ _ _ => Check.fail .raised

end Probe

end FormRules
