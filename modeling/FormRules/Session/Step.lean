import FormRules.Engine.Draft
import FormRules.Engine.Run
import FormRules.Predicate.Probe

/-!
# Steps

A session is a list of steps, each of which makes a named object or does something with one. A
`Step` says what is done, an `Answer` what comes of it.
-/

namespace FormRules

/-- Where a new catalog comes from. -/
inductive CatalogSource where
  /-- the built-in predicates -/
  | builtins
  /-- nothing -/
  | empty
  /-- another catalog as it is now -/
  | copy (name : String)

/-- A function that computes field values. -/
inductive FieldFunction where
  /-- gives the name of the field -/
  | echo
  /-- gives the name of the form -/
  | form
  /-- gives no value -/
  | none

/-- The value that a function computes for a form and a field. -/
def FieldFunction.read : FieldFunction → Value → Value → Attempt Value
  | .echo, _, field => .ok field
  | .form, name, _ => .ok name
  | .none, _, _ => .ok .null

/-- What is done with an engine. -/
inductive EngineStep where
  | declare (rules : Value)
  | rules
  | fieldsFor (form : Value)
  | validate (form : Value)
  | passes (form : Value)
  | fails (form : Value)
  | errors
  | errorsFor (field : Value)
  | lastReport
  | cursor

/-- The step starts a run. -/
def EngineStep.runs : EngineStep → Bool
  | validate _ | passes _ | fails _ => true
  | _ => false

/-- What is done with an accessor. -/
inductive AccessorStep where
  | setValue (form field value : Value)
  | getValue (form field : Value)

/-- A predicate called outside of any engine: what it is called with, and the form and values that
its context has, if it gets one. -/
structure Trial where
  value : Value
  parameters : List Value
  scope : Option (Context × Value)

/-- What is done with a catalog. -/
inductive CatalogStep where
  | register (d : Definition)
  | share (source name : String)
  | names
  | size
  | has (name : String)
  | describe (name : String)
  | call (name : String) (trial : Trial)

/-- What is done with a composer. -/
inductive ComposerStep where
  | add (messages : Value)
  | templateFor (method : String) (form : Value)
  | compose (method : String) (parameters : List Value) (form field : Value)
  | templates

/-- One step of a session. -/
inductive Step where
  | newCatalog (name : String) (source : CatalogSource)
  | newComposer (name : String) (messages : Value)
  | newAccessor (name : String) (values : Value)
  | newFunction (name : String) (function : FieldFunction)
  | newEngine (name : String) (setup : Setup) (rules messages : Value)
  | newEngineFromFile (name : String) (setup : Setup) (file : RuleFile) (messages : Value)
  | engine (name : String) (step : EngineStep)
  | accessor (name : String) (step : AccessorStep)
  | catalog (name : String) (step : CatalogStep)
  | composer (name : String) (step : ComposerStep)

/-- What comes of a step. -/
inductive Answer where
  | done
  | truth (b : Bool)
  | number (n : Nat)
  | value (v : Value)
  | text (s : Option String)
  | texts (ss : List String)
  | rules (r : RuleSet)
  | fields (f : FieldRules)
  | errors (e : Errors)
  | report (r : Option Report)
  | cursor (form field : Value)
  | presence (registered contained resolved : Bool)
  | definition (d : Definition)
  | templates (c : Composer)

namespace Answer

/-- A report as a value. -/
def reportValue (r : Report) : Value := .list [r.form, .bool r.valid, r.errors.toValue]

/-- Templates as a value. -/
def templatesValue (t : Templates) : Value := .ofTable (t.mapValues .text)

/-- An answer as a value. -/
def toValue : Answer → Value
  | done => .null
  | truth b => .bool b
  | number n => .int n
  | value v => v
  | text none => .null
  | text (some s) => .text s
  | texts ss => .list (ss.map .text)
  | rules r => r.toValue
  | fields f => RuleSet.fieldsValue f
  | errors e => e.toValue
  | report none => .null
  | report (some r) => reportValue r
  | cursor form field => .list [form, field]
  | presence registered contained resolved =>
    .list [.bool registered, .bool contained, .bool resolved]
  | definition d => .list [.text d.name, .bool d.takesContext, .text d.description]
  | templates c => .list [templatesValue c.general, .ofTable (c.ofForm.mapValues templatesValue)]

end Answer

end FormRules
