import FormRules.World

/-!
# Runs

A run on a form goes through the fields that the form had when the run began, in the order of their
declaration. For each field it fetches the value, and then runs the field's rules: it reads the
rule, looks its predicate up, calls it, and composes a message if it fails. The first fault ends the
run without a report. A run that completes publishes its report.

A predicate may start another run, on the same engine too. The cursor of an engine belongs to its
innermost run, and is put back when that run ends in whatever way. Runs are nested to a limited
depth.
-/

namespace FormRules

/-- Let a check happen: its records and notes are kept, and its requests answered. -/
def Check.run {α : Type} (respond : (q : Request) → Run q.Reply) : Check α → Run α
  | .result r => fun w => (r, w)
  | .log r next => do
    Run.log r
    next.run respond
  | .note entry next => do
    Run.note entry
    next.run respond
  | .ask q next => fun w =>
    let (reply, w) := respond q w
    (next reply).run respond w

namespace Run

/-- The answers to the requests of a predicate. Siblings are read through `sibling`, and `passes`
runs other forms. -/
def respond (sibling : Value → Run Value) (passes : String → Value → Run Bool) :
    (q : Request) → Run q.Reply
  | .sibling field => sibling field
  | .passes name form => passes name form
  | .observe name => do return (← engine name).sighting
  | .assign name form field v => do writeField (← engine name).accessor form field v
  | .declare name rules => declare name rules

/-- The key under which the errors of a field are kept: a false field counts as the empty name. -/
def errorKey (field : Value) : Value := if field.truth then field else .text ""

/-- A rule text read, and the definition that it names. -/
def resolve (e : Engine) (text : String) : Run (PreparedRule × Definition) := do
  let prepared ← e.config.prepare text
  let definition ← (← catalog e.catalog).lookUp prepared.method
  return (prepared, definition)

/-- The errors with the message of a rule that failed. -/
def reject (e : Engine) (here : Context) (text : String) (prepared : PreparedRule)
    (errors : Errors) : Run Errors := do
  let (records, message) :=
    (← composer e.composer).compose prepared.method prepared.parameters here.form here.field
  logAll records
  let message ← message
  log (.ruleFailed text here.form here.field)
  return errors.add (errorKey here.field) message

/-- One rule of a field: the errors with the rule's message if it fails. -/
def rule (respond : (q : Request) → Run q.Reply) (e : Engine) (here : Context) (value : Value)
    (text : String) (errors : Errors) : Run Errors := do
  let (prepared, definition) ← resolve e text
  if ← (definition.call value prepared.parameters (some here)).run respond then
    return errors
  else
    reject e here text prepared errors

/-- The rules of a field in order. -/
def rules (respond : (q : Request) → Run q.Reply) (e : Engine) (here : Context) (value : Value) :
    List String → Errors → Run Errors
  | [], errors => return errors
  | text :: texts, errors => do
    let errors ← rule respond e here value text errors
    rules respond e here value texts errors

/-- Move the cursor of an engine. -/
def setCursor (name : String) (cursor : Option Context) (w : World) : World :=
  w.updateEngine name fun e => { e with cursor := cursor }

/-- The fields of a form in order; each value is fetched when its field is reached. -/
def fields (respond : (q : Request) → Run q.Reply) (name : String) (e : Engine) (form : Value) :
    List (Value × List String) → Errors → Run Errors
  | [], errors => return errors
  | (field, texts) :: rest, errors => do
    modify (setCursor name (some ⟨form, field⟩))
    let value ← readField e.accessor form field
    let errors ← rules respond e ⟨form, field⟩ value texts errors
    fields respond name e form rest errors

/-- The errors of the fields that an engine has declared for a form. Predicates have other forms run
by `passes`. The cursor is put back afterwards, also after a fault. -/
def collect (passes : String → Value → Run Bool) (name : String) (e : Engine) (form : Value)
    (declared : FieldRules) : Run Errors :=
  andThen
    (do
      modify (setCursor name (some ⟨form, .null⟩))
      fields (respond (readField e.accessor form) passes) name e form declared.entries ∅)
    (setCursor name e.cursor)

/-- The report on a form, before anyone can see it. -/
def reportBy (passes : String → Value → Run Bool) (name : String) (form : Value) :
    Run Report := do
  let e ← engine name
  let declared ← e.fieldsOf form
  log (.started form declared.size)
  let errors ← collect passes name e form declared
  log (.finished form errors.size)
  return ⟨form, errors⟩

/-- Make a report the last one of its engine. -/
def publish (name : String) (report : Report) (w : World) : World :=
  w.updateEngine name fun e => { e with lastReport := some report }

/-- A run of an engine on a form, which publishes its report when it is complete. -/
def validateBy (passes : String → Value → Run Bool) (name : String) (form : Value) :
    Run Report := do
  let report ← reportBy passes name form
  modify (publish name report)
  return report

/-- A run of an engine on a form; the first argument is the number of runs that may be nested. -/
def validate : Nat → String → Value → Run Report
  | 0, _, _ => fail .tooDeep
  | depth + 1, name, form =>
    validateBy (fun other form => do return (← validate depth other form).valid) name form

/-- The form passes. -/
def passes (depth : Nat) (name : String) (form : Value) : Run Bool := do
  return (← validate depth name form).valid

end Run

/-- The number of runs that may be nested in one another. -/
def nestingLimit : Nat := 150

end FormRules
