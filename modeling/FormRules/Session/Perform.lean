import FormRules.RuleFile.Standard
import FormRules.Session.Step

/-!
# Sessions

`Step.perform` does one step in a world. A step that fails leaves the session running: its outcome
holds the fault, and the next step starts from the world as it was left. The outcome of a step also
holds the journal and the notes of this step alone, and after a run what can be seen of the engine.
-/

namespace FormRules

namespace Run

/-- Call a definition outside of any engine. Its context reads the given values. -/
def tryOut (d : Definition) (trial : Trial) : Run Bool := do
  match trial.scope with
  | some (here, values) =>
    let accessor ← Accessor.ofValue values
    let sibling (field : Value) : Run Value := do return ← accessor.get here.form field
    (d.call trial.value trial.parameters (some here)).run (respond sibling (passes nestingLimit))
  | none =>
    let sibling (_ : Value) : Run Value := fail .noContext
    (d.call trial.value trial.parameters none).run (respond sibling (passes nestingLimit))

end Run

/-- Do something with an engine. -/
def EngineStep.perform (name : String) : EngineStep → Run Answer
  | .declare declarations => do
    Run.declare name declarations
    return .done
  | .rules => do return .rules (← Run.engine name).rules
  | .fieldsFor form => do return .fields (← (← Run.engine name).fieldsOf form)
  | .validate form => do return .report (some (← Run.validate nestingLimit name form))
  | .passes form => do return .truth (← Run.passes nestingLimit name form)
  | .fails form => do return .truth !(← Run.passes nestingLimit name form)
  | .errors => do return .errors (← Run.engine name).errors
  | .errorsFor field => do
    match (← Run.engine name).lastReport with
    | some report => return .texts (← report.messagesFor field)
    | none => return .texts []
  | .lastReport => do return .report (← Run.engine name).lastReport
  | .cursor => do
    let e ← Run.engine name
    return .cursor e.currentForm e.currentField

/-- Do something with an accessor. -/
def AccessorStep.perform (r : Ref) : AccessorStep → Run Answer
  | .setValue form field v => do
    Run.writeField r form field v
    return .done
  | .getValue form field => do return .value (← Run.readField r form field)

/-- Do something with a catalog. -/
def CatalogStep.perform (r : Ref) : CatalogStep → Run Answer
  | .register d => do
    let c ← Run.catalog r
    Run.modify fun w => { w with catalogs := w.catalogs.put r (c.register d) }
    return .done
  | .share source name => do
    let d ← (← Run.catalog (← (← Run.world).catalogs.find source)).lookUp name
    let c ← Run.catalog r
    Run.modify fun w => { w with catalogs := w.catalogs.put r (c.register d) }
    return .done
  | .names => do return .texts (← Run.catalog r).names
  | .size => do return .number (← Run.catalog r).size
  | .has name => do
    let c ← Run.catalog r
    return .presence (c.isRegistered name) (c.has name) (c.resolve name).isSome
  | .describe name => do return .definition (← (← Run.catalog r).lookUp name)
  | .call name trial => do
    let d ← (← Run.catalog r).lookUp name
    return .truth (← Run.tryOut d trial)

/-- Do something with a composer. -/
def ComposerStep.perform (r : Ref) : ComposerStep → Run Answer
  | .add messages => do
    let (c, done) := (← Run.composer r).add messages
    Run.modify fun w => { w with composers := w.composers.put r c }
    done
    return .done
  | .templateFor method form => do
    return .text (← (← Run.composer r).templateFor method form)
  | .compose method parameters form field => do
    let (records, message) := (← Run.composer r).compose method parameters form field
    Run.logAll records
    return .text (some (← message))
  | .templates => do return .templates (← Run.composer r)

namespace Step

/-- The catalog that a source gives. -/
def catalogOf : CatalogSource → Run Catalog
  | .builtins => return .builtins
  | .empty => return ∅
  | .copy name => do return ← Run.catalog (← (← Run.world).catalogs.find name)

/-- Do a step. -/
def perform : Step → Run Answer
  | newCatalog name source => do
    let c ← catalogOf source
    Run.modify fun w => { w with catalogs := w.catalogs.add name c }
    return .done
  | newComposer name messages => do
    let c ← Composer.new messages
    Run.modify fun w => { w with composers := w.composers.add name c }
    return .done
  | newAccessor name values => do
    let a ← Accessor.holding values
    Run.modify fun w => { w with accessors := w.accessors.add name a }
    return .done
  | newFunction name function => do
    Run.modify fun w => { w with accessors := w.accessors.add name (.computed function.read) }
    return .done
  | newEngine name setup rules messages => do
    Run.newEngine name setup rules messages
    return .done
  | newEngineFromFile name setup file messages => do
    Run.newEngineFromFile .standard name setup file messages
    return .done
  | engine name step => step.perform name
  | accessor name step => do step.perform (← (← Run.world).accessors.find name)
  | catalog name step => do step.perform (← (← Run.world).catalogs.find name)
  | composer name step => do step.perform (← (← Run.world).composers.find name)

/-- What can be seen of the engine that a step ran. -/
def sighting? (step : Step) (w : World) : Option Sighting :=
  match step with
  | engine name s => if s.runs then (w.engines.get? name).map Engine.sighting else none
  | _ => none

end Step

/-- What a step brings about besides the change of the world. -/
structure Outcome where
  answer : Attempt Answer
  sighting : Option Sighting
  notes : List Value
  records : List Record

/-- The world with an empty journal and no notes. -/
def World.cleared (w : World) : World := { w with journal := [], notes := [] }

namespace Session

/-- Do one step. -/
def step (s : Step) (w : World) : Outcome × World :=
  let (answer, w) := s.perform w.cleared
  (⟨answer, s.sighting? w, w.notes, w.journal⟩, w)

/-- Do steps in order. -/
def run : List Step → World → List Outcome × World
  | [], w => ([], w)
  | s :: steps, w =>
    let (outcome, w) := step s w
    let (outcomes, w) := run steps w
    (outcome :: outcomes, w)

/-- The outcomes of a session that starts without objects. -/
def outcomes (steps : List Step) : List Outcome := (run steps ∅).1

end Session

/-- Make an engine of its own for one run on a form. The records are those of the run. -/
def checkForm (config : Config) (rules messages values : Value) (form : Value) :
    Attempt (Report × List Record) :=
  let name := ""
  match Run.newEngine name { config := config, values := .given values } rules messages ∅ with
  | (.error fault, _) => .error fault
  | (.ok (), w) =>
    match Run.validate nestingLimit name form w.cleared with
    | (.error fault, _) => .error fault
    | (.ok report, w) => .ok (report, w.journal)

end FormRules
