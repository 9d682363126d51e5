import FormRules.Calendar.Iso
import FormRules.Predicate.Numbers

/-!
# Dates

The predicates that compare the day of a value with a limit.
-/

namespace FormRules

open Text

/-- The day of a value: a day, the day of a moment, or the day that a text writes. -/
def Value.toDay : Value → Option Date
  | .moment m => some m.date
  | .date d => some d
  | .text s => Iso.dayOf? (trim s.toList)
  | _ => none

namespace Predicate

/-- The day of a non-empty value stands in the given relation to the limit. -/
def comparedDay (validation : String) (holds : Date → Date → Bool) (value : Value)
    (parameters : List Value) : Check Bool := do
  let limit ← upToOne parameters
  if value.isEmpty then return true
  match limit.toDay with
  | none => malformed validation limit
  | some boundary =>
    match value.toDay with
    | some day => return holds day boundary
    | none => return false

/-- The day falls before the limit. -/
def dateBefore : Value → List Value → Check Bool :=
  comparedDay "dateBefore" fun day boundary => day.lt boundary

/-- The day falls after the limit. -/
def dateAfter : Value → List Value → Check Bool :=
  comparedDay "dateAfter" fun day boundary => boundary.lt day

end Predicate

end FormRules
