import FormRules.Value.Text

/-!
# Reports

The result of a run: the messages of the failed rules, by field.
-/

namespace FormRules

/-- The messages of failed rules by field, fields and messages in the order in which they failed. -/
abbrev Errors : Type := Table Value (List String)

namespace Errors

/-- One more message for a field. -/
def add (errors : Errors) (field : Value) (message : String) : Errors :=
  errors.set field ((errors.get? field).getD [] ++ [message])

/-- The errors as a mapping. -/
def toValue (errors : Errors) : Value :=
  .map (errors.entries.map fun e => (e.1, .list (e.2.map .text)))

end Errors

/-- The result of a completed run on a form. -/
structure Report where
  form : Value
  errors : Errors
deriving Inhabited

namespace Report

/-- No rule failed. -/
def valid (r : Report) : Bool := r.errors.entries.isEmpty

/-- The messages of one field. -/
def messagesFor (r : Report) (field : Value) : Attempt (List String) := do
  return (r.errors.get? (← field.asKey)).getD []

end Report

/-- What can be seen of an engine from outside: the errors of its last completed run, and the form
and field it is working on, if any. -/
structure Sighting where
  errors : Errors
  form : Value
  field : Value
deriving Inhabited

end FormRules
