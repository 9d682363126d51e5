import FormRules.Value.Text

/-!
# The journal

What the library reports while it works: the course of a run at the level `debug`, and what a user
should look into at the level `warning`.
-/

namespace FormRules

/-- How much a record matters. -/
inductive Level where
  | debug
  | warning
deriving DecidableEq, Repr

/-- One entry of the journal. -/
inductive Record where
  /-- a run begins on a form with so many declared fields -/
  | started (form : Value) (fields : Nat)
  /-- a run is complete, with errors in so many fields -/
  | finished (form : Value) (failing : Nat)
  /-- a rule failed -/
  | ruleFailed (rule : String) (form field : Value)
  /-- a predicate cannot use its parameter -/
  | malformed (validation : String) (parameter : Value)
  /-- a failed rule has no message template -/
  | noTemplate (method : String)
  /-- a rule file was read -/
  | loaded (forms : Nat) (file : String)
  /-- a rule file breaks the schema -/
  | schemaIssues (file : String) (issues : Nat)
deriving Repr

namespace Record

/-- The level of a record. -/
def level : Record → Level
  | malformed _ _ | noTemplate _ => .warning
  | _ => .debug

/-- The text of a record. -/
def text : Record → String
  | started form fields =>
    "Validating form '" ++ form.shown ++ "' (" ++ toString fields ++ " fields)"
  | finished form failing =>
    "Form '" ++ form.shown ++ "' validated: " ++ toString failing ++ " field(s) with errors"
  | ruleFailed rule form field =>
    "Rule '" ++ rule ++ "' failed for " ++ form.shown ++ "." ++ field.shown
  | malformed validation parameter =>
    "Validation '" ++ validation ++ "' has a malformed parameter: " ++ parameter.shownLiteral
  | noTemplate method => "No message template for validation '" ++ method ++ "'"
  | loaded forms file => "Loaded " ++ toString forms ++ " form(s) from " ++ file
  | schemaIssues file issues =>
    "Rule file " ++ file ++ " has " ++ toString issues ++ " schema issue(s)"

/-- The record is a warning. -/
def isWarning (r : Record) : Bool := r.level == .warning

end Record

end FormRules
