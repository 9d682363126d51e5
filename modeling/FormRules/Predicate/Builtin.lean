import FormRules.Catalog
import FormRules.Predicate.Dates
import FormRules.Predicate.Formats
import FormRules.Predicate.Membership

/-!
# The built-in predicates

Empty values pass every built-in predicate except `required`, `requiredIf`, `requiredIfNot` and
`accepted`, so a field that may be left out is only checked once it has a value. A parameter that is
missing or cannot be used fails the rule and is reported.
-/

namespace FormRules.Catalog

open Predicate

/-- A built-in predicate without context. -/
def plain (name : String) (f : Value → List Value → Check Bool) (description : String) :
    Definition :=
  ⟨name, ofDecision f, false, description⟩

/-- A built-in predicate that looks at other fields. -/
def crossField (name : String) (f : Value → List Value → Option Context → Check Bool)
    (description : String) : Definition :=
  ⟨name, ofContextDecision f, true, description⟩

/-- The definitions of the built-in predicates. -/
def builtinDefinitions : List Definition :=
  [ plain "required" required "Field must have a non-empty value.",
    crossField "requiredIf" requiredIf "Field is required when another field equals a given value.",
    crossField "requiredIfNot" requiredIfNot
      "Field is required unless another field equals a given value.",
    plain "accepted" accepted "Field must be a checked checkbox or a yes/on/1/true value.",
    plain "alpha" alpha "Letters only.",
    plain "alphaDash" alphaDash "Letters, dashes and underscores.",
    plain "alphaNum" alphaNum "Letters and digits.",
    plain "alphaDashNum" alphaDashNum "Letters, digits, dashes and underscores.",
    plain "number" number "Field must be numeric.",
    plain "min" minimum "Numeric value must be at least the limit.",
    plain "max" maximum "Numeric value must be at most the limit.",
    plain "between" between "Numeric value must lie within an inclusive range.",
    plain "digitsLength" digitsLength "Digits only, with an exact length.",
    plain "digitsLengthBetween" digitsLengthBetween
      "Digits only, with a length inside an inclusive range.",
    plain "minLength" minLength "Value must be at least this many characters long.",
    plain "maxLength" maxLength "Value must be at most this many characters long.",
    plain "betweenLength" betweenLength "Value length must lie within an inclusive range.",
    plain "contains" contains "Value must be one of the listed options.",
    plain "notIn" notIn "Value must not be one of the listed options.",
    plain "dateBefore" dateBefore "Date must fall before the given ISO date.",
    plain "dateAfter" dateAfter "Date must fall after the given ISO date.",
    crossField "same" same "Value must equal another field's value.",
    crossField "different" different "Value must differ from another field's value.",
    plain "email" email "Valid email address.",
    plain "url" url "Valid http(s) URL.",
    plain "ipvFour" ipvFour "Valid IPv4 address." ]

/-- The catalog of the built-in predicates. -/
def builtins : Catalog := ofList builtinDefinitions

end FormRules.Catalog
