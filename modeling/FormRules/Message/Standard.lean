import FormRules.Table

/-!
# Standard templates

The message templates that every composer starts with, one for each built-in predicate.
-/

namespace FormRules.Template

/-- The standard templates by the name of the predicate. -/
def standard : List (String × String) :=
  [ ("accepted", "This field must be accepted."),
    ("alpha", "This field only allows alpha characters."),
    ("alphaDash", "This field only allows alpha, dash and underscore characters."),
    ("alphaNum", "This field only allows alpha and numeric characters."),
    ("alphaDashNum", "This field only allows alpha, numeric, dash and underscore characters."),
    ("between", "This field must be between \x7b0\x7d and \x7b1\x7d."),
    ("betweenLength", "This field must be between \x7b0\x7d and \x7b1\x7d characters long."),
    ("contains", "This field must be one of the following values: \x7b0\x7d."),
    ("dateBefore", "This field must be a date before \x7b0\x7d."),
    ("dateAfter", "This field must be a date after \x7b0\x7d."),
    ("different", "This field must be different than \x7b0\x7d."),
    ("digitsLength", "This field must be a numeric value and \x7b0\x7d characters long."),
    ("digitsLengthBetween",
      "This field must be a numeric value between \x7b0\x7d and \x7b1\x7d characters long."),
    ("email", "This field only allows valid email addresses."),
    ("ipvFour", "This field only allows valid IPv4 addresses."),
    ("max", "This field must be no more than \x7b0\x7d."),
    ("maxLength", "This field must be no more than \x7b0\x7d characters long."),
    ("min", "This field must be at least \x7b0\x7d."),
    ("minLength", "This field must be at least \x7b0\x7d characters long."),
    ("notIn", "This field must not be one of the following values: \x7b0\x7d."),
    ("number", "This field only allows valid numeric values."),
    ("required", "This field is required."),
    ("requiredIf", "This field is required if the value of \x7b0\x7d equals \x7b1\x7d."),
    ("requiredIfNot", "This field is required if the value of \x7b0\x7d does not equal \x7b1\x7d."),
    ("same", "This field must be the same value as \x7b0\x7d."),
    ("url", "This field only allows valid urls.") ]

/-- The template for a predicate that has none, around the name of the predicate. -/
def fallback (method : String) : String :=
  "This field failed the " ++ method ++ " validation."

end FormRules.Template
