import FormRules.Pattern
import FormRules.Predicate.Presence

/-!
# Character classes

The predicates that allow only some ASCII characters. One line feed at the end of a text is passed
over.
-/

namespace FormRules.Predicate

/-- An ASCII letter. -/
def isLetter (c : Char) : Bool := ('a' ≤ c && c ≤ 'z') || ('A' ≤ c && c ≤ 'Z')

/-- An ASCII letter or digit. -/
def isAlphanumeric (c : Char) : Bool := isLetter c || ('0' ≤ c && c ≤ '9')

/-- A dash or an underscore. -/
def isDash (c : Char) : Bool := c == '-' || c == '_'

/-- The text of a value fits a pattern, unless the value is empty. -/
def ofPattern (pattern : List Piece) (value : Value) : List Value → Check Bool
  | [] =>
    if value.isEmpty then return true
    else do return Pattern.fits pattern (← value.plainText).toList
  | _ => Check.fail .tooManyParameters

/-- Letters only. -/
def alpha : Value → List Value → Check Bool := ofPattern (Pattern.atLeastOne isLetter)

/-- Letters, dashes and underscores. -/
def alphaDash : Value → List Value → Check Bool :=
  ofPattern (Pattern.atLeastOne fun c => isLetter c || isDash c)

/-- Letters and digits. -/
def alphaNum : Value → List Value → Check Bool := ofPattern (Pattern.atLeastOne isAlphanumeric)

/-- Letters, digits, dashes and underscores. -/
def alphaDashNum : Value → List Value → Check Bool :=
  ofPattern (Pattern.atLeastOne fun c => isAlphanumeric c || isDash c)

end FormRules.Predicate
