import FormRules.Text.Blank
import FormRules.Text.Lower

/-!
# Configuration

The delimiters of rule texts and the spelling of truth values.
-/

namespace FormRules

open Text

/-- How rule texts are read. -/
structure Config where
  /-- separates the rules of one text -/
  ruleDelimiter : String := "|"
  /-- separates the method of a rule from its parameters, and these from one another -/
  parameterDelimiter : String := ":"
  /-- separates the items of a parameter that is a list -/
  listDelimiter : String := ","
  /-- the text that stands for true -/
  trueLiteral : String := "true"
  /-- the text that stands for false -/
  falseLiteral : String := "false"
  /-- the case of letters matters in the two literals -/
  caseSensitive : Bool := true
deriving DecidableEq, Repr, Inhabited

namespace Config

/-- The texts that switch a setting off. -/
def offTexts : List String := ["0", "false", "no", "off"]

/-- The configuration that two settings ask for: a rule delimiter, where an empty one counts as not
given, and the case-sensitivity of truth values, which only an off text switches off. -/
def ofSettings (delimiter caseSensitive : Option String) : Config :=
  let base : Config := {}
  { base with
    ruleDelimiter :=
      match delimiter with
      | some d => if d.isEmpty then base.ruleDelimiter else d
      | none => base.ruleDelimiter
    caseSensitive :=
      match caseSensitive with
      | some s => !offTexts.contains (lower (strip s))
      | none => true }

/-- The form in which texts are compared with the literals. -/
def fold (c : Config) (s : String) : String := if c.caseSensitive then s else lower s

/-- The truth value that a text spells. -/
def toBoolean? (c : Config) (s : String) : Option Bool :=
  if c.fold s = c.fold c.trueLiteral then some true
  else if c.fold s = c.fold c.falseLiteral then some false
  else none

end Config

end FormRules
