import FormRules.Config
import FormRules.Value.Text

/-!
# Single rules

A rule text is a method, perhaps followed by parameters: `between:1,10`. Reading it takes two steps.
`Config.parse` cuts the text at the delimiters and nothing more, so that `Rule.render` gives the
text back. `Config.coerce` trims every token and turns the spelled truth values into truth values.
-/

namespace FormRules

open Text

/-- A parameter as it stands in a rule text. -/
inductive Parameter where
  /-- a text without list delimiter -/
  | single (token : String)
  /-- the items between list delimiters -/
  | several (tokens : List String)
deriving DecidableEq, Repr, Inhabited

/-- A rule text cut at its delimiters. -/
structure Rule where
  method : String
  parameters : List Parameter
deriving DecidableEq, Repr, Inhabited

/-- A rule ready to be run: the name of a predicate and the values it is called with. -/
structure PreparedRule where
  method : String
  parameters : List Value
deriving Repr, Inhabited

/-- The text of a parameter. -/
def Parameter.render (c : Config) : Parameter → String
  | .single token => token
  | .several tokens => joinTexts c.listDelimiter tokens

/-- The text of a rule. -/
def Rule.render (c : Config) (r : Rule) : String :=
  joinTexts c.parameterDelimiter (r.method :: r.parameters.map (Parameter.render c))

/-- The parameter as a value. -/
def Parameter.toValue : Parameter → Value
  | .single token => .text token
  | .several tokens => .list (tokens.map .text)

namespace Config

/-- A text cut at a delimiter, or nothing if the delimiter does not occur. An empty delimiter occurs
everywhere, but cannot be cut at. -/
def cut? (delimiter s : String) : Attempt (Option (List String)) :=
  if occursIn delimiter.toList s.toList then
    if delimiter.isEmpty then .error .emptyDelimiter
    else .ok (some (splitText delimiter s))
  else .ok none

/-- One parameter. -/
def parameter (c : Config) (segment : String) : Attempt Parameter := do
  match ← cut? c.listDelimiter segment with
  | some tokens => return .several tokens
  | none => return .single segment

/-- A rule text cut into its method and parameters; empty parts are kept. -/
def parse (c : Config) (rule : String) : Attempt Rule := do
  match ← cut? c.parameterDelimiter rule with
  | some (method :: segments) => return ⟨method, ← segments.mapM c.parameter⟩
  | _ => return ⟨rule, []⟩

/-- A token without its outer white space, as the truth value that it spells or else as a text. -/
def coerceText (c : Config) (token : String) : Value :=
  match c.toBoolean? (strip token) with
  | some b => .bool b
  | none => .text (strip token)

mutual

/-- A value as a rule parameter: truth values stay, lists are taken item by item, and all else is
read by its text. -/
def coerce (c : Config) : Value → Attempt Value
  | .list xs => do return .list (← coerceAll c xs)
  | .bool b => .ok (.bool b)
  | v => do return c.coerceText (← v.toText)

/-- The items of a list as rule parameters. -/
def coerceAll (c : Config) : List Value → Attempt (List Value)
  | [] => .ok []
  | x :: xs => do
    let y ← coerce c x
    return y :: (← coerceAll c xs)

end

/-- A parameter of a rule text, read. -/
def coerceParameter (c : Config) : Parameter → Value
  | .single token => c.coerceText token
  | .several tokens => .list (tokens.map c.coerceText)

/-- A rule text, read. -/
def prepare (c : Config) (rule : String) : Attempt PreparedRule := do
  let r ← c.parse rule
  return ⟨strip r.method, r.parameters.map c.coerceParameter⟩

end Config

end FormRules
