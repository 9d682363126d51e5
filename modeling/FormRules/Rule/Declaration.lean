import FormRules.Rule.Parse

/-!
# Declarations of rules

A form declares, for each field, one text with rules or a list of rules. Normalizing gives every
field the list of its rules, each trimmed and none blank.
-/

namespace FormRules

open Text

/-- The fields of a form with their rules, in the order of declaration. -/
abbrev FieldRules : Type := Table Value (List String)

/-- The forms with their fields, in the order of declaration. -/
abbrev RuleSet : Type := Table Value FieldRules

namespace Config

/-- The items of a list of rules, which have to be texts. -/
def ruleTexts (place : String) : List Value → Attempt (List String)
  | [] => .ok []
  | .text s :: xs => do return s :: (← ruleTexts place xs)
  | x :: _ => .error (.ruleShape place x.kind)

/-- The texts without outer white space, less the blank ones. -/
def tidy (texts : List String) : List String := (texts.map strip).filter fun s => !s.isEmpty

/-- The rules that one field declares; `place` tells where in a message, if it is not empty. -/
def splitRules (c : Config) (rules : Value) (place : String) : Attempt (List String) :=
  let place := if place.isEmpty then "field" else place
  match rules with
  | .text s =>
    if c.ruleDelimiter.isEmpty then .error .emptyDelimiter
    else .ok (tidy (splitText c.ruleDelimiter s))
  | .list xs | .tuple xs => do return tidy (← ruleTexts place xs)
  -- a sequence of any kind is like the list of its items; those of bytes are numbers
  | .bytes bs => do return tidy (← ruleTexts place (bs.map fun b : Nat => .int b))
  | v => .error (.rulesShape place v.kind)

/-- The fields of a form. -/
def normalizeFields (c : Config) (form : Value) :
    List (Value × Value) → Attempt (List (Value × List String))
  | [] => .ok []
  | (field, rules) :: es => do
    let place := (← form.toText) ++ "." ++ (← field.toText)
    let texts ← c.splitRules rules place
    return (field, texts) :: (← normalizeFields c form es)

/-- The declaration of one form; no value counts as no fields. -/
def normalizeForm (c : Config) (form : Value) : Value → Attempt FieldRules
  | .null => .ok ∅
  | .map fields => do return ⟨← c.normalizeFields form fields⟩
  | _ => do throw (.fieldsShape (← form.toText))

/-- The declarations of all forms. -/
def normalizeForms (c : Config) : List (Value × Value) → Attempt (List (Value × FieldRules))
  | [] => .ok []
  | (form, fields) :: es => do
    let rules ← c.normalizeForm form fields
    return (form, rules) :: (← normalizeForms c es)

/-- A rule set from declarations; a false value declares nothing. -/
def normalize (c : Config) (declarations : Value) : Attempt RuleSet :=
  if declarations.truth then
    match declarations with
    | .map forms => do return ⟨← c.normalizeForms forms⟩
    | _ => .error .declarationsShape
  else .ok ∅

end Config

namespace RuleSet

/-- The rules of one field as a value. -/
def rulesValue (rules : List String) : Value := .list (rules.map .text)

/-- The fields of a form as a value. -/
def fieldsValue (fields : FieldRules) : Value :=
  .map (fields.entries.map fun e => (e.1, rulesValue e.2))

/-- The rule set as declarations. -/
def toValue (r : RuleSet) : Value := .map (r.entries.map fun e => (e.1, fieldsValue e.2))

end RuleSet

end FormRules
