import FormRules.Predicate.Presence

/-!
# Membership and other fields

The predicates that compare the text of a value with options, or a value with another field.
-/

namespace FormRules.Predicate

/-- The texts of several values. -/
def plainTexts : List Value → Attempt (List String)
  | [] => .ok []
  | x :: xs => do
    let s ← x.plainText
    return s :: (← plainTexts xs)

/-- The options that parameters give; a parameter that is a list gives each of its items. -/
def options : List Value → Attempt (List String)
  | [] => .ok []
  | .list xs :: ps => do
    let texts ← plainTexts xs
    return texts ++ (← options ps)
  | p :: ps => do
    let text ← p.plainText
    return text :: (← options ps)

/-- Whether the text of the value is one of the options. -/
def isOption (value : Value) (parameters : List Value) : Attempt Bool := do
  let text ← value.plainText
  return (← options parameters).contains text

/-- The value is one of the options. -/
def contains (value : Value) (parameters : List Value) : Check Bool := do
  if value.isEmpty then return true
  return ← isOption value parameters

/-- The value is none of the options. -/
def notIn (value : Value) (parameters : List Value) : Check Bool := do
  if value.isEmpty then return true
  return !(← isOption value parameters)

/-- The value, compared with that of another field. -/
def compareSibling (validation : String) (equal : Bool) (value : Value) (parameters : List Value)
    (context : Option Context) : Check Bool := do
  match parameters with
  | _ :: _ :: _ => Check.fail .tooManyParameters
  | _ =>
    let other := parameters.headD .null
    match ← fieldName? other with
    | none => malformed validation other
    | some name => return value.same (← siblingValue context (.text name)) == equal

/-- The value equals that of another field. -/
def same : Value → List Value → Option Context → Check Bool := compareSibling "same" true

/-- The value differs from that of another field. -/
def different : Value → List Value → Option Context → Check Bool := compareSibling "different" false

end FormRules.Predicate
