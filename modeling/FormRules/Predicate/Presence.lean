import FormRules.Check
import FormRules.Text.Blank
import FormRules.Text.Lower

/-!
# Presence

The predicates that ask whether a field has a value, and the reading of another field's name and of
expected values that they share with others.
-/

namespace FormRules

open Text

/-- A value that counts as not given: no value, blank text, or an empty collection. -/
def Value.isEmpty : Value → Bool
  | .null => true
  | .text s => isBlankText s.toList
  | .list xs | .tuple xs | .set xs => xs.isEmpty
  | .map es => es.isEmpty
  | _ => false

namespace Predicate

/-- The name of another field that a parameter gives, if it gives one. -/
def fieldName? : Value → Attempt (Option String)
  | .null | .bool _ | .list _ => .ok none
  | v => do
    let name := strip (← v.toText)
    return if name.isEmpty then none else some name

mutual

/-- A value meets an expectation: a list expects any of its items, a truth value expects itself or
its spelling, and all else expects a value with the same text. -/
def meets (actual : Value) : Value → Attempt Bool
  | .list xs => meetsAny actual xs
  | .bool b =>
    match actual with
    | .bool a => .ok (a == b)
    | _ => do return lower (strip (← actual.plainText)) == if b then "true" else "false"
  | expected => do
    let text ← actual.plainText
    return text == (← expected.plainText)

/-- A value meets one of several expectations. -/
def meetsAny (actual : Value) : List Value → Attempt Bool
  | [] => .ok false
  | x :: xs => do if ← meets actual x then return true else meetsAny actual xs

end

/-- The value must not be empty. -/
def required (value : Value) : List Value → Check Bool
  | [] => return !value.isEmpty
  | _ => Check.fail .tooManyParameters

/-- Up to two parameters, a missing one being no value. -/
def upToTwo : List Value → Attempt (Value × Value)
  | [] => .ok (.null, .null)
  | [p] => .ok (p, .null)
  | [p, q] => .ok (p, q)
  | _ => .error .tooManyParameters

/-- The value must not be empty if the sibling meets the expectation, or, when `unless` holds, if it
does not. -/
def requiredWhen (validation : String) (unlessMet : Bool) (value : Value) (parameters : List Value)
    (context : Option Context) : Check Bool := do
  let (other, expected) ← upToTwo parameters
  match ← fieldName? other, expected with
  | none, _ => malformed validation (.list [other, expected])
  | _, .null => malformed validation (.list [other, expected])
  | some name, expected =>
    let met ← meets (← siblingValue context (.text name)) expected
    return met == unlessMet || !value.isEmpty

/-- Required if another field meets an expectation. -/
def requiredIf : Value → List Value → Option Context → Check Bool := requiredWhen "requiredIf" false

/-- Required unless another field meets an expectation. -/
def requiredIfNot : Value → List Value → Option Context → Check Bool :=
  requiredWhen "requiredIfNot" true

/-- The texts that accept. -/
def acceptedTexts : List String := ["yes", "on", "1", "true"]

/-- The value is a yes. -/
def accepted (value : Value) : List Value → Check Bool
  | [] =>
    match value with
    | .bool b => return b
    | .int i => return i == 1
    | .null => return false
    | v => do return acceptedTexts.contains (lower (strip (← v.plainText)))
  | _ => Check.fail .tooManyParameters

end Predicate

end FormRules
