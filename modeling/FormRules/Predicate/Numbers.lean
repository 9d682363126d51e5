import FormRules.Number.Reader
import FormRules.Predicate.Presence

/-!
# Numbers and lengths

The predicates that compare the number, the count of digits or the length of a value with bounds. A
bound may be any number that a text can spell; counts and lengths are compared with it exactly.
-/

namespace FormRules

open Text

/-- The number of a value: a number that is not a truth value, or a text that spells one. -/
def Value.toNumber : Value → Attempt (Option Double)
  | .int i =>
    match Double.ofInt? i with
    | some d => .ok (some d)
    | none => .error .beyondDoubles
  | .float d => .ok (some d)
  | .text s => .ok (Double.ofText? s.toList)
  | _ => .ok none

/-- The length of a value: the size of a collection, or the length of the text of anything else. -/
def Value.length : Value → Attempt Nat
  | .list xs | .tuple xs | .set xs => .ok xs.length
  | .map es => .ok es.length
  | v => do return (← v.plainText).toList.length

/-- The whole part of a number. -/
def Double.wholePart : Double → Attempt Int
  | .nan => .error .noWholePart
  | .infinite _ => .error .infiniteWholePart
  | .finite negative steps => .ok (truncated negative steps)

namespace Predicate

/-- Up to one parameter, a missing one being no value. -/
def upToOne : List Value → Attempt Value
  | [] => .ok .null
  | [p] => .ok p
  | _ => .error .tooManyParameters

/-- The number that a parameter gives; any other parameter is reported. -/
def numericParameter (validation : String) (parameter : Value) : Check (Option Double) := do
  match ← parameter.toNumber with
  | some d => return some d
  | none =>
    let _ ← malformed validation parameter
    return none

/-- The two bounds of a range: two parameters, or the two items of a list. -/
def bounds (validation : String) (parameters : List Value) : Check (Option (Double × Double)) := do
  let given :=
    match parameters with
    | [.list xs] => xs
    | ps => ps
  match given with
  | [p, q] =>
    let low ← numericParameter validation p
    let high ← numericParameter validation q
    match low, high with
    | some low, some high => return some (low, high)
    | _, _ => return none
  | _ =>
    let _ ← malformed validation (.list given)
    return none

/-- The value is a number. -/
def number (value : Value) : List Value → Check Bool
  | [] =>
    if value.isEmpty then return true
    else do return (← value.toNumber).isSome
  | _ => Check.fail .tooManyParameters

/-- The number of a non-empty value stands in the given relation to a bound. The number is taken
also where there is no bound. -/
def comparedNumber (validation : String) (holds : Double → Double → Bool) (value : Value)
    (parameters : List Value) : Check Bool := do
  let limit ← upToOne parameters
  if value.isEmpty then return true
  let bound ← numericParameter validation limit
  match bound, ← value.toNumber with
  | some bound, some d => return holds d bound
  | _, _ => return false

/-- The length of a non-empty value stands in the given relation to a bound. -/
def comparedLength (validation : String) (holds : Double → Double → Bool) (value : Value)
    (parameters : List Value) : Check Bool := do
  let limit ← upToOne parameters
  if value.isEmpty then return true
  match ← numericParameter validation limit with
  | some bound => return holds (.exactly (← value.length)) bound
  | none => return false

/-- The number is not below the limit. -/
def minimum : Value → List Value → Check Bool :=
  comparedNumber "min" fun d bound => bound.le d

/-- The number is not above the limit. -/
def maximum : Value → List Value → Check Bool :=
  comparedNumber "max" fun d bound => d.le bound

/-- The number lies in a range, ends included. -/
def between (value : Value) (parameters : List Value) : Check Bool := do
  if value.isEmpty then return true
  let range ← bounds "between" parameters
  match range, ← value.toNumber with
  | some (low, high), some d => return low.le d && d.le high
  | _, _ => return false

/-- The text of a value without its outer white space. -/
def trimmedText (value : Value) : Attempt (List Char) := do return trim (← value.plainText).toList

/-- The value consists of exactly so many digits. -/
def digitsLength (value : Value) (parameters : List Value) : Check Bool := do
  let limit ← upToOne parameters
  if value.isEmpty then return true
  let expected ← numericParameter "digitsLength" limit
  let text ← trimmedText value
  match expected with
  | none => return false
  | some d => if isDigits text then return (text.length : Int) == (← d.wholePart) else return false

/-- A whole number lies in a range of doubles, ends included. -/
def inRange (range : Double × Double) (n : Nat) : Bool :=
  range.1.le (.exactly n) && (Double.exactly n).le range.2

/-- The value consists of digits, and their number lies in a range. -/
def digitsLengthBetween (value : Value) (parameters : List Value) : Check Bool := do
  if value.isEmpty then return true
  match ← bounds "digitsLengthBetween" parameters with
  | none => return false
  | some range =>
    let text ← trimmedText value
    return isDigits text && inRange range text.length

/-- The value is not shorter than the limit. -/
def minLength : Value → List Value → Check Bool :=
  comparedLength "minLength" fun d bound => bound.le d

/-- The value is not longer than the limit. -/
def maxLength : Value → List Value → Check Bool :=
  comparedLength "maxLength" fun d bound => d.le bound

/-- The length of the value lies in a range. -/
def betweenLength (value : Value) (parameters : List Value) : Check Bool := do
  if value.isEmpty then return true
  match ← bounds "betweenLength" parameters with
  | none => return false
  | some range => return inRange range (← value.length)

end Predicate

end FormRules
