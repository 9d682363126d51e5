import FormRules.Text.Digit
import FormRules.Value.Text

/-!
# Message templates

In a template, a number in braces stands for a parameter of the rule and `field` in braces for the
name of the field; every other character, other braces included, stands for itself. A template is
read once, from left to right, so nothing that is put into it is read again.
-/

namespace FormRules

open Text

/-- A piece of a template. -/
inductive Segment where
  /-- a character that stands for itself -/
  | char (c : Char)
  /-- the parameter with the number that the digits write -/
  | position (digits : List Nat)
  /-- the name of the field -/
  | field
deriving DecidableEq, Repr

namespace Template

/-- The placeholder whose opening brace has just been read: what it stands for and its length. -/
def placeholder? (s : List Char) : Option (Segment × Nat) :=
  let digits := s.takeWhile isDecimal
  if !digits.isEmpty && (s.drop digits.length).head? == some '\x7d' then
    some (.position (digits.filterMap decimalValue?), digits.length + 1)
  else if ['f', 'i', 'e', 'l', 'd', '\x7d'].isPrefixOf s then some (.field, 6)
  else none

/-- The pieces of a template; the first argument counts the characters of a placeholder that are
still to be passed over. -/
def segmentsFrom : Nat → List Char → List Segment
  | _, [] => []
  | k + 1, _ :: s => segmentsFrom k s
  | 0, c :: s =>
    if c = '\x7b' then
      match placeholder? s with
      | some (piece, n) => piece :: segmentsFrom n s
      | none => .char c :: segmentsFrom 0 s
    else .char c :: segmentsFrom 0 s

/-- The pieces of a template. -/
def segments (template : String) : List Segment := segmentsFrom 0 template.toList

/-- The number of a position, unless it has too many digits to be read. -/
def index (digits : List Nat) : Attempt Nat :=
  if digits.length ≤ maxDigits then .ok (valueOf 10 digits) else .error .tooManyDigits

/-- The numbers of all positions. -/
def indexes : List Segment → Attempt (List Nat)
  | [] => .ok []
  | .position digits :: ss => do
    let i ← index digits
    return i :: (← indexes ss)
  | _ :: ss => indexes ss

/-- The text put in for a piece, given the positional texts and the name of the field. -/
def fill (positions : List String) (field : Attempt String) : Segment → Attempt String
  | .char c => .ok (String.singleton c)
  | .position digits => do return positions.getD (← index digits) ""
  | .field => field

/-- The texts of all pieces, one after the other. -/
def render (positions : List String) (field : Attempt String) : List Segment → Attempt String
  | [] => .ok ""
  | s :: ss => do
    let piece ← fill positions field s
    return piece ++ (← render positions field ss)

end Template

namespace Value

mutual

/-- The text that a parameter has in a message: the items of a list are joined by commas. -/
def inMessage : Value → Attempt String
  | list xs => do return ", ".intercalate (← allInMessage xs)
  | v => v.plainText

/-- The texts that parameters have in a message. -/
def allInMessage : List Value → Attempt (List String)
  | [] => .ok []
  | x :: xs => do
    let s ← inMessage x
    return s :: (← allInMessage xs)

end

/-- The text that the name of a field has in a message; no field is the empty text. -/
def asFieldName (field : Value) : Attempt String :=
  if field.truth then
    match field with
    | text s => .ok s
    | _ => .error .notAText
  else .ok ""

end Value

namespace Template

/-- The positional texts of a rule's parameters. A list that is the only parameter is spread over
the positions if the template uses more than the first of them. -/
def positions (template : List Segment) (parameters : List Value) : Attempt (List String) := do
  let used ← indexes template
  match parameters with
  | [.list xs] => if used.any (1 ≤ ·) then Value.allInMessage xs else Value.allInMessage [.list xs]
  | _ => Value.allInMessage parameters

/-- The message that a template gives for a rule's parameters and the name of a field. -/
def compose (template : String) (parameters : List Value) (field : Value) : Attempt String := do
  let pieces := segments template
  let texts ← positions pieces parameters
  render texts field.asFieldName pieces

end Template

end FormRules
