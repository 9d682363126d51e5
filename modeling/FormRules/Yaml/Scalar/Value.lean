import FormRules.Text.Lower
import FormRules.Value.Basic
import FormRules.Yaml.Implicit
import FormRules.Yaml.Scalar.Base64

/-!
# The values of scalars

What the text of a scalar becomes under its tag. A tag may also stand in front of a text that does
not suggest it; then the text may spell no such value.
-/

namespace FormRules.Yaml

open Text

/-- The texts of truth values in lower case. -/
def truthValues : List (List Char × Bool) :=
  [("yes".toList, true), ("no".toList, false), ("true".toList, true), ("false".toList, false),
    ("on".toList, true), ("off".toList, false)]

/-- A truth value, in any case of letters. -/
def truthValue (s : List Char) : Attempt Bool :=
  match truthValues.lookup (lower (String.ofList s)).toList with
  | some b => .ok b
  | none => .error .notATruthValue

/-- A number without its underscores, cut into its sign and the rest; it must not be empty. -/
def signed (s : List Char) : Attempt (Bool × List Char) :=
  match s.filter (· != '_') with
  | [] => .error .emptyScalar
  | s => .ok (spanSign s)

/-- A separator of information; unlike other blank characters it must not stand around a number. -/
def isSeparator (c : Char) : Bool := 0x1c ≤ c.toNat && c.toNat ≤ 0x1f

/-- What a reader of numbers finds in a text. -/
def read {α : Type} (reader : List Char → Option α) (s : List Char) : Attempt α :=
  match if s.any isSeparator then none else reader s with
  | some a => .ok a
  | none => .error .badScalar

/-- The whole number that a text spells in a base. -/
def wholeIn (base : Nat) : List Char → Attempt Int := read (readInt? base)

/-- A whole number without sign. A leading zero tells the base, and colons separate the places of
base sixty. -/
def unsignedWhole (s : List Char) : Attempt Int :=
  match s with
  | [] => .error .emptyScalar
  | ['0'] => .ok 0
  | '0' :: 'b' :: r => wholeIn 2 r
  | '0' :: 'x' :: r => wholeIn 16 r
  | '0' :: _ => wholeIn 8 s
  | _ => do return (← (split [':'] s).mapM (wholeIn 10)).foldl (fun n d => n * 60 + d) 0

/-- A whole number. -/
def wholeNumber (s : List Char) : Attempt Int := do
  let (negative, s) ← signed s
  let n ← unsignedWhole s
  return if negative then -n else n

/-- The number that a text spells. -/
def decimal : List Char → Attempt Double := read Double.ofText?

/-- The weight of a place of base sixty. -/
def placeWeight (weight : Nat) : Attempt Double :=
  (Double.ofInt? weight).elim (.error .beyondDoubles) .ok

/-- The sum of the places of base sixty, the lowest place first; every place is rounded. -/
def sumPlaces (sum : Double) (weight : Nat) : List Double → Attempt Double
  | [] => .ok sum
  | d :: ds => do sumPlaces (sum.add (d.mul (← placeWeight weight))) (weight * 60) ds

/-- A number without sign. -/
def unsignedNumber (s : List Char) : Attempt Double :=
  if s = ".inf".toList then .ok (.infinite false)
  else if s = ".nan".toList then .ok .nan
  else
    match split [':'] s with
    | [s] => decimal s
    | places => do sumPlaces (.finite false 0) 1 (← places.mapM decimal).reverse

/-- A number. -/
def number (s : List Char) : Attempt Double := do
  let (negative, s) ← signed (lower (String.ofList s)).toList
  let d ← unsignedNumber s
  return if negative then d.neg else d

/-- The text names `nan`, with or without a sign. What it names is always the same `nan`, unlike one
that comes of reading or adding numbers. -/
def namesNan (s : List Char) : Bool :=
  match signed (lower (String.ofList s)).toList with
  | .ok (_, s) => s = ".nan".toList
  | .error _ => false

/-- A day or a moment. -/
def timestamp (s : List Char) : Attempt Value :=
  match Timestamp.read? (dropFinalBreak s) with
  | none => .error .notATimestamp
  | some t =>
    match Date.of? t.year t.month t.day, t.time with
    | some d, none => .ok (.date d)
    | some d, some (clock, ahead) =>
      if clock.Valid ∧ (ahead.getD 0).natAbs < 86400 then .ok (.moment ⟨d, clock, ahead⟩)
      else .error .badScalar
    | none, _ => .error .badScalar

/-- Bytes. -/
def binary (s : List Char) : Except Failure Value :=
  if s.all (·.toNat < 128) then
    match Base64.decode? s with
    | some bs => .ok (.bytes bs)
    | none => .error .malformed
  else .error .malformed

/-- A fault in making a value is a failure. -/
def ofAttempt {α : Type} : Attempt α → Except Failure α
  | .ok a => .ok a
  | .error f => .error (.fault f)

/-- The value of a scalar with a tag that scalars may have. -/
def scalarValue (tag : Tag) (s : List Char) : Except Failure Value :=
  match tag with
  | .null => .ok .null
  | .bool => ofAttempt ((truthValue s).map .bool)
  | .int => ofAttempt ((wholeNumber s).map .int)
  | .float => ofAttempt ((number s).map .float)
  | .binary => binary s
  | .timestamp => ofAttempt (timestamp s)
  | .text => .ok (.text (String.ofList s))
  | _ => .error .malformed

end FormRules.Yaml
