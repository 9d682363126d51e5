import FormRules.Value.Text

/-!
# Accessors

An accessor knows the current values of fields. Either it holds them in a table of forms, which can
be written, or it computes them.
-/

namespace FormRules

/-- The fields of a form with their values. -/
abbrev FieldValues : Type := Table Value Value

/-- A source of field values. -/
inductive Accessor where
  /-- the values are held, by form and field -/
  | table (forms : Table Value FieldValues)
  /-- the values are computed from form and field -/
  | computed (read : Value → Value → Attempt Value)

namespace Value

/-- An entry of two, as a pair. -/
def pair : Value → Attempt (Value × Value)
  | .list [k, v] | .tuple [k, v] | .set [k, v] | .map [(k, _), (v, _)] => .ok (k, v)
  | .list _ | .tuple _ | .set _ | .map _ => .error .pairLength
  | .text s =>
    match s.toList with
    | [k, v] => .ok (.text (String.singleton k), .text (String.singleton v))
    | _ => .error .pairLength
  | _ => .error .notAPair

/-- The table with the pairs of a list set one after the other. -/
def setPairs (t : FieldValues) : List Value → Attempt FieldValues
  | [] => .ok t
  | x :: xs => do
    let (k, v) ← x.pair
    setPairs (t.set (← k.asKey) v) xs

/-- The fields that a value lists: the entries of a mapping, or the pairs in a collection. -/
def asFields : Value → Attempt FieldValues
  | .map es => .ok ⟨es⟩
  | .list xs | .tuple xs | .set xs => setPairs ∅ xs
  | .text s => setPairs ∅ (s.toList.map fun c => .text (String.singleton c))
  | _ => .error .notAPair

end Value

namespace Accessor

/-- The fields of all forms of a mapping. -/
def readForms : List (Value × Value) → Attempt (List (Value × FieldValues))
  | [] => .ok []
  | (form, fields) :: es => do
    let t ← fields.asFields
    return (form, t) :: (← readForms es)

/-- The accessor that holds the values of a mapping of forms. -/
def ofForms (forms : List (Value × Value)) : Attempt Accessor := do
  return .table ⟨← readForms forms⟩

/-- The accessor that a value gives: no value gives one without forms. -/
def ofValue : Value → Attempt Accessor
  | .null => .ok (.table ∅)
  | .map forms => ofForms forms
  | v => .error (.unusableAccessor v.kind)

/-- The accessor that holds a value's forms, where a false value has none. -/
def holding (v : Value) : Attempt Accessor :=
  if v.truth then
    match v with
    | .map forms => ofForms forms
    | _ => .error .notAMapping
  else .ok (.table ∅)

/-- The fault of a field without a value. -/
def missing (form field : Value) : Attempt Value := do
  throw (.fieldNotFound (← form.toText) (← field.toText))

/-- The current value of a field. -/
def get (a : Accessor) (form field : Value) : Attempt Value :=
  match a with
  | .computed read => read form field
  | .table forms => do
    match forms.get? (← form.asKey) with
    | none => missing form field
    | some fields =>
      match fields.get? (← field.asKey) with
      | some v => return v
      | none => missing form field

/-- The accessor after a field was written. A form that was not there is there from then on, even if
the field's name cannot be a key. -/
def put (a : Accessor) (form field v : Value) : Accessor × Attempt Unit :=
  match a with
  | .computed _ => (a, .error .inaccessible)
  | .table forms =>
    if form.hashable then
      let fields := (forms.get? form).getD ∅
      if field.hashable then (.table (forms.set form (fields.set field v)), .ok ())
      else (.table (forms.set form fields), .error .unhashableKey)
    else (a, .error .unhashableKey)

end Accessor

end FormRules
