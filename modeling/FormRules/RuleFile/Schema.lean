import FormRules.Value.Text

/-!
# Schemas

A `Schema` describes the shape of a value. Whether a value has the shape is found out by a
`Checker`, which tells each `Finding` with its place and a message. What a checker finds becomes the
issues of a file, in the order of the texts of their places.
-/

namespace FormRules

/-- The shape of a value. -/
inductive Schema where
  /-- no value -/
  | null
  /-- a text -/
  | text
  /-- a list whose items have a shape -/
  | listOf (item : Schema)
  /-- a mapping whose values have a shape -/
  | mapOf (item : Schema)
  /-- a mapping with given keys only, of which some are required, each value having its own shape -/
  | record (required : List String) (fields : List (String × Schema))
  /-- one of several shapes -/
  | anyOf (alternatives : List Schema)

/-- What is wrong at one place of a value: the keys and positions that lead there, and a message. -/
structure Finding where
  path : List Value
  message : String

/-- Finds where the value at a path departs from a schema. Making the messages may fail. -/
abbrev Checker : Type := Schema → List Value → Value → Attempt (List Finding)

namespace Finding

/-- A step of a path: positions, and keys that are numbers, stand in brackets. -/
def stepText : Value → Attempt String
  | .int i => do return "[" ++ (← intText i) ++ "]"
  | .bool b => do return "[" ++ (← (Value.bool b).toText) ++ "]"
  | v => v.toText

/-- The text of a path: a slash between steps, but none before a bracket. -/
def pathText (path : List Value) : Attempt String := do
  return Text.replace "/[" "[" ("/".intercalate (← path.mapM stepText))

/-- The finding as an issue of a file. -/
def toIssue (file : String) (f : Finding) : Attempt Issue := do
  return ⟨file, ← pathText f.path, f.message⟩

end Finding

/-- The issues of a value that should have a shape, in the order of their places. -/
def Schema.issues (s : Schema) (check : Checker) (file : String) (v : Value) :
    Attempt (List Issue) := do
  let issues ← (← check s [] v).mapM (Finding.toIssue file)
  return issues.mergeSort fun a b => decide (a.path ≤ b.path)

end FormRules
