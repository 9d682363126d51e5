import FormRules.RuleFile.Load
import FormRules.Text.Utf8
import FormRules.Yaml.Document

/-!
# The standard tools

`Yaml.load` decodes a whole file as UTF-8 and then reads its text. `Schema.check` goes through the
keywords of a schema in their order and makes the message of each problem when it is met; that of
one inside an alternative is made too, and dropped. Of the interpreter's stack they take it that
there is always enough.
-/

namespace FormRules

/-- The document that bytes spell. -/
def Yaml.load (bytes : List Nat) : Loaded :=
  match Text.decodeUtf8? bytes with
  | none => .stopped .notUtf8
  | some text =>
    match Yaml.document (Text.unifyLineEnds text) with
    | .error .malformed => .malformed
    | .error (.fault .tooDeep) => .bottomless false
    | .error (.fault fault) => .stopped fault
    | .ok v => .document v

/-- What is wrong at one place of a value. -/
inductive Problem where
  /-- a value of another kind is needed -/
  | wrongKind (found : Value) (kind : String)
  /-- a required key is missing -/
  | missing (key : String)
  /-- there are keys that do not belong there -/
  | unexpected (keys : List Value)
  /-- no alternative fits -/
  | noAlternative (found : Value)

namespace Problem

/-- The literals of keys, in the order of the keys' texts. -/
def keyLiterals (keys : List Value) : Attempt (List String) := do
  let pairs ← keys.mapM fun k => do return (← k.toText, ← k.literal)
  return (pairs.mergeSort fun a b => decide (a.1 ≤ b.1)).map Prod.snd

/-- The message of a problem. -/
def message : Problem → Attempt String
  | wrongKind found kind => do return (← found.literal) ++ " is not of type '" ++ kind ++ "'"
  | missing key => do return (← (Value.text key).literal) ++ " is a required property"
  | unexpected keys => do
    let verb := if keys.length = 1 then "was" else "were"
    return "Additional properties are not allowed (" ++ ", ".intercalate (← keyLiterals keys) ++
      " " ++ verb ++ " unexpected)"
  | noAlternative found => do
    return (← found.literal) ++ " is not valid under any of the given schemas"

/-- The problem as the only finding. -/
def finding (path : List Value) (p : Problem) : Attempt (List Finding) := do
  return [⟨path, ← p.message⟩]

end Problem

namespace Schema

/-- The findings in the items of a list, from the given position on. -/
def itemFindings (item : List Value → Value → Attempt (List Finding)) (path : List Value) :
    Nat → List Value → Attempt (List Finding)
  | _, [] => .ok []
  | i, x :: xs => do
    let found ← item (path ++ [.int i]) x
    return found ++ (← itemFindings item path (i + 1) xs)

/-- The findings in the values of a mapping. -/
def entryFindings (item : List Value → Value → Attempt (List Finding)) (path : List Value) :
    List (Value × Value) → Attempt (List Finding)
  | [] => .ok []
  | (k, v) :: es => do
    let found ← item (path ++ [k]) v
    return found ++ (← entryFindings item path es)

/-- The required keys that are missing. -/
def absent (required : List String) (es : List (Value × Value)) : List String :=
  required.filter fun key => !es.any fun e => e.1 == .text key

/-- The keys that do not belong there. -/
def extra (fields : List (String × Schema)) (es : List (Value × Value)) : List Value :=
  (es.map Prod.fst).filter fun k => !fields.any fun f => k == .text f.1

/-- All keys that do not belong there are one finding. -/
def unexpectedFindings (fields : List (String × Schema)) (path : List Value)
    (es : List (Value × Value)) : Attempt (List Finding) :=
  if (extra fields es).isEmpty then .ok []
  else (Problem.unexpected (extra fields es)).finding path

mutual

/-- The findings in a value at a path. -/
def check : Schema → List Value → Value → Attempt (List Finding)
  | null, path, v =>
    match v with
    | .null => .ok []
    | v => (Problem.wrongKind v "null").finding path
  | text, path, v =>
    match v with
    | .text _ => .ok []
    | v => (Problem.wrongKind v "string").finding path
  | listOf item, path, v =>
    match v with
    | .list xs => itemFindings item.check path 0 xs
    | v => (Problem.wrongKind v "array").finding path
  | mapOf item, path, v =>
    match v with
    | .map es => entryFindings item.check path es
    | v => (Problem.wrongKind v "object").finding path
  | record required fields, path, v =>
    match v with
    | .map es => do
      let missing ← (absent required es).mapM fun key => (Problem.missing key).finding path
      let unexpected ← unexpectedFindings fields path es
      return missing.flatten ++ unexpected ++ (← checkFields fields path es)
    | v => (Problem.wrongKind v "object").finding path
  | anyOf alternatives, path, v => do
    if ← checkAny alternatives path v then return []
    else (Problem.noAlternative v).finding path

/-- The findings in the values of all keys that are there. -/
def checkFields : List (String × Schema) → List Value → List (Value × Value) →
    Attempt (List Finding)
  | [], _, _ => .ok []
  | (key, s) :: fields, path, es => do
    let found ← (Table.find (.text key) es).elim (.ok []) (s.check (path ++ [.text key]))
    return found ++ (← checkFields fields path es)

/-- Nothing is found against one of the schemas; those after it are not tried. -/
def checkAny : List Schema → List Value → Value → Attempt Bool
  | [], _, _ => .ok false
  | s :: alternatives, path, v => do
    if (← s.check path v).isEmpty then return true
    else checkAny alternatives path v

end

end Schema

/-- The tools that are used where nothing else is said. -/
def Tools.standard : Tools := ⟨Yaml.load, Schema.check⟩

end FormRules
