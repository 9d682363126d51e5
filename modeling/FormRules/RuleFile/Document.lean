import FormRules.RuleFile.Schema

/-!
# Rule documents

A rule document declares, under `forms`, the rules of fields by form, and may override message
templates under `messages`. Rule files are read by way of a format in which keys need not be texts:
names such as `on` and `no` are truth values there. So keys are turned to texts before a document is
checked.
-/

namespace FormRules

namespace Value

/-- The text that a key is replaced by. -/
def keyText : Value → Attempt String
  | bool b => .ok (if b then "on" else "off")
  | v => v.toText

mutual

/-- The value with the keys of its mappings as texts. Mappings are reached through mappings and
lists; of entries whose keys become the same text, the last value is kept at the first place. -/
def textKeys : Value → Attempt Value
  | map es => do return .ofTable (Table.ofList (← textKeysEntries es))
  | list xs => do return .list (← textKeysItems xs)
  | v => .ok v

/-- The items of a list with their keys as texts. -/
def textKeysItems : List Value → Attempt (List Value)
  | [] => .ok []
  | x :: xs => do
    let y ← x.textKeys
    return y :: (← textKeysItems xs)

/-- The entries of a mapping with their keys as texts. -/
def textKeysEntries : List (Value × Value) → Attempt (List (Value × Value))
  | [] => .ok []
  | (k, v) :: es => do
    let key ← k.keyText
    let v ← v.textKeys
    return (.text key, v) :: (← textKeysEntries es)

end

end Value

namespace RuleDocument

/-- The rules of a field: one text, or a list of texts. -/
def rulesSchema : Schema := .anyOf [.text, .listOf .text]

/-- The fields of a form, or none. -/
def formSchema : Schema := .anyOf [.null, .mapOf rulesSchema]

/-- A message template, or the templates of a form. -/
def templateSchema : Schema := .anyOf [.text, .mapOf .text]

/-- The shape of a rule document. -/
def schema : Schema :=
  .record ["forms"] [("forms", .mapOf formSchema), ("messages", .mapOf templateSchema)]

/-- The issues that a checker finds in a rule document that comes from a file. -/
def issues (check : Checker) (document : Value) (file : String) : Attempt (List Issue) :=
  schema.issues check file document

end RuleDocument

end FormRules
