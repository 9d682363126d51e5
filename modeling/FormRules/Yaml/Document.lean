import FormRules.Yaml.Value

/-!
# YAML documents

A text is cut into tokens, these make up a tree of nodes, and the nodes become values. The text
holds at most one document, and no characters but printable ones, tabs and line breaks; its lines
end in line feeds.
-/

namespace FormRules.Yaml

/-- A character that a text may hold. -/
def isAllowed (c : Char) : Bool :=
  let n := c.toNat
  n == 0x9 || n == 0xa || n == 0xd || (0x20 ≤ n && n ≤ 0x7e) || n == 0x85 ||
    (0xa0 ≤ n && n ≤ 0xd7ff) || (0xe000 ≤ n && n ≤ 0xfffd) || 0x10000 ≤ n

/-- The value of the document in a text; a text without document has no value. -/
def document (text : List Char) : Except Failure Value :=
  if text.all isAllowed then do
    match ← Node.ofTokens (tokens text) with
    | some n => n.toValue
    | none => return .null
  else .error .malformed

end FormRules.Yaml
