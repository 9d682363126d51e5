import FormRules.Yaml.Scalar.Quoted

/-!
# Tags

A tag tells what a node is to become. It is written with a handle, which stands for a beginning of
the tag, and the rest of the tag, or in full between angle brackets.
-/

namespace FormRules.Yaml

open Cursor

/-- What a node becomes. -/
inductive Tag where
  | null
  | bool
  | int
  | float
  | binary
  | timestamp
  | text
  | list
  | map
  | set
  /-- a list of pairs, without repeated keys -/
  | orderedMap
  /-- a list of pairs -/
  | pairs
  /-- a key whose value is merged into the mapping -/
  | merge
  /-- a key whose value is the scalar that stands for the mapping -/
  | value
  /-- nothing -/
  | unknown
deriving DecidableEq, Repr, Inhabited

/-- A tag as it is written. -/
structure WrittenTag where
  handle : Option (List Char)
  suffix : List Char
deriving DecidableEq, Repr, Inhabited

namespace Tag

/-- The beginning of the tags that are known. -/
def coreStart : List Char := "tag:yaml.org,2002:".toList

/-- The known tags by the rest of their names. -/
def names : List (List Char × Tag) :=
  [("null".toList, null), ("bool".toList, bool), ("int".toList, int), ("float".toList, float),
    ("binary".toList, binary), ("timestamp".toList, timestamp), ("str".toList, text),
    ("seq".toList, list), ("map".toList, map), ("set".toList, set), ("omap".toList, orderedMap),
    ("pairs".toList, pairs), ("merge".toList, merge), ("value".toList, value)]

/-- The tag with a full name. -/
def ofName (name : List Char) : Tag :=
  if coreStart.isPrefixOf name then
    ((names.find? fun e => e.1 == name.drop coreStart.length).map Prod.snd).getD unknown
  else unknown

end Tag

/-- The handles that stand for a beginning of a tag, unless a document says otherwise. -/
def standardHandles : List (List Char × List Char) := [(['!'], ['!']), (['!', '!'], Tag.coreStart)]

/-- A character of the names of anchors, handles and directives. -/
def isNameChar (c : Char) : Bool :=
  Text.isAsciiDigit c || ('a' ≤ c && c ≤ 'z') || ('A' ≤ c && c ≤ 'Z') || c == '-' || c == '_'

/-- A character of a tag, escapes apart. -/
def isTagChar (c : Char) : Bool :=
  isNameChar c ||
    [';', '/', '?', ':', '@', '&', '=', '+', '$', ',', '.', '!', '~', '*', '\'', '(', ')', '[',
      ']'].contains c

/-- The bytes of consecutive escapes, each a percent sign and two hexadecimal digits. -/
def tagBytes : Nat → Cursor → Except Failure (List Nat × Cursor)
  | 0, c => .ok ([], c)
  | fuel + 1, c =>
    if c.peek == '%' then
      match hexNumber? 2 c.next.rest with
      | some b => do
        let (bytes, c) ← tagBytes fuel (c.skip 3)
        return (b :: bytes, c)
      | none => .error .malformed
    else .ok ([], c)

/-- The rest of the text of a tag; its escapes spell UTF-8. -/
def tagTextFrom : Nat → Cursor → Except Failure (List Char × Cursor)
  | 0, c => .ok ([], c)
  | fuel + 1, c =>
    if c.peek == '%' then do
      let (bytes, c) ← tagBytes c.rest.length c
      match Text.decodeUtf8? bytes with
      | none => .error .malformed
      | some s =>
        let (text, c) ← tagTextFrom fuel c
        return (s ++ text, c)
    else if isTagChar c.peek then do
      let (text, next) ← tagTextFrom fuel c.next
      return (c.peek :: text, next)
    else .ok ([], c)

/-- The text of a tag, which is not empty. -/
def tagText (c : Cursor) : Except Failure (List Char × Cursor) := do
  let (text, c) ← tagTextFrom c.rest.length c
  if text.isEmpty then .error .malformed else return (text, c)

/-- A handle: an exclamation mark, or a name between two. Only in front of a space is the mark alone
a handle. -/
def tagHandle (c : Cursor) : Except Failure (List Char × Cursor) :=
  if c.peek != '!' then .error .malformed
  else if c.peekAt 1 == ' ' then .ok (['!'], c.next)
  else
    let (name, c) := c.next.takeWhile isNameChar
    if c.peek == '!' then .ok ('!' :: name ++ ['!'], c.next) else .error .malformed

/-- A tag between angle brackets; the cursor is after the opening one. -/
def fullTag (c : Cursor) : Except Failure (WrittenTag × Cursor) := do
  let (text, c) ← tagText c
  if c.peek == '>' then return (⟨none, text⟩, c.next) else .error .malformed

/-- A tag as it is written; the cursor is at its exclamation mark. A mark alone is a tag too. -/
def writtenTag (c : Cursor) : Except Failure (WrittenTag × Cursor) := do
  let (tag, c) ←
    if c.peekAt 1 == '<' then fullTag (c.skip 2)
    else if isGap (c.peekAt 1) then pure (⟨none, ['!']⟩, c.next)
    else do
      let word := c.next.rest.takeWhile fun ch => !isSpaceOrEnd ch
      let (handle, c) ← if word.contains '!' then tagHandle c else pure (['!'], c.next)
      let (text, c) ← tagText c
      pure (⟨some handle, text⟩, c)
  if isSpaceOrEnd c.peek then return (tag, c) else .error .malformed

/-- A line about the document that follows. -/
inductive Directive where
  /-- the major version of the format -/
  | version (major : Nat)
  /-- what a handle stands for -/
  | handle (handle start : List Char)
  /-- anything else, which means nothing -/
  | other
deriving DecidableEq, Repr

/-- A number of a version. -/
def versionNumber (c : Cursor) : Except Failure (Nat × Cursor) :=
  let (digits, c) := c.takeWhile Text.isAsciiDigit
  if digits.isEmpty then .error .malformed
  else if 4300 < digits.length then .error (.fault .tooManyDigits)
  else .ok (Text.valueOf 10 (digits.map fun d => d.toNat - 48), c)

/-- What follows the name of a directive. -/
def directiveValue (name : List Char) (c : Cursor) : Except Failure (Directive × Cursor) := do
  let spaces (c : Cursor) : Cursor := c.skipWhile (· == ' ')
  if name = ['Y', 'A', 'M', 'L'] then do
    let (major, c) ← versionNumber (spaces c)
    if c.peek != '.' then throw .malformed
    let (_, c) ← versionNumber c.next
    if isSpaceOrEnd c.peek then return (.version major, c) else throw .malformed
  else if name = ['T', 'A', 'G'] then do
    let (handle, c) ← tagHandle (spaces c)
    if c.peek != ' ' then throw .malformed
    let (start, c) ← tagText (spaces c)
    if isSpaceOrEnd c.peek then return (.handle handle start, c) else throw .malformed
  else return (.other, c.skipWhile fun ch => !isLineEnd ch)

/-- A directive; the cursor is at its percent sign. -/
def directive (c : Cursor) : Except Failure (Directive × Cursor) := do
  let (name, c) := c.next.takeWhile isNameChar
  if name.isEmpty || !isSpaceOrEnd c.peek then throw .malformed
  let (d, c) ← directiveValue name c
  return (d, ← c.endLine)

end FormRules.Yaml
