import FormRules.Fault

/-!
# Places in a YAML text

A `Cursor` is a place in a text: what comes next, and how far into the text and its line that is. A
text that is read holds no NUL, so a NUL stands for its end.
-/

namespace FormRules.Yaml

/-- Why a text gives no document. -/
inductive Failure where
  /-- the text is not well-formed -/
  | malformed
  /-- the text holds something from which no value can be made -/
  | fault (f : Fault)
deriving DecidableEq, Repr

/-- What stands for the end of the text. -/
def nul : Char := '\x00'

/-- The mark that may open a text; it takes no column. -/
def byteOrderMark : Char := '\ufeff'

/-- A character that ends a line. -/
def isBreak (c : Char) : Bool := c == '\n' || c == '\x85' || c == '\u2028' || c == '\u2029'

/-- The end of a line or of the text. -/
def isLineEnd (c : Char) : Bool := c == nul || isBreak c

/-- The end of a line or of the text, or a space. -/
def isSpaceOrEnd (c : Char) : Bool := c == ' ' || isLineEnd c

/-- The end of a line or of the text, a space or a tab. -/
def isGap (c : Char) : Bool := c == '\t' || isSpaceOrEnd c

/-- A space or a tab. -/
def isSpaceOrTab (c : Char) : Bool := c == ' ' || c == '\t'

/-- The kind of line break that a character is, as it is kept in a text: next-line counts as a line
feed, the separators of lines and paragraphs stay. -/
def breakText (c : Char) : Char := if c == '\x85' then '\n' else c

/-- A place in a text. -/
structure Cursor where
  /-- the text that comes next -/
  rest : List Char
  /-- the number of characters before -/
  index : Nat
  /-- the number of lines before -/
  line : Nat
  /-- the place in the line -/
  column : Nat
deriving Repr, Inhabited

namespace Cursor

/-- The beginning of a text. -/
def start (text : List Char) : Cursor := ⟨text, 0, 0, 0⟩

/-- The next character. -/
def peek (c : Cursor) : Char := c.rest.headD nul

/-- The character that comes after `n` others. -/
def peekAt (c : Cursor) (n : Nat) : Char := c.rest.getD n nul

/-- The place after the next character. -/
def next (c : Cursor) : Cursor :=
  match c.rest with
  | [] => c
  | ch :: rest =>
    if isBreak ch then ⟨rest, c.index + 1, c.line + 1, 0⟩
    else if ch = byteOrderMark then ⟨rest, c.index + 1, c.line, c.column⟩
    else ⟨rest, c.index + 1, c.line, c.column + 1⟩

/-- The place after `n` characters. -/
def skip : Nat → Cursor → Cursor
  | 0, c => c
  | n + 1, c => skip n c.next

/-- The characters that come next and pass a test, and the place after them. -/
def takeWhile (p : Char → Bool) (c : Cursor) : List Char × Cursor :=
  let taken := c.rest.takeWhile p
  (taken, c.skip taken.length)

/-- The place after the characters that come next and pass a test. -/
def skipWhile (p : Char → Bool) (c : Cursor) : Cursor := (c.takeWhile p).2

/-- The line break that comes next, if one does, and the place after it. -/
def lineBreak? (c : Cursor) : Option (Char × Cursor) :=
  if isBreak c.peek then some (breakText c.peek, c.next) else none

/-- A marker of the start or end of a document comes next, if this is the start of a line. -/
def atMarker (c : Cursor) : Bool :=
  (['-', '-', '-'].isPrefixOf c.rest || ['.', '.', '.'].isPrefixOf c.rest) && isGap (c.peekAt 3)

/-- The place after the spaces and the comment that fill the rest of a line, and the line break;
anything else is malformed. -/
def endLine (c : Cursor) : Except Failure Cursor :=
  let c := c.skipWhile (· == ' ')
  let c := if c.peek == '#' then c.skipWhile fun ch => !isLineEnd ch else c
  if isLineEnd c.peek then .ok c.next else .error .malformed

end Cursor

end FormRules.Yaml
