import FormRules.Yaml.Scalar.Plain

/-!
# Block scalars

A block scalar is a run of indented lines after a header. A literal one keeps its line breaks; a
folded one turns a single line break between lines that begin with no space into a space. The header
may tell the indentation, and whether the line breaks at the end are kept, dropped, or cut down to
one.
-/

namespace FormRules.Yaml

open Cursor

/-- What becomes of the line breaks at the end. -/
inductive Chomping where
  /-- one is kept -/
  | clip
  /-- none is kept -/
  | strip
  /-- all are kept -/
  | keep
deriving DecidableEq, Repr

/-- The chomping that a character asks for. -/
def chomping? (c : Char) : Option Chomping :=
  if c == '+' then some .keep else if c == '-' then some .strip else none

/-- The indentation that a character tells; zero is malformed. -/
def increment? (c : Char) : Except Failure (Option Nat) :=
  if c == '0' then .error .malformed
  else if '1' ≤ c && c ≤ '9' then .ok (some (c.toNat - 48))
  else .ok none

/-- The header of a block scalar, after its indicator: chomping and indentation in either order. -/
def blockHeader (c : Cursor) : Except Failure ((Chomping × Option Nat) × Cursor) := do
  let (header, c) ← match chomping? c.peek with
    | some chomping => do
      let c := c.next
      match ← increment? c.peek with
      | some n => pure ((chomping, some n), c.next)
      | none => pure ((chomping, none), c)
    | none => do
      match ← increment? c.peek with
      | some n =>
        let c := c.next
        match chomping? c.peek with
        | some chomping => pure ((chomping, some n), c.next)
        | none => pure ((.clip, some n), c)
      | none => pure ((.clip, none), c)
  if isSpaceOrEnd c.peek then return (header, ← c.endLine) else .error .malformed

/-- The line breaks in front of the first line with text, and the greatest number of spaces that
were passed in one line. -/
def blockIndentation : Nat → Nat → Cursor → List Char × Nat × Cursor
  | 0, deepest, c => ([], deepest, c)
  | fuel + 1, deepest, c =>
    if c.peek == ' ' then blockIndentation fuel (max deepest c.next.column) c.next
    else
      match c.lineBreak? with
      | none => ([], deepest, c)
      | some (b, c) =>
        let (breaks, deepest, c) := blockIndentation fuel deepest c
        (b :: breaks, deepest, c)

/-- The place after spaces, up to the indentation. -/
def indented (indent : Nat) (c : Cursor) : Cursor :=
  c.skip (min (indent - c.column) (c.rest.takeWhile (· == ' ')).length)

/-- The line breaks in front of the next line with text, and the place in that line after its
indentation. -/
def blockBreaks (indent : Nat) : Nat → Cursor → List Char × Cursor
  | 0, c => ([], c)
  | fuel + 1, c =>
    let c := indented indent c
    match c.lineBreak? with
    | none => ([], c)
    | some (b, c) =>
      let (breaks, c) := blockBreaks indent fuel c
      (b :: breaks, c)

/-- What stands between two lines of a block scalar, apart from the empty lines between them. -/
def betweenLines (folded : Bool) (first : Option Char) (flush : Bool) (breaks : List Char) :
    List Char :=
  if folded && first == some '\n' && flush then if breaks.isEmpty then [' '] else []
  else first.toList

/-- The line break and the empty lines at the end of a block scalar. -/
def chomp (chomping : Chomping) (last : Option Char) (breaks : List Char) : List Char :=
  match chomping with
  | .strip => []
  | .clip => last.toList
  | .keep => last.toList ++ breaks

/-- The lines of a block scalar from the one at the cursor on, with the line breaks in front of
it. -/
def blockLines (folded : Bool) (chomping : Chomping) (indent : Nat) :
    Nat → List Char → Cursor → List Char × Cursor
  | 0, _, c => ([], c)
  | fuel + 1, breaks, c =>
    let (line, c') := c.takeWhile fun ch => !isLineEnd ch
    let (last, c') := match c'.lineBreak? with
      | some (b, c) => (some b, c)
      | none => (none, c')
    let (more, c') := blockBreaks indent (c'.rest.length + 1) c'
    if c'.column == indent && c'.peek != nul then
      let flush := !isSpaceOrTab c.peek && !isSpaceOrTab c'.peek
      let (text, c') := blockLines folded chomping indent fuel more c'
      (breaks ++ line ++ betweenLines folded last flush more ++ text, c')
    else (breaks ++ line ++ chomp chomping last more, c')

/-- A block scalar in a collection that is indented by `parent`; the cursor is at its indicator. -/
def blockScalar (parent : Int) (c : Cursor) : Except Failure (List Char × Cursor) := do
  let folded := c.peek == '>'
  let ((chomping, increment), c) ← blockHeader c.next
  let least := max (parent + 1).toNat 1
  let (breaks, indent, c) := match increment with
    | some n =>
      let indent := least + n - 1
      let (breaks, c) := blockBreaks indent (c.rest.length + 1) c
      (breaks, indent, c)
    | none =>
      let (breaks, deepest, c) := blockIndentation c.rest.length 0 c
      (breaks, max least deepest, c)
  if c.column == indent && c.peek != nul then
    return blockLines folded chomping indent (c.rest.length + 1) breaks c
  else return (chomp chomping none breaks, c)

end FormRules.Yaml
