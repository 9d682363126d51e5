import FormRules.Text.Digit
import FormRules.Text.Utf8
import FormRules.Yaml.Scalar.Plain

/-!
# Quoted scalars

Between single quotes, a quote is written twice. Between double quotes, a backslash begins an
escape. In both, the gap around a line break is folded.
-/

namespace FormRules.Yaml

open Cursor

/-- The characters that have an escape of their own. -/
def escapes : List (Char × Char) :=
  [('0', '\x00'), ('a', '\x07'), ('b', '\x08'), ('t', '\t'), ('\t', '\t'), ('n', '\n'),
    ('v', '\x0b'), ('f', '\x0c'), ('r', '\r'), ('e', '\x1b'), (' ', ' '), ('"', '"'),
    ('\\', '\\'), ('/', '/'), ('N', '\x85'), ('_', '\xa0'), ('L', '\u2028'), ('P', '\u2029')]

/-- The number of hexadecimal digits after the letter of a numeric escape. -/
def escapeWidth? (c : Char) : Option Nat :=
  if c == 'x' then some 2 else if c == 'u' then some 4 else if c == 'U' then some 8 else none

/-- The value of a hexadecimal digit. -/
def hexValue? (c : Char) : Option Nat :=
  if Text.isAsciiDigit c then some (c.toNat - 48)
  else if 'a' ≤ c && c ≤ 'f' then some (c.toNat - 87)
  else if 'A' ≤ c && c ≤ 'F' then some (c.toNat - 55)
  else none

/-- The number that hexadecimal digits write, exactly `n` of them. -/
def hexNumber? (n : Nat) (s : List Char) : Option Nat :=
  let digits := (s.take n).filterMap hexValue?
  if digits.length = n then some (Text.valueOf 16 digits) else none

/-- The character of a numeric escape. Surrogates are no characters of a text and are replaced. -/
def codePoint (n : Nat) : Except Failure Char :=
  if 0x80000000 ≤ n then .error (.fault .hugeCodePoint)
  else if 0x110000 ≤ n then .error (.fault .badCodePoint)
  else if Text.isScalar n then .ok (Char.ofNat n)
  else .ok '\ufffd'

/-- The line breaks of a gap after the first one; a document marker must not follow any. -/
def quotedBreaks : Nat → Cursor → Except Failure (List Char × Cursor)
  | 0, c => .ok ([], c)
  | fuel + 1, c =>
    if c.atMarker then .error .malformed
    else
      let c := c.skipWhile isSpaceOrTab
      match c.lineBreak? with
      | none => .ok ([], c)
      | some (b, c) => do
        let (breaks, c) ← quotedBreaks fuel c
        return (b :: breaks, c)

/-- The line breaks of a gap after the first one. -/
def moreBreaks (c : Cursor) : Except Failure (List Char × Cursor) :=
  quotedBreaks (c.rest.length + 1) c

/-- What a gap in a quoted scalar stands for. -/
def quotedGap (c : Cursor) : Except Failure (List Char × Cursor) :=
  let (spaces, c) := c.takeWhile isSpaceOrTab
  match c.lineBreak? with
  | some (first, c) => do
    let (breaks, c) ← moreBreaks c
    return (foldBreaks first breaks, c)
  | none => if c.peek == nul then .error .malformed else .ok (spaces, c)

/-- What an escape stands for; the cursor is after the backslash. -/
def escaped (c : Cursor) : Except Failure (List Char × Cursor) :=
  match escapes.find? fun e => e.1 == c.peek with
  | some (_, ch) => .ok ([ch], c.next)
  | none =>
    match escapeWidth? c.peek with
    | some width =>
      match hexNumber? width c.next.rest with
      | some n => do return ([← codePoint n], c.next.skip width)
      | none => .error .malformed
    | none =>
      match c.lineBreak? with
      | some (_, c) => moreBreaks c
      | none => .error .malformed

/-- The rest of a quoted scalar; the first argument bounds its length. -/
def quotedFrom (double : Bool) : Nat → Cursor → Except Failure (List Char × Cursor)
  | 0, _ => .error .malformed
  | fuel + 1, c =>
    let ch := c.peek
    let goOn (piece : List Char) (c : Cursor) : Except Failure (List Char × Cursor) := do
      let (text, c) ← quotedFrom double fuel c
      return (piece ++ text, c)
    if ch == nul then .error .malformed
    else if double && ch == '"' then .ok ([], c.next)
    else if !double && ch == '\'' then
      if c.peekAt 1 == '\'' then goOn ['\''] (c.skip 2) else .ok ([], c.next)
    else if isSpaceOrTab ch || isBreak ch then do
      let (gap, c) ← quotedGap c
      goOn gap c
    else if double && ch == '\\' then do
      let (piece, c) ← escaped c.next
      goOn piece c
    else goOn [ch] c.next

/-- A quoted scalar; the cursor is at its opening quote. -/
def quotedScalar (c : Cursor) : Except Failure (List Char × Cursor) :=
  quotedFrom (c.peek == '"') c.rest.length c.next

end FormRules.Yaml
