import FormRules.Yaml.Scalar.Block
import FormRules.Yaml.Tag

/-!
# Tokens

A text is first cut into tokens. Those of block collections tell where the indentation begins and
ends; a failure to go on is a token too, the last one, since what comes before it may show that the
text is not well-formed.
-/

namespace FormRules.Yaml

/-- A token. -/
inductive Token where
  | streamEnd
  /-- the text cannot be cut any further -/
  | failed (f : Failure)
  | directive (d : Directive)
  | documentStart
  | documentEnd
  | listStart
  | mapStart
  /-- the end of a list or mapping in block form -/
  | blockEnd
  | flowListStart
  | flowMapStart
  | flowListEnd
  | flowMapEnd
  /-- a key follows -/
  | key
  /-- the value of a key follows -/
  | value
  /-- an item of a list in block form follows -/
  | blockItem
  /-- an entry of a flow collection ends -/
  | flowItem
  /-- a node that was given a name before -/
  | reference (name : List Char)
  /-- a name for the node that follows -/
  | anchor (name : List Char)
  /-- the tag of the node that follows -/
  | tag (t : WrittenTag)
  | scalar (text : List Char) (plain : Bool)
deriving DecidableEq, Repr

/-- A token that may turn out to begin a key, if a colon follows in the same line. -/
structure PossibleKey where
  /-- the number of tokens before -/
  number : Nat
  /-- without a colon the text is malformed -/
  required : Bool
  index : Nat
  line : Nat
  column : Nat
deriving Repr

/-- The state in which a text is cut. -/
structure Scan where
  place : Cursor
  /-- the number of open flow collections -/
  depth : Nat
  /-- the indentation of the innermost block collection, `-1` outside all of them -/
  indent : Int
  /-- the indentations around it -/
  outer : List Int
  /-- a key may begin here -/
  keyAllowed : Bool
  /-- the possible key of each depth -/
  keys : List (Nat × PossibleKey)
  /-- the tokens so far, the last one first -/
  tokens : List Token
  /-- the number of tokens -/
  count : Nat

namespace Scan

/-- The state at the beginning of a text. -/
def start (text : List Char) : Scan := ⟨.start text, 0, -1, [], true, [], [], 0⟩

/-- A flow collection is open. -/
def inFlow (s : Scan) : Bool := s.depth != 0

/-- One more token. -/
def push (s : Scan) (t : Token) : Scan := { s with tokens := t :: s.tokens, count := s.count + 1 }

/-- A token put in after the first `number` ones. -/
def insert (s : Scan) (number : Nat) (t : Token) : Scan :=
  { s with tokens := s.tokens.insertIdx (s.count - number) t, count := s.count + 1 }

/-- Go to another place. -/
def goTo (s : Scan) (c : Cursor) : Scan := { s with place := c }

/-- One more token, `n` characters long. -/
def pushOver (s : Scan) (n : Nat) (t : Token) : Scan := (s.push t).goTo (s.place.skip n)

/-- A possible key that a colon here would be too late for. -/
def stale (c : Cursor) (k : PossibleKey) : Bool := k.line != c.line || k.index + 1024 < c.index

/-- Forget the possible keys that a colon would be too late for. -/
def forgetStale (s : Scan) : Except Failure Scan :=
  if s.keys.any fun k => stale s.place k.2 && k.2.required then .error .malformed
  else .ok { s with keys := s.keys.filter fun k => !stale s.place k.2 }

/-- Forget the possible key of the current depth. -/
def forgetKey (s : Scan) : Except Failure Scan :=
  if s.keys.any fun k => k.1 == s.depth && k.2.required then .error .malformed
  else .ok { s with keys := s.keys.filter fun k => k.1 != s.depth }

/-- The next token may begin a key. The first token of a block collection's line has to. -/
def rememberKey (s : Scan) : Except Failure Scan :=
  if s.keyAllowed then do
    let s ← s.forgetKey
    let c := s.place
    let required := !s.inFlow && s.indent == c.column
    return { s with keys := (s.depth, ⟨s.count, required, c.index, c.line, c.column⟩) :: s.keys }
  else .ok s

/-- Close the block collections that are indented by more than a column. -/
def closeTo (column : Int) : List Int → Scan → Scan
  | [], s => s
  | i :: outer, s =>
    if column < s.indent then
      closeTo column outer { s.push .blockEnd with indent := i, outer := outer }
    else s

/-- Close the block collections that are indented by more than a column, outside flow
collections. -/
def dedent (s : Scan) (column : Int) : Scan :=
  if s.inFlow then s else closeTo column s.outer s

/-- Open a block collection at a column. -/
def indentTo (s : Scan) (column : Nat) : Scan :=
  { s with indent := column, outer := s.indent :: s.outer }

/-- Open a block collection at the cursor, unless one is open at its column. -/
def openHere (s : Scan) (t : Token) : Except Failure Scan :=
  if s.inFlow then .ok s
  else if !s.keyAllowed then .error .malformed
  else if s.indent < s.place.column then .ok ((s.push t).indentTo s.place.column)
  else .ok s

/-- The place of the next token, and whether there are line breaks before it. -/
def skipGap : Nat → Cursor → Bool × Cursor
  | 0, c => (false, c)
  | fuel + 1, c =>
    if c.peek == ' ' then skipGap fuel c.next
    else if c.peek == '#' then skipGap fuel (c.skipWhile fun ch => !isLineEnd ch)
    else if isBreak c.peek then (true, (skipGap fuel c.next).2)
    else (false, c)

/-- Go to the next token. -/
def toToken (s : Scan) : Scan :=
  let c := s.place
  let c := if c.index = 0 && c.peek == byteOrderMark then c.next else c
  let (broken, c) := skipGap (c.rest.length + 1) c
  { s with place := c, keyAllowed := s.keyAllowed || (broken && !s.inFlow) }

/-! ## The tokens -/

/-- The end of the text. -/
def streamEnd (s : Scan) : Except Failure Scan := do
  let s ← (s.dedent (-1)).forgetKey
  return { s.push .streamEnd with keyAllowed := false, keys := [] }

/-- A directive. -/
def directive (s : Scan) : Except Failure Scan := do
  let s ← (s.dedent (-1)).forgetKey
  let (d, c) ← Yaml.directive s.place
  return { (s.push (.directive d)).goTo c with keyAllowed := false }

/-- A marker of the start or end of a document. -/
def marker (s : Scan) (t : Token) : Except Failure Scan := do
  let s ← (s.dedent (-1)).forgetKey
  return { s.pushOver 3 t with keyAllowed := false }

/-- The beginning of a flow collection. -/
def flowStart (s : Scan) (t : Token) : Except Failure Scan := do
  let s ← s.rememberKey
  return { s.pushOver 1 t with keyAllowed := true, depth := s.depth + 1 }

/-- The end of a flow collection, of which one has to be open. -/
def flowEnd (s : Scan) (t : Token) : Except Failure Scan := do
  let s ← s.forgetKey
  if s.depth = 0 then throw .malformed
  return { s.pushOver 1 t with keyAllowed := false, depth := s.depth - 1 }

/-- The end of an entry of a flow collection. -/
def flowItem (s : Scan) : Except Failure Scan := do
  let s ← s.forgetKey
  return { s.pushOver 1 .flowItem with keyAllowed := true }

/-- An item of a list in block form. -/
def blockItem (s : Scan) : Except Failure Scan := do
  let s ← (← s.openHere .listStart).forgetKey
  return { s.pushOver 1 .blockItem with keyAllowed := true }

/-- A key that is marked as one. -/
def key (s : Scan) : Except Failure Scan := do
  let s ← (← s.openHere .mapStart).forgetKey
  return { s.pushOver 1 .key with keyAllowed := !s.inFlow }

/-- The colon in front of a value. A possible key becomes one, and may open a mapping. -/
def value (s : Scan) : Except Failure Scan := do
  match s.keys.find? fun k => k.1 == s.depth with
  | some (_, k) =>
    let s := { s with keys := s.keys.filter fun k => k.1 != s.depth }
    let s := s.insert k.number .key
    let column : Int := k.column
    let s :=
      if !s.inFlow && s.indent < column then (s.insert k.number .mapStart).indentTo k.column else s
    return { s.pushOver 1 .value with keyAllowed := false }
  | none =>
    let s ← s.openHere .mapStart
    return { s.pushOver 1 .value with keyAllowed := !s.inFlow }

/-- A name, for the node that follows or of a node before. -/
def name (s : Scan) (token : List Char → Token) : Except Failure Scan := do
  let s ← s.rememberKey
  let (name, c) := s.place.next.takeWhile isNameChar
  let ends := isGap c.peek || ['?', ':', ',', ']', '\x7d', '%', '@', '\x60'].contains c.peek
  if name.isEmpty || !ends then throw .malformed
  return { (s.push (token name)).goTo c with keyAllowed := false }

/-- The tag of the node that follows. -/
def tag (s : Scan) : Except Failure Scan := do
  let s ← s.rememberKey
  let (t, c) ← writtenTag s.place
  return { (s.push (.tag t)).goTo c with keyAllowed := false }

/-- A block scalar. -/
def block (s : Scan) : Except Failure Scan := do
  let s ← s.forgetKey
  let (text, c) ← blockScalar s.indent s.place
  return { (s.push (.scalar text false)).goTo c with keyAllowed := true }

/-- A scalar in quotes. -/
def quoted (s : Scan) : Except Failure Scan := do
  let s ← s.rememberKey
  let (text, c) ← quotedScalar s.place
  return { (s.push (.scalar text false)).goTo c with keyAllowed := false }

/-- A plain scalar. A key may begin after it if it is followed by a line break. -/
def plain (s : Scan) : Except Failure Scan := do
  let s ← s.rememberKey
  let (text, broken, c) := plainScalar s.inFlow (s.indent + 1) s.place
  return { (s.push (.scalar text true)).goTo c with keyAllowed := broken }

/-- The characters that begin no plain scalar, gaps apart. -/
def indicators : List Char :=
  ['-', '?', ':', ',', '[', ']', '\x7b', '\x7d', '#', '&', '*', '!', '|', '>', '\'', '"', '%', '@',
    '\x60']

/-- A plain scalar begins with no indicator, except a dash, and outside flow collections a question
mark or colon, that no gap follows. -/
def beginsPlain (s : Scan) : Bool :=
  let c := s.place.peek
  (!isGap c && !indicators.contains c) ||
    (!isGap (s.place.peekAt 1) && (c == '-' || (!s.inFlow && (c == '?' || c == ':'))))

/-- The token at the cursor. -/
def token (s : Scan) : Except Failure Scan :=
  let c := s.place
  let gapFollows := isGap (c.peekAt 1)
  if c.peek == nul then s.streamEnd
  else if c.peek == '%' && c.column = 0 then s.directive
  else if c.peek == '-' && c.column = 0 && c.atMarker then s.marker .documentStart
  else if c.peek == '.' && c.column = 0 && c.atMarker then s.marker .documentEnd
  else if c.peek == '[' then s.flowStart .flowListStart
  else if c.peek == '\x7b' then s.flowStart .flowMapStart
  else if c.peek == ']' then s.flowEnd .flowListEnd
  else if c.peek == '\x7d' then s.flowEnd .flowMapEnd
  else if c.peek == ',' then s.flowItem
  else if c.peek == '-' && gapFollows then s.blockItem
  else if c.peek == '?' && (s.inFlow || gapFollows) then s.key
  else if c.peek == ':' && (s.inFlow || gapFollows) then s.value
  else if c.peek == '*' then s.name .reference
  else if c.peek == '&' then s.name .anchor
  else if c.peek == '!' then s.tag
  else if (c.peek == '|' || c.peek == '>') && !s.inFlow then s.block
  else if c.peek == '\'' || c.peek == '"' then s.quoted
  else if s.beginsPlain then s.plain
  else .error .malformed

/-- The next token, with the ends of the block collections that are over before it. -/
def next (s : Scan) : Except Failure Scan := do
  let s ← s.toToken.forgetStale
  (s.dedent s.place.column).token

/-- The tokens in front of the first one that may still turn out to begin a key. -/
def settled (s : Scan) : List Token :=
  let pending := (s.keys.filter fun k => !stale s.place k.2).map fun k => k.2.number
  (s.tokens.reverse).take (pending.foldl min s.count)

/-- All tokens from a state on; the last one is the end of the text or a failure. -/
def tokensFrom : Nat → Scan → List Token
  | 0, s => s.tokens.reverse
  | fuel + 1, s =>
    match s.next with
    | .error f => s.settled ++ [.failed f]
    | .ok s =>
      match s.tokens with
      | .streamEnd :: _ => s.tokens.reverse
      | _ => tokensFrom fuel s

end Scan

/-- The tokens of a text. -/
def tokens (text : List Char) : List Token := Scan.tokensFrom (text.length + 1) (.start text)

end FormRules.Yaml
