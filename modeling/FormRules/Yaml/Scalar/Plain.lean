import FormRules.Yaml.Cursor

/-!
# Plain scalars

A scalar without quotes goes on until an indicator ends it: a colon in front of a gap, a comment
after a gap, or in a flow collection one of its indicators. Over several lines, each must be
indented; a line break becomes a space, and of several line breaks all but the first are kept.
-/

namespace FormRules.Yaml

open Cursor

/-- The indicators of flow collections that end a plain scalar inside one. -/
def flowIndicators : List Char := [',', '?', '[', ']', '\x7b', '\x7d']

/-- The indicators that make a colon in front of them a separator inside a flow collection. -/
def flowEnds : List Char := [',', '[', ']', '\x7b', '\x7d']

/-- A plain scalar ends in front of a character that is followed by another. -/
def endsPlain (inFlow : Bool) (c next : Char) : Bool :=
  isGap c || (c == ':' && (isGap next || (inFlow && flowEnds.contains next))) ||
    (inFlow && flowIndicators.contains c)

/-- The part of a plain scalar up to the next gap. -/
def plainRun (inFlow : Bool) : List Char → List Char
  | [] => []
  | c :: s => if endsPlain inFlow c (s.headD nul) then [] else c :: plainRun inFlow s

/-- The line breaks after the first one in a gap, unless a document marker ends the gap, and the
place after the gap; the first argument bounds its length. -/
def plainBreaks : Nat → Cursor → Option (List Char) × Cursor
  | 0, c => (some [], c)
  | fuel + 1, c =>
    if c.peek == ' ' then plainBreaks fuel c.next
    else
      match c.lineBreak? with
      | none => (some [], c)
      | some (b, c) =>
        if c.atMarker then (none, c)
        else
          let (breaks, c) := plainBreaks fuel c
          (breaks.map (b :: ·), c)

/-- What a first line break and those after it stand for inside a scalar: a single line feed is a
space, and of more the first is dropped. -/
def foldBreaks (first : Char) (breaks : List Char) : List Char :=
  (if first != '\n' then [first] else if breaks.isEmpty then [' '] else []) ++ breaks

/-- What a gap in a plain scalar stands for, nothing if the scalar cannot go on after it; whether it
has line breaks, and the place after it. -/
def plainGap (c : Cursor) : List Char × Bool × Cursor :=
  let (spaces, c) := c.takeWhile (· == ' ')
  match c.lineBreak? with
  | none => (spaces, false, c)
  | some (first, c) =>
    if c.atMarker then ([], true, c)
    else
      match plainBreaks c.rest.length c with
      | (some breaks, c) => (foldBreaks first breaks, true, c)
      | (none, c) => ([], true, c)

/-- The rest of a plain scalar after a gap, which has line breaks or not: the text, whether the
scalar ended with a gap that has line breaks, and the place after it. Lines have to be indented by
`indent` outside flow collections. -/
def plainFrom (inFlow : Bool) (indent : Int) : Nat → List Char → Bool → Cursor →
    List Char × Bool × Cursor
  | 0, _, broken, c => ([], broken, c)
  | fuel + 1, gap, broken, c =>
    let run := if c.peek == '#' then [] else plainRun inFlow c.rest
    if run.isEmpty then ([], broken, c)
    else
      let (next, broken, c) := plainGap (c.skip run.length)
      if next.isEmpty || c.peek == '#' || (!inFlow && c.column < indent) then
        (gap ++ run, broken, c)
      else
        let (text, broken, c) := plainFrom inFlow indent fuel next broken c
        (gap ++ run ++ text, broken, c)

/-- A plain scalar: its text, whether a gap with line breaks follows it, and the place after it. -/
def plainScalar (inFlow : Bool) (indent : Int) (c : Cursor) : List Char × Bool × Cursor :=
  plainFrom inFlow indent c.rest.length [] false c

end FormRules.Yaml
