import FormRules.Yaml.Implicit
import FormRules.Yaml.Token

/-!
# Nodes

A document is a tree of nodes. A node that is referred to by its name stands in the tree again
wherever it is, except inside itself, where only its name is noted.
-/

namespace FormRules.Yaml

/-- A node of a document. -/
inductive Node where
  | scalar (tag : Tag) (text : List Char)
  | list (tag : Tag) (items : List Node)
  | map (tag : Tag) (entries : List (Node × Node))
  /-- a reference to a node around this place -/
  | cycle (name : List Char)
deriving Repr, Inhabited

namespace Node

/-- What the node is to become. -/
def tag : Node → Tag
  | scalar t _ | list t _ | map t _ => t
  | cycle _ => .unknown

/-- The node that stands where nothing is written. -/
def empty : Node := scalar .null []

/-- The node is a reference by the name. -/
def isCycle (name : List Char) : Node → Bool
  | cycle n => n == name
  | _ => false

/-- What a mapping with a name merges, less the mapping itself, which adds nothing. -/
def mergedOther (name : List Char) : Node → Node
  | list t items => list t (items.filter fun n => !n.isCycle name)
  | n => if n.isCycle name then map .map [] else n

/-- A node under its name, not merged into itself. -/
def withName (name : List Char) : Node → Node
  | map t es =>
    map t (es.map fun e => if e.1.tag = .merge then (e.1, e.2.mergedOther name) else e)
  | n => n

end Node

/-- The state in which tokens are put together to a document. -/
structure Reading where
  tokens : List Token
  /-- the named nodes; one that is not complete yet is missing -/
  anchors : List (List Char × Option Node)
  /-- what handles stand for -/
  handles : List (List Char × List Char)

/-- A reader of tokens. -/
abbrev Reader : Type → Type := StateT Reading (Except Failure)

namespace Reader

/-- The text is not well-formed. -/
def malformed {α : Type} : Reader α := throw .malformed

/-- The next token. -/
def peek : Reader Token := do
  match (← get).tokens with
  | [] => malformed
  | .failed f :: _ => throw f
  | t :: _ => return t

/-- Pass over the next token. -/
def drop : Reader Unit := modify fun r => { r with tokens := r.tokens.drop 1 }

/-- The name and the tag in front of a node, in either order. -/
def properties : Reader (Option (List Char) × Option WrittenTag) := do
  match ← peek with
  | .anchor a =>
    drop
    match ← peek with
    | .tag t =>
      drop
      return (some a, some t)
    | _ => return (some a, none)
  | .tag t =>
    drop
    match ← peek with
    | .anchor a =>
      drop
      return (some a, some t)
    | _ => return (none, some t)
  | _ => return (none, none)

/-- The full name of a tag, whose handle has to be known. -/
def fullName : Option WrittenTag → Reader (Option (List Char))
  | none => return none
  | some ⟨none, suffix⟩ => return some suffix
  | some ⟨some handle, suffix⟩ => do
    match (← get).handles.lookup handle with
    | some start => return some (start ++ suffix)
    | none => malformed

/-- The tag of a scalar. -/
def scalarTag (name : Option (List Char)) (text : List Char) (plain : Bool) : Tag :=
  match name with
  | none => if plain then implicitTag text else .text
  | some n => if n = ['!'] then implicitTag text else .ofName n

/-- The tag of a collection, which has a usual one. -/
def collectionTag (name : Option (List Char)) (usual : Tag) : Tag :=
  match name with
  | none => usual
  | some n => if n = ['!'] then usual else .ofName n

/-- Name a node that is complete, or that is not complete yet. -/
def setAnchor (name : List Char) (node : Option Node) : Reader Unit :=
  modify fun r => { r with anchors := (name, node) :: r.anchors }

/-- A node that gets its name before what is in it is read. No other node may have the name. -/
def named (anchor : Option (List Char)) (node : Reader Node) : Reader Node := do
  match anchor with
  | none => node
  | some a =>
    if ((← get).anchors.lookup a).isSome then malformed
    setAnchor a none
    let n := (← node).withName a
    setAnchor a (some n)
    return n

/-- The node that has a name. -/
def referredTo (name : List Char) : Reader Node := do
  match (← get).anchors.lookup name with
  | none => malformed
  | some none => return .cycle name
  | some (some n) => return n

/-- One of some tokens comes next. -/
def comes (ts : List Token) : Reader Bool := do return ts.contains (← peek)

/-- The tokens after which an entry of a block mapping has nothing. -/
def blockEnds : List Token := [.key, .value, .blockEnd]

mutual

/-- A node. Block collections are read in block context only, and a list without indentation only as
part of a mapping. The first argument bounds the nesting. -/
def node : Nat → Bool → Bool → Reader Node
  | 0, _, _ => malformed
  | fuel + 1, block, loose => do
    match ← peek with
    | .reference name =>
      drop
      referredTo name
    | _ =>
      let (anchor, written) ← properties
      let name ← fullName written
      let t ← peek
      match t, block with
      | .scalar text plain, _ =>
        drop
        named anchor (return .scalar (scalarTag name text plain) text)
      | .flowListStart, _ =>
        named anchor do
          drop
          return .list (collectionTag name .list) (← flowItems fuel true)
      | .flowMapStart, _ =>
        named anchor do
          drop
          return .map (collectionTag name .map) (← flowEntries fuel true)
      | .listStart, true =>
        named anchor do
          drop
          return .list (collectionTag name .list) (← blockItems fuel)
      | .mapStart, true =>
        named anchor do
          drop
          return .map (collectionTag name .map) (← blockEntries fuel)
      | _, _ =>
        if loose && t == .blockItem then
          named anchor do return .list (collectionTag name .list) (← looseItems fuel)
        else if anchor.isSome || name.isSome then
          named anchor (return .scalar (scalarTag name [] true) [])
        else malformed

/-- A node, or nothing in front of certain tokens. -/
def nodeBefore : Nat → List Token → Bool → Bool → Reader Node
  | 0, _, _, _ => malformed
  | fuel + 1, ends, block, loose => do
    if ← comes ends then return .empty else node fuel block loose

/-- The value of an entry, which may be missing. -/
def entryValue : Nat → List Token → Bool → Reader Node
  | 0, _, _ => malformed
  | fuel + 1, ends, block => do
    if ← comes [.value] then
      drop
      nodeBefore fuel ends block block
    else return .empty

/-- The items of a list in block form. -/
def blockItems : Nat → Reader (List Node)
  | 0 => malformed
  | fuel + 1 => do
    match ← peek with
    | .blockItem =>
      drop
      let item ← nodeBefore fuel [.blockItem, .blockEnd] true false
      return item :: (← blockItems fuel)
    | .blockEnd =>
      drop
      return []
    | _ => malformed

/-- The items of a list in block form that is not indented. -/
def looseItems : Nat → Reader (List Node)
  | 0 => malformed
  | fuel + 1 => do
    if ← comes [.blockItem] then
      drop
      let item ← nodeBefore fuel (.blockItem :: blockEnds) true false
      return item :: (← looseItems fuel)
    else return []

/-- The entries of a mapping in block form. -/
def blockEntries : Nat → Reader (List (Node × Node))
  | 0 => malformed
  | fuel + 1 => do
    match ← peek with
    | .key =>
      drop
      let key ← nodeBefore fuel blockEnds true true
      let value ← entryValue fuel blockEnds true
      return (key, value) :: (← blockEntries fuel)
    | .blockEnd =>
      drop
      return []
    | _ => malformed

/-- The items of a list in flow form. An entry with a key is a mapping of its own. -/
def flowItems : Nat → Bool → Reader (List Node)
  | 0, _ => malformed
  | fuel + 1, first => do
    if ← comes [.flowListEnd] then
      drop
      return []
    else
      if !first then
        if ← comes [.flowItem] then drop else malformed
      match ← peek with
      | .key =>
        drop
        let key ← nodeBefore fuel [.value, .flowItem, .flowListEnd] false false
        let value ← entryValue fuel [.flowItem, .flowListEnd] false
        return .map .map [(key, value)] :: (← flowItems fuel false)
      | .flowListEnd =>
        drop
        return []
      | _ =>
        let item ← node fuel false false
        return item :: (← flowItems fuel false)

/-- The entries of a mapping in flow form. -/
def flowEntries : Nat → Bool → Reader (List (Node × Node))
  | 0, _ => malformed
  | fuel + 1, first => do
    if ← comes [.flowMapEnd] then
      drop
      return []
    else
      if !first then
        if ← comes [.flowItem] then drop else malformed
      match ← peek with
      | .key =>
        drop
        let key ← nodeBefore fuel [.value, .flowItem, .flowMapEnd] false false
        let value ← entryValue fuel [.flowItem, .flowMapEnd] false
        return (key, value) :: (← flowEntries fuel false)
      | .flowMapEnd =>
        drop
        return []
      | _ =>
        let key ← node fuel false false
        return (key, .empty) :: (← flowEntries fuel false)

end

/-- The directives in front of a document; the version must be 1 if it is given, and nothing may be
given twice. -/
def directives : Nat → Bool → List (List Char × List Char) → Reader Unit
  | 0, _, _ => malformed
  | fuel + 1, versioned, handles => do
    match ← peek with
    | .directive d =>
      drop
      match d with
      | .version major =>
        if versioned || major != 1 then malformed
        directives fuel true handles
      | .handle h start =>
        if (handles.lookup h).isSome then malformed
        directives fuel versioned ((h, start) :: handles)
      | .other => directives fuel versioned handles
    | _ => modify fun r => { r with handles := handles ++ standardHandles }

/-- Pass over markers of the end of a document. -/
def documentEnds : Nat → Reader Unit
  | 0 => malformed
  | fuel + 1 => do
    if ← comes [.documentEnd] then
      drop
      documentEnds fuel

/-- The start of a document that is marked as such. -/
def documentStart (fuel : Nat) : Reader Unit := do
  directives fuel false []
  if ← comes [.documentStart] then drop else malformed

/-- The content of a document that is marked as such, which may be missing. -/
def content (fuel : Nat) : Reader Node := do
  match ← peek with
  | .directive _ | .documentStart | .documentEnd | .streamEnd => return .empty
  | _ => node fuel true false

/-- The end of a text, in which no other document may follow. -/
def finish (fuel : Nat) : Reader Unit := do
  documentEnds fuel
  if ← comes [.streamEnd] then return
  documentStart fuel
  malformed

/-- The only document of a text, if there is one. -/
def document (fuel : Nat) : Reader (Option Node) := do
  match ← peek with
  | .streamEnd => return none
  | .directive _ | .documentStart =>
    documentStart fuel
    let n ← content fuel
    finish fuel
    return some n
  | _ =>
    let n ← node fuel true false
    finish fuel
    return some n

end Reader

/-- The document that tokens make up, if there is one. -/
def Node.ofTokens (ts : List Token) : Except Failure (Option Node) := do
  let (n, _) ← (Reader.document (4 * ts.length + 8)).run ⟨ts, [], standardHandles⟩
  return n

end FormRules.Yaml
