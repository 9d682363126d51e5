import FormRules.Yaml.Node
import FormRules.Yaml.Scalar.Value

/-!
# The values of nodes

Values are made in rounds: a scalar at once, the content of a collection in the round after the one
in which the collection was met. So of several failures the one that counts is not the first in the
text, but the first of the earliest round. A node is therefore built into a value together with the
first failure of every round.
-/

namespace FormRules.Yaml

/-- The first failure of every round. -/
abbrev Rounds : Type := List (Option Failure)

namespace Rounds

/-- The failures of two parts, of which the first comes first. -/
def join : Rounds → Rounds → Rounds
  | [], b => b
  | a, [] => a
  | x :: a, y :: b => (x.or y) :: join a b

/-- The failures of several parts in order. -/
def joinAll (rs : List Rounds) : Rounds := rs.foldr join []

/-- A failure in this round. -/
def now (f : Option Failure) : Rounds := [f]

/-- What fails a round later. -/
def later (r : Rounds) : Rounds := none :: r

/-- The failure that counts. -/
def first? : Rounds → Option Failure
  | [] => none
  | some f :: _ => some f
  | none :: r => first? r

end Rounds

/-- A node built: its value, which means nothing if there are failures, the failures, whether a
mapping or list is reached from itself through mappings and lists, and whether it is the `nan` that
all its names share. -/
structure Built where
  value : Value
  rounds : Rounds
  cyclic : Bool := false
  shared : Bool := false

/-- A key of a table that is built. The `nan` that all its names share is one key, though it is not
equal to itself. -/
structure Key where
  value : Value
  shared : Bool

instance : BEq Key := ⟨fun k l => k.value == l.value || k.shared && l.shared⟩

namespace Built

/-- A value that is made at once. -/
def ofResult (r : Except Failure Value) (shared : Bool := false) : Built :=
  match r with
  | .ok v => { value := v, rounds := [], shared }
  | .error f => { value := .null, rounds := .now (some f) }

/-- A node that fails when its content is made. -/
def failLater : Built := { value := .list [], rounds := .later (.now (some .malformed)) }

/-- A node that fails at once. -/
def failNow : Built := ofResult (.error .malformed)

/-- What is missing in the place of a node that holds itself. Like every collection that is not
complete it is no key. -/
def cycle : Built := { value := .list [], rounds := [], cyclic := true }

/-- The failures of an entry: those of its key, which has to be one, and those of its value. -/
def entryRounds (e : Built × Built) : Rounds :=
  .joinAll
    [e.1.rounds, .now (if e.1.value.hashable then none else some .malformed), e.2.rounds]

/-- One of two parts holds the whole. -/
def entryCyclic (e : Built × Built) : Bool := e.1.cyclic || e.2.cyclic

/-- A list. -/
def ofItems (items : List Built) : Built :=
  { value := .list (items.map Built.value)
    rounds := .later (.joinAll (items.map Built.rounds))
    cyclic := items.any Built.cyclic }

/-- The entries as a table of keys. -/
def keyTable (entries : List (Built × Built)) : Table Key Value :=
  .ofList (entries.map fun e => (⟨e.1.value, e.1.shared⟩, e.2.value))

/-- The entries as a table. -/
def table (entries : List (Built × Built)) : Table Value Value :=
  ⟨(keyTable entries).entries.map fun e => (e.1.value, e.2)⟩

/-- A mapping, or another collection that is made from a table. -/
def ofEntries (make : Table Value Value → Value) (failure : Option Failure)
    (entries : List (Built × Built)) : Built :=
  { value := make (table entries)
    rounds := .later (.joinAll (.now failure :: entries.map entryRounds))
    cyclic := entries.any entryCyclic }

/-- A set. The values of its entries are made, but nothing holds them. -/
def ofMembers (failure : Option Failure) (entries : List (Built × Built)) : Built :=
  { ofEntries (fun t => .set t.keys) failure entries with cyclic := false }

/-- A list of pairs; an item that is no pair fails in its turn. What holds itself by way of a pair
can be walked to its end, and is cut off inside of the pair. -/
def ofPairs (pairs : List (Option (Built × Built))) : Built :=
  { value := .list (pairs.filterMap fun p => p.map fun e => .tuple [e.1.value, e.2.value])
    rounds := .later (.joinAll (pairs.map fun p =>
      match p with
      | some e => .join e.1.rounds e.2.rounds
      | none => .now (some .malformed))) }

end Built

/-- The entries of a mapping: those that are merged into it, its own, and the failure of a merge. -/
structure Entries where
  merged : List (Built × Built)
  own : List (Built × Built)
  failure : Option Failure

/-- All entries; merged ones come first, so that the mapping's own win. -/
def Entries.all (e : Entries) : List (Built × Built) := e.merged ++ e.own

namespace Node

mutual

/-- The text of a node where a scalar is needed. A mapping stands for the value of its `=` key. -/
def scalarText : Node → Except Failure (List Char)
  | .scalar _ s => .ok s
  | .map _ es => defaultText es
  | .list _ _ => .error .malformed
  | .cycle _ => .error (.fault .tooDeep)

/-- The text of the value of the first `=` key. -/
def defaultText : List (Node × Node) → Except Failure (List Char)
  | [] => .error .malformed
  | (k, v) :: es => if k.tag = .value then v.scalarText else defaultText es

end

/-- A node that is no scalar under a tag of scalars. -/
def asScalar (tag : Tag) (n : Node) : Except Failure Value := do
  let s ← n.scalarText
  if tag = .timestamp then .error (.fault .notAText) else scalarValue tag s

/-- The node names `nan` where a number is needed. -/
def isNan (tag : Tag) (n : Node) : Bool :=
  tag = .float && match n.scalarText with
    | .ok s => namesNan s
    | .error _ => false

mutual

/-- A node built. -/
def build : Node → Built
  | .cycle _ => .cycle
  | .scalar tag s =>
    match tag with
    | .list | .map | .set | .orderedMap | .pairs => .failLater
    | tag => .ofResult (scalarValue tag s) (isNan tag (.scalar tag s))
  | .list tag items =>
    match tag with
    | .list => .ofItems (buildAll items)
    | .orderedMap | .pairs => .ofPairs (pairsOf items)
    | .map | .set => .failLater
    | _ => .failNow
  | .map tag es =>
    match tag with
    | .map =>
      let entries := entriesOf es
      .ofEntries .ofTable entries.failure entries.all
    | .set =>
      let entries := entriesOf es
      .ofMembers entries.failure entries.all
    | .list | .orderedMap | .pairs => .failLater
    | tag => .ofResult (asScalar tag (.map tag es)) (isNan tag (.map tag es))

/-- Nodes built. -/
def buildAll : List Node → List Built
  | [] => []
  | n :: ns => n.build :: buildAll ns

/-- The only entry of each mapping. -/
def pairsOf : List Node → List (Option (Built × Built))
  | [] => []
  | .map _ [(k, v)] :: ns => some (k.build, v.build) :: pairsOf ns
  | _ :: ns => none :: pairsOf ns

/-- The entries of a mapping with what is merged into it. -/
def entriesOf : List (Node × Node) → Entries
  | [] => ⟨[], [], none⟩
  | (k, v) :: es =>
    let rest := entriesOf es
    if k.tag = .merge then
      let (merged, failure, _) := mergeOf v
      { rest with merged := merged ++ rest.merged, failure := failure.or rest.failure }
    else
      let key := if k.tag = .value then .ofResult (asScalar .text k) else k.build
      { rest with own := (key, v.build) :: rest.own }

/-- The entries that a node gives to a mapping that it is merged into, in a list or alone. -/
def mergeOf : Node → List (Built × Built) × Option Failure × Bool
  | .map _ es =>
    let entries := entriesOf es
    (entries.all, entries.failure, true)
  | .list _ items =>
    let (merged, failure) := mergeAll items
    (merged, failure, false)
  | .cycle _ => ([({ value := .null, rounds := [] }, .cycle)], none, true)
  | .scalar _ _ => ([], some .malformed, false)

/-- The entries that the mappings of a list give; those of earlier mappings win and so come
later. -/
def mergeAll : List Node → List (Built × Built) × Option Failure
  | [] => ([], none)
  | n :: ns =>
    let (merged, failure, isMap) := mergeOf n
    let (others, failures) := mergeAll ns
    (others ++ merged, (if isMap then failure else some .malformed).or failures)

end

/-- The value of a document. A value that cannot be walked to its end is too deep. -/
def toValue (n : Node) : Except Failure Value :=
  let b := n.build
  match b.rounds.first? with
  | some f => .error f
  | none => if b.cyclic then .error (.fault .tooDeep) else .ok b.value

end Node

end FormRules.Yaml
