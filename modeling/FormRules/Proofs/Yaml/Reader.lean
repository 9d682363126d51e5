import FormRules.Proofs.Yaml.Scan
import FormRules.Yaml.Node

/-!
# What stops the reader of tokens

The reader puts tokens together to a tree of nodes. It only ever passes over tokens, so besides
tokens that make up no document there is one thing that stops it: the failure that the last token
tells (`Sparing`).
-/

namespace FormRules.Yaml

namespace Reading

/-- Every failure that a token tells has a property. -/
def Tells (S : Failure → Prop) (r : Reading) : Prop :=
  ∀ failure, .failed failure ∈ r.tokens → S failure

/-- A reading whose failures are known is so without its first token. -/
theorem Tells.drop {S : Failure → Prop} {r : Reading} (h : r.Tells S) :
    { r with tokens := r.tokens.drop 1 }.Tells S :=
  fun failure hmem => h failure (List.mem_of_mem_drop hmem)

end Reading

namespace Reader

variable {α β : Type} {S : Failure → Prop}

/-- A reader that fails only for what is malformed or told by a token, and makes up no such
tokens. -/
def Sparing (S : Failure → Prop) (m : Reader α) : Prop :=
  ∀ r : Reading, r.Tells S → Gives (fun p => p.2.Tells S) S (m r)

namespace Sparing

theorem pure (a : α) : Sparing S (Pure.pure a : Reader α) := fun _ hr => hr

/-- Two readers one after the other spare what both spare. -/
theorem bind {m : Reader α} {f : α → Reader β} (hm : Sparing S m) (hf : ∀ a, Sparing S (f a)) :
    Sparing S (m >>= f) :=
  fun r hr => (hm r hr).bind fun p hp => hf p.1 p.2 hp

/-- A choice of readers spares what both spare. -/
theorem ite {c : Prop} [Decidable c] {m n : Reader α} (hm : Sparing S m) (hn : Sparing S n) :
    Sparing S (if c then m else n) := by
  split
  · exact hm
  · exact hn

theorem get : Sparing S (get : Reader Reading) := fun _ hr => hr

theorem drop : Sparing S drop := fun _ hr => hr.drop

/-- Naming a node fails for no cause of its own. -/
theorem setAnchor (name : List Char) (node : Option Node) : Sparing S (setAnchor name node) :=
  fun _ hr => hr

variable (hS : S .malformed)
include hS

/-- A reader that gives up on the notation does so without a fault. -/
theorem malformed : Sparing S (malformed : Reader α) := fun _ _ => hS

/-- Looking at the next token tells the failures of the tokens only. -/
theorem peek : Sparing S peek := by
  intro r hr
  obtain ⟨tokens, anchors, handles⟩ := r
  cases tokens with
  | nil => exact hS
  | cons t ts =>
    cases t with
    | failed failure => exact hr failure List.mem_cons_self
    | _ => exact hr

theorem comes (ts : List Token) : Sparing S (comes ts) := (peek hS).bind fun _ => .pure _

/-- The anchor and the tag of a node are read without new failures. -/
theorem properties : Sparing S properties := by
  unfold Reader.properties
  refine (peek hS).bind fun t => ?_
  split
  · refine drop.bind fun _ => (peek hS).bind fun t => ?_
    split
    · exact drop.bind fun _ => .pure _
    · exact .pure _
  · refine drop.bind fun _ => (peek hS).bind fun t => ?_
    split
    · exact drop.bind fun _ => .pure _
    · exact .pure _
  · exact .pure _

/-- So is the full name of a tag. -/
theorem fullName (written : Option WrittenTag) : Sparing S (fullName written) := by
  unfold Reader.fullName
  split
  · exact .pure _
  · exact .pure _
  · refine get.bind fun r => ?_
    split
    · exact .pure _
    · exact malformed hS

/-- A node with an anchor fails as the node does. -/
theorem named (anchor : Option (List Char)) {node : Reader Node} (h : Sparing S node) :
    Sparing S (named anchor node) := by
  unfold Reader.named
  split
  · exact h
  · refine get.bind fun r => .ite (malformed hS) ?_
    exact (setAnchor _ _).bind fun _ => h.bind fun _ => (setAnchor _ _).bind fun _ => .pure _

/-- Looking up what an alias refers to fails for no cause of its own. -/
theorem referredTo (name : List Char) : Sparing S (referredTo name) := by
  unfold Reader.referredTo
  refine get.bind fun r => ?_
  split
  · exact malformed hS
  · exact .pure _
  · exact .pure _

end Sparing

/-- The readers of nodes and of what is in them, for one bound of the nesting. -/
structure AllSparing (S : Failure → Prop) (fuel : Nat) : Prop where
  node (block loose : Bool) : Sparing S (node fuel block loose)
  nodeBefore (ends : List Token) (block loose : Bool) : Sparing S (nodeBefore fuel ends block loose)
  entryValue (ends : List Token) (block : Bool) : Sparing S (entryValue fuel ends block)
  blockItems : Sparing S (blockItems fuel)
  looseItems : Sparing S (looseItems fuel)
  blockEntries : Sparing S (blockEntries fuel)
  flowItems (first : Bool) : Sparing S (flowItems fuel first)
  flowEntries (first : Bool) : Sparing S (flowEntries fuel first)

namespace AllSparing

variable {fuel : Nat} (hS : S .malformed)
include hS

/-- Readers without fuel give up on the notation. -/
theorem zero : AllSparing S 0 where
  node _ _ := .malformed hS
  nodeBefore _ _ _ := .malformed hS
  entryValue _ _ := .malformed hS
  blockItems := .malformed hS
  looseItems := .malformed hS
  blockEntries := .malformed hS
  flowItems _ := .malformed hS
  flowEntries _ := .malformed hS

/-- A node is read by the readers of its kinds, with one unit less of fuel. -/
theorem node_succ (h : AllSparing S fuel) (block loose : Bool) :
    Sparing S (Reader.node (fuel + 1) block loose) := by
  unfold Reader.node
  refine (Sparing.peek hS).bind fun t => ?_
  split
  · exact Sparing.drop.bind fun _ => .referredTo hS _
  · refine (Sparing.properties hS).bind fun r => (Sparing.fullName hS _).bind fun name => ?_
    refine (Sparing.peek hS).bind fun t => ?_
    split
    · exact Sparing.drop.bind fun _ => .named hS _ (.pure _)
    · exact .named hS _ (Sparing.drop.bind fun _ => (h.flowItems true).bind fun _ => .pure _)
    · exact .named hS _ (Sparing.drop.bind fun _ => (h.flowEntries true).bind fun _ => .pure _)
    · exact .named hS _ (Sparing.drop.bind fun _ => h.blockItems.bind fun _ => .pure _)
    · exact .named hS _ (Sparing.drop.bind fun _ => h.blockEntries.bind fun _ => .pure _)
    · refine .ite (.named hS _ (h.looseItems.bind fun _ => .pure _)) ?_
      exact .ite (.named hS _ (.pure _)) (.malformed hS)

theorem nodeBefore_succ (h : AllSparing S fuel) (ends : List Token) (block loose : Bool) :
    Sparing S (Reader.nodeBefore (fuel + 1) ends block loose) :=
  (Sparing.comes hS ends).bind fun _ => .ite (.pure _) (h.node block loose)

theorem entryValue_succ (h : AllSparing S fuel) (ends : List Token) (block : Bool) :
    Sparing S (Reader.entryValue (fuel + 1) ends block) :=
  (Sparing.comes hS _).bind fun _ =>
    .ite (Sparing.drop.bind fun _ => h.nodeBefore ends block block) (.pure _)

theorem blockItems_succ (h : AllSparing S fuel) : Sparing S (Reader.blockItems (fuel + 1)) := by
  unfold Reader.blockItems
  refine (Sparing.peek hS).bind fun t => ?_
  split
  · refine Sparing.drop.bind fun _ => (h.nodeBefore _ _ _).bind fun _ => ?_
    exact h.blockItems.bind fun _ => .pure _
  · exact Sparing.drop.bind fun _ => .pure _
  · exact .malformed hS

theorem looseItems_succ (h : AllSparing S fuel) : Sparing S (Reader.looseItems (fuel + 1)) := by
  unfold Reader.looseItems
  refine (Sparing.comes hS _).bind fun _ => .ite ?_ (.pure _)
  refine Sparing.drop.bind fun _ => (h.nodeBefore _ _ _).bind fun _ => ?_
  exact h.looseItems.bind fun _ => .pure _

/-- The entries of a block mapping are read one by one. -/
theorem blockEntries_succ (h : AllSparing S fuel) : Sparing S (Reader.blockEntries (fuel + 1)) := by
  unfold Reader.blockEntries
  refine (Sparing.peek hS).bind fun t => ?_
  split
  · refine Sparing.drop.bind fun _ => (h.nodeBefore _ _ _).bind fun _ => ?_
    exact (h.entryValue _ _).bind fun _ => h.blockEntries.bind fun _ => .pure _
  · exact Sparing.drop.bind fun _ => .pure _
  · exact .malformed hS

/-- The comma in front of all entries of a flow collection but the first. -/
theorem comma {m : Reader α} (first : Bool) (hm : Sparing S m) :
    Sparing S (do
      if !first then
        if ← Reader.comes [.flowItem] then Reader.drop else Reader.malformed
      m) := by
  refine .ite ?_ hm
  exact (Sparing.comes hS _).bind fun _ =>
    .ite (Sparing.drop.bind fun _ => hm) ((Sparing.malformed hS).bind fun _ => hm)

/-- The items of a flow list are read one by one. -/
theorem flowItems_succ (h : AllSparing S fuel) (first : Bool) :
    Sparing S (Reader.flowItems (fuel + 1) first) := by
  unfold Reader.flowItems
  refine (Sparing.comes hS _).bind fun _ => .ite (Sparing.drop.bind fun _ => .pure _) ?_
  refine comma hS first ((Sparing.peek hS).bind fun t => ?_)
  split
  · refine Sparing.drop.bind fun _ => (h.nodeBefore _ _ _).bind fun _ => ?_
    exact (h.entryValue _ _).bind fun _ => (h.flowItems false).bind fun _ => .pure _
  · exact Sparing.drop.bind fun _ => .pure _
  · exact (h.node _ _).bind fun _ => (h.flowItems false).bind fun _ => .pure _

/-- The entries of a flow mapping are read one by one. -/
theorem flowEntries_succ (h : AllSparing S fuel) (first : Bool) :
    Sparing S (Reader.flowEntries (fuel + 1) first) := by
  unfold Reader.flowEntries
  refine (Sparing.comes hS _).bind fun _ => .ite (Sparing.drop.bind fun _ => .pure _) ?_
  refine comma hS first ((Sparing.peek hS).bind fun t => ?_)
  split
  · refine Sparing.drop.bind fun _ => (h.nodeBefore _ _ _).bind fun _ => ?_
    exact (h.entryValue _ _).bind fun _ => (h.flowEntries false).bind fun _ => .pure _
  · exact Sparing.drop.bind fun _ => .pure _
  · exact (h.node _ _).bind fun _ => (h.flowEntries false).bind fun _ => .pure _

/-- The readers of one bound only call those of the bound below. -/
theorem all (fuel : Nat) : AllSparing S fuel := by
  induction fuel with
  | zero => exact zero hS
  | succ fuel ih =>
    exact
      { node := node_succ hS ih
        nodeBefore := nodeBefore_succ hS ih
        entryValue := entryValue_succ hS ih
        blockItems := blockItems_succ hS ih
        looseItems := looseItems_succ hS ih
        blockEntries := blockEntries_succ hS ih
        flowItems := flowItems_succ hS ih
        flowEntries := flowEntries_succ hS ih }

end AllSparing

namespace Sparing

variable (hS : S .malformed)
include hS

/-- The directives of a document are read without new failures. -/
theorem directives (fuel : Nat) (versioned : Bool) (handles : List (List Char × List Char)) :
    Sparing S (directives fuel versioned handles) := by
  induction fuel generalizing versioned handles with
  | zero => exact malformed hS
  | succ fuel ih =>
    unfold Reader.directives
    refine (peek hS).bind fun t => ?_
    split
    · refine drop.bind fun _ => ?_
      split
      · exact .ite (malformed hS) (ih _ _)
      · exact .ite (malformed hS) (ih _ _)
      · exact ih _ _
    · -- only what the handles stand for is changed
      exact fun _ hr => hr

/-- The ends of documents are read without new failures. -/
theorem documentEnds (fuel : Nat) : Sparing S (documentEnds fuel) := by
  induction fuel with
  | zero => exact malformed hS
  | succ fuel ih =>
    exact (comes hS _).bind fun _ => .ite (drop.bind fun _ => ih) (.pure _)

theorem documentStart (fuel : Nat) : Sparing S (documentStart fuel) :=
  (directives hS fuel false []).bind fun _ => (comes hS _).bind fun _ => .ite drop (malformed hS)

/-- The content of a document is read by the reader of nodes. -/
theorem content (fuel : Nat) : Sparing S (content fuel) := by
  unfold Reader.content
  refine (peek hS).bind fun t => ?_
  split
  all_goals first | exact .pure _ | exact (AllSparing.all hS fuel).node true false

theorem finish (fuel : Nat) : Sparing S (finish fuel) :=
  (documentEnds hS fuel).bind fun _ => (comes hS _).bind fun _ =>
    .ite (.pure _) ((documentStart hS fuel).bind fun _ => malformed hS)

/-- Reading a document tells the failures of its tokens only. -/
theorem document (fuel : Nat) : Sparing S (document fuel) := by
  have hnode := (AllSparing.all hS fuel).node true false
  have hmarked : Sparing S (do
      Reader.documentStart fuel
      let n ← Reader.content fuel
      Reader.finish fuel
      return some n) :=
    (documentStart hS fuel).bind fun _ => (content hS fuel).bind fun _ =>
      (finish hS fuel).bind fun _ => .pure _
  unfold Reader.document
  refine (peek hS).bind fun t => ?_
  split
  · exact .pure _
  · exact hmarked
  · exact hmarked
  · exact hnode.bind fun _ => (finish hS fuel).bind fun _ => .pure _

end Sparing

end Reader

/-- Tokens that make up no document are malformed, or the last of them tells a failure. -/
theorem Node.told_of_ofTokens {ts : List Token} {fault : Fault}
    (h : Node.ofTokens ts = .error (.fault fault)) : .failed (.fault fault) ∈ ts := by
  let S (failure : Failure) : Prop := ∀ fault, failure = .fault fault → .failed (.fault fault) ∈ ts
  have hS : S .malformed := nofun
  have hstart : Reading.Tells S ⟨ts, [], standardHandles⟩ := by
    intro failure hmem fault hfault
    subst hfault
    exact hmem
  have hread : Gives (fun _ => True) S (Node.ofTokens ts) :=
    (Reader.Sparing.document hS (4 * ts.length + 8) _ hstart).bind fun _ _ => trivial
  rw [h] at hread
  exact hread fault rfl

end FormRules.Yaml
