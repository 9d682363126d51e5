import FormRules.Proofs.Yaml.Reader
import FormRules.Proofs.Yaml.Spelling
import FormRules.Yaml.Document

/-!
# What stops the making of values

A tree of nodes fails to become a value when something in it is malformed, and for a few causes that
are found in single nodes (`Node.Trouble`). Together with those that stop the scanner these are all
causes for which a text has no value although nothing in it need be malformed (`Caused`).
-/

namespace FormRules.Yaml

namespace Rounds

variable {f : Failure}

/-- A failure of rounds that are joined is one of either. -/
theorem mem_join {a b : Rounds} (h : some f ∈ a.join b) : some f ∈ a ∨ some f ∈ b := by
  induction a, b using join.induct with
  | case1 b => exact .inr h
  | case2 a ha =>
    rw [join.eq_2 a ha] at h
    exact .inl h
  | case3 x a y b ih =>
    rw [join] at h
    rcases List.mem_cons.mp h with heq | hmem
    · rcases x with _ | x
      · exact .inr (heq ▸ List.mem_cons_self)
      · exact .inl (heq ▸ List.mem_cons_self)
    · exact (ih hmem).imp (List.mem_cons_of_mem x) (List.mem_cons_of_mem y)

/-- So it is with any number of them. -/
theorem mem_joinAll {rs : List Rounds} (h : some f ∈ joinAll rs) : ∃ r ∈ rs, some f ∈ r := by
  induction rs with
  | nil => exact absurd h List.not_mem_nil
  | cons r rs ih =>
    rcases mem_join h with hmem | hmem
    · exact ⟨r, List.mem_cons_self, hmem⟩
    · obtain ⟨r', hr', hmem⟩ := ih hmem
      exact ⟨r', List.mem_cons_of_mem r hr', hmem⟩

/-- The first failure is one of the failures. -/
theorem mem_of_first? {r : Rounds} (h : r.first? = some f) : some f ∈ r := by
  induction r with
  | nil => cases h
  | cons x r ih =>
    cases x with
    | none => exact List.mem_cons_of_mem none (ih h)
    | some f' => exact h ▸ List.mem_cons_self

end Rounds

namespace Node

/-- What in a tree of nodes makes no value although nothing in it need be malformed. -/
inductive Trouble : Node → Fault → Prop
  /-- a scalar that spells no value of its kind -/
  | scalar {tag : Tag} {s : List Char} {fault : Fault}
    (h : scalarValue tag s = .error (.fault fault)) :
      Trouble (.scalar tag s) fault
  /-- a mapping in the place of a scalar, whose `=` entry spells no value of that kind -/
  | standIn {tag : Tag} {es : List (Node × Node)} {s : List Char} {fault : Fault}
      (hs : (map tag es).scalarText = .ok s) (h : scalarValue tag s = .error (.fault fault)) :
      Trouble (.map tag es) fault
  /-- a mapping in the place of a timestamp -/
  | timestamp {es : List (Node × Node)} {s : List Char}
    (hs : (map .timestamp es).scalarText = .ok s) :
      Trouble (.map .timestamp es) .notAText
  /-- a reference to a node around it -/
  | cycle {name : List Char} : Trouble (.cycle name) .tooDeep
  /-- trouble in an item of a list -/
  | item {tag : Tag} {items : List Node} {n : Node} {fault : Fault} (hn : n ∈ items)
      (h : Trouble n fault) : Trouble (.list tag items) fault
  /-- trouble in a key of a mapping -/
  | key {tag : Tag} {es : List (Node × Node)} {k v : Node} {fault : Fault} (he : (k, v) ∈ es)
      (h : Trouble k fault) : Trouble (.map tag es) fault
  /-- trouble in a value of a mapping -/
  | value {tag : Tag} {es : List (Node × Node)} {k v : Node} {fault : Fault} (he : (k, v) ∈ es)
      (h : Trouble v fault) : Trouble (.map tag es) fault

/-- Trouble in one of several nodes. -/
def ItemTrouble (ns : List Node) (fault : Fault) : Prop := ∃ n ∈ ns, n.Trouble fault

/-- Trouble in one of several entries. -/
def EntryTrouble (es : List (Node × Node)) (fault : Fault) : Prop :=
  ∃ e ∈ es, e.1.Trouble fault ∨ e.2.Trouble fault

/-- The trouble of an item is trouble of the list. -/
theorem Trouble.ofItem {tag : Tag} {items : List Node} {fault : Fault}
    (h : ItemTrouble items fault) :
    (list tag items).Trouble fault := by
  obtain ⟨n, hn, h⟩ := h
  exact .item hn h

/-- The trouble of an entry is trouble of the mapping. -/
theorem Trouble.ofEntry {tag : Tag} {es : List (Node × Node)} {fault : Fault}
    (h : EntryTrouble es fault) :
    (map tag es).Trouble fault := by
  obtain ⟨e, he, h | h⟩ := h
  · exact .key he h
  · exact .value he h

end Node

namespace Built

/-- All faults of a built node have a property. -/
structure Only (S : Fault → Prop) (b : Built) : Prop where
  rounds : ∀ fault, some (.fault fault) ∈ b.rounds → S fault
  cyclic : b.cyclic = true → S .tooDeep

namespace Only

variable {S S' : Fault → Prop} {b : Built}

/-- What fails for some causes only does so for more causes. -/
theorem mono (h : b.Only S) (hS : ∀ fault, S fault → S' fault) : b.Only S' :=
  ⟨fun fault hmem => hS fault (h.rounds fault hmem), fun hcyclic => hS _ (h.cyclic hcyclic)⟩

theorem ofResult {r : Except Failure Value} {shared : Bool}
    (h : ∀ fault, r = .error (.fault fault) → S fault) :
    (ofResult r shared).Only S := by
  cases r with
  | ok v => exact ⟨nofun, nofun⟩
  | error f =>
    refine ⟨fun fault hmem => h fault ?_, nofun⟩
    rw [← Option.some.inj (List.mem_singleton.mp hmem)]

theorem failNow : failNow.Only S := ofResult nofun

theorem failLater : failLater.Only S := by
  refine ⟨fun fault hmem => ?_, nofun⟩
  simp [Built.failLater, Rounds.later, Rounds.now] at hmem

/-- A node inside itself is too deep. -/
theorem cycle (h : S .tooDeep) : Built.cycle.Only S := ⟨nofun, fun _ => h⟩

/-- What fails a round later is no fault of this round. -/
theorem mem_of_later {r : Rounds} {fault : Fault} (h : some (.fault fault) ∈ r.later) :
    some (.fault fault) ∈ r :=
  (List.mem_cons.mp h).resolve_left nofun

/-- A list fails as its items do. -/
theorem ofItems {items : List Built} (h : ∀ b ∈ items, b.Only S) : (ofItems items).Only S where
  rounds fault hmem := by
    obtain ⟨r, hr, hmem⟩ := Rounds.mem_joinAll (mem_of_later hmem)
    obtain ⟨b, hb, rfl⟩ := List.mem_map.mp hr
    exact (h b hb).rounds fault hmem
  cyclic hcyclic := by
    obtain ⟨b, hb, hcyclic⟩ := List.any_eq_true.mp hcyclic
    exact (h b hb).cyclic hcyclic

/-- All faults of an entry have a property. -/
def entry (S : Fault → Prop) (e : Built × Built) : Prop := e.1.Only S ∧ e.2.Only S

theorem entry.mono {e : Built × Built} (h : entry S e) (hS : ∀ fault, S fault → S' fault) :
    entry S' e :=
  ⟨h.1.mono hS, h.2.mono hS⟩

/-- The failures of an entry are those of its key and its value. -/
theorem entryRounds {e : Built × Built} (h : entry S e) {fault : Fault}
    (hmem : some (.fault fault) ∈ Built.entryRounds e) : S fault := by
  obtain ⟨r, hr, hmem⟩ := Rounds.mem_joinAll hmem
  simp only [List.mem_cons, List.not_mem_nil, or_false] at hr
  rcases hr with rfl | rfl | rfl
  · exact h.1.rounds fault hmem
  · rw [Rounds.now, List.mem_singleton] at hmem
    split at hmem <;> cases hmem
  · exact h.2.rounds fault hmem

/-- An entry that leads back to itself is too deep. -/
theorem entryCyclic {e : Built × Built} (h : entry S e) (hcyclic : Built.entryCyclic e = true) :
    S .tooDeep := by
  rw [Built.entryCyclic, Bool.or_eq_true] at hcyclic
  exact hcyclic.elim h.1.cyclic h.2.cyclic

/-- A mapping fails as its entries do. -/
theorem ofEntries (make : Table Value Value → Value) {failure : Option Failure}
    {entries : List (Built × Built)} (hfailure : ∀ fault, failure ≠ some (.fault fault))
    (h : ∀ e ∈ entries, entry S e) : (ofEntries make failure entries).Only S where
  rounds fault hmem := by
    obtain ⟨r, hr, hmem⟩ := Rounds.mem_joinAll (mem_of_later hmem)
    rcases List.mem_cons.mp hr with rfl | hr
    · exact absurd (List.mem_singleton.mp hmem).symm (hfailure fault)
    · obtain ⟨e, he, rfl⟩ := List.mem_map.mp hr
      exact entryRounds (h e he) hmem
  cyclic hcyclic := by
    obtain ⟨e, he, hcyclic⟩ := List.any_eq_true.mp hcyclic
    exact entryCyclic (h e he) hcyclic

/-- A set fails as its entries do. -/
theorem ofMembers {failure : Option Failure} {entries : List (Built × Built)}
    (hfailure : ∀ fault, failure ≠ some (.fault fault)) (h : ∀ e ∈ entries, entry S e) :
    (ofMembers failure entries).Only S :=
  ⟨(ofEntries (fun t => .set t.keys) hfailure h).rounds, nofun⟩

/-- A list of pairs fails as its entries do. -/
theorem ofPairs {pairs : List (Option (Built × Built))} (h : ∀ e, some e ∈ pairs → entry S e) :
    (ofPairs pairs).Only S where
  rounds fault hmem := by
    obtain ⟨r, hr, hmem⟩ := Rounds.mem_joinAll (mem_of_later hmem)
    obtain ⟨e | e, he, rfl⟩ := List.mem_map.mp hr
    · cases List.mem_singleton.mp hmem
    · exact (Rounds.mem_join hmem).elim ((h e he).1.rounds fault) ((h e he).2.rounds fault)
  cyclic := nofun

end Only

end Built

namespace Node

mutual

/-- Where a scalar is needed, a node without trouble gives one. -/
theorem trouble_of_scalarText {fault : Fault} :
    (n : Node) → n.scalarText = .error (.fault fault) → n.Trouble fault
  | .scalar _ _, h => by cases h
  | .list _ _, h => by cases h
  | .cycle _, h => by
    cases h
    exact .cycle
  | .map _ es, h => .ofEntry (trouble_of_defaultText es h)

theorem trouble_of_defaultText {fault : Fault} :
    (es : List (Node × Node)) → defaultText es = .error (.fault fault) → EntryTrouble es fault
  | [], h => by cases h
  | (k, v) :: es, h => by
    rw [defaultText] at h
    split at h
    · exact ⟨(k, v), List.mem_cons_self, .inr (trouble_of_scalarText v h)⟩
    · obtain ⟨e, he, htrouble⟩ := trouble_of_defaultText es h
      exact ⟨e, List.mem_cons_of_mem _ he, htrouble⟩

end

/-- A key of the text kind only fails by holding itself. -/
theorem trouble_of_asText {n : Node} {fault : Fault}
    (h : asScalar .text n = .error (.fault fault)) :
    n.Trouble fault := by
  unfold asScalar at h
  cases hs : n.scalarText with
  | error failure =>
    rw [hs] at h
    cases h
    exact trouble_of_scalarText n hs
  | ok s =>
    rw [hs] at h
    cases h

/-- A mapping that is read as a scalar has the trouble of its default. -/
theorem trouble_of_asScalar {tag : Tag} {es : List (Node × Node)} {fault : Fault}
    (h : asScalar tag (.map tag es) = .error (.fault fault)) : (map tag es).Trouble fault := by
  unfold asScalar at h
  cases hs : (map tag es).scalarText with
  | error failure =>
    rw [hs] at h
    cases h
    exact trouble_of_scalarText _ hs
  | ok s =>
    rw [hs] at h
    by_cases htag : tag = .timestamp
    · subst htag
      cases h
      exact .timestamp hs
    · refine .standIn hs ?_
      change (if tag = .timestamp then _ else scalarValue tag s) = _ at h
      rwa [if_neg htag] at h

/-- All faults of merged or own entries have a property; merging fails for no cause of its own. -/
structure Gathered (S : Fault → Prop) (entries : List (Built × Built)) (failure : Option Failure) :
    Prop where
  entries : ∀ e ∈ entries, Built.Only.entry S e
  failure : ∀ fault, failure ≠ some (.fault fault)

namespace Gathered

variable {S S' : Fault → Prop} {es es' : List (Built × Built)} {failure failure' : Option Failure}

theorem mono (h : Gathered S es failure) (hS : ∀ fault, S fault → S' fault) :
    Gathered S' es failure :=
  ⟨fun e he => (h.entries e he).mono hS, h.failure⟩

/-- Entries that are gathered together fail as either part does. -/
theorem append (h : Gathered S es failure) (h' : Gathered S es' failure') :
    Gathered S (es ++ es') (failure.or failure') where
  entries e he := (List.mem_append.mp he).elim (h.entries e) (h'.entries e)
  failure fault heq := by
    rcases Option.or_eq_some_iff.mp heq with heq | ⟨-, heq⟩
    · exact h.failure fault heq
    · exact h'.failure fault heq

theorem of_subset (h : Gathered S es failure) (hsubset : ∀ e ∈ es', e ∈ es) :
    Gathered S es' failure :=
  ⟨fun e he => h.entries e (hsubset e he), h.failure⟩

end Gathered

/-- The trouble of the other items is trouble of the list. -/
theorem itemTrouble_cons {n : Node} {ns : List Node} (fault : Fault) (h : ItemTrouble ns fault) :
    ItemTrouble (n :: ns) fault :=
  h.imp fun _ h => ⟨List.mem_cons_of_mem n h.1, h.2⟩

/-- The trouble of the other entries is trouble of the mapping. -/
theorem entryTrouble_cons {e : Node × Node} {es : List (Node × Node)} (fault : Fault)
    (h : EntryTrouble es fault) : EntryTrouble (e :: es) fault :=
  h.imp fun _ h => ⟨List.mem_cons_of_mem e h.1, h.2⟩

mutual

/-- Building a node meets no faults but those of its trouble. -/
theorem build_only : (n : Node) → n.build.Only n.Trouble
  | .cycle _ => .cycle .cycle
  | .scalar tag s => by
    have hvalue : (Built.ofResult (scalarValue tag s) (isNan tag (.scalar tag s))).Only
        (scalar tag s).Trouble :=
      .ofResult fun _ h => .scalar h
    cases tag with
    | list | map | set | orderedMap | pairs => exact .failLater
    | _ => exact hvalue
  | .list tag items => by
    have hitems := buildAll_only items
    have hpairs := pairsOf_only items
    cases tag with
    | list => exact .ofItems fun b hb => (hitems b hb).mono fun _ => .ofItem
    | orderedMap | pairs =>
      exact .ofPairs fun e he => (hpairs e he).mono fun _ => .ofItem
    | map | set => exact .failLater
    | _ => exact .failNow
  | .map tag es => by
    have hes : Gathered (map tag es).Trouble (entriesOf es).all (entriesOf es).failure :=
      (entriesOf_only es).mono fun _ => .ofEntry
    have hscalar : (Built.ofResult (asScalar tag (map tag es)) (isNan tag (.map tag es))).Only
        (map tag es).Trouble :=
      .ofResult fun _ => trouble_of_asScalar
    cases tag with
    | map => exact .ofEntries .ofTable hes.failure hes.entries
    | set => exact .ofMembers hes.failure hes.entries
    | list | orderedMap | pairs => exact .failLater
    | _ => exact hscalar

/-- Items are built with no trouble but their own. -/
theorem buildAll_only : (ns : List Node) → ∀ b ∈ buildAll ns, b.Only (ItemTrouble ns)
  | [], _, hb => absurd hb List.not_mem_nil
  | n :: ns, b, hb => by
    rcases List.mem_cons.mp hb with rfl | hb
    · exact (build_only n).mono fun _ h => ⟨n, List.mem_cons_self, h⟩
    · exact (buildAll_only ns b hb).mono itemTrouble_cons

/-- So are pairs. -/
theorem pairsOf_only :
    (ns : List Node) → ∀ e, some e ∈ pairsOf ns → Built.Only.entry (ItemTrouble ns) e
  | [], _, he => absurd he List.not_mem_nil
  | n :: ns, e, he => by
    have hrest (he : some e ∈ pairsOf ns) : Built.Only.entry (ItemTrouble (n :: ns)) e :=
      (pairsOf_only ns e he).mono itemTrouble_cons
    unfold pairsOf at he
    split at he
    · exact absurd he List.not_mem_nil
    · next tag k v ns heq =>
      obtain ⟨rfl, rfl⟩ := List.cons.inj heq
      rcases List.mem_cons.mp he with heq | he
      · cases heq
        exact ⟨(build_only k).mono fun _ h => ⟨_, List.mem_cons_self, .key List.mem_cons_self h⟩,
          (build_only v).mono fun _ h => ⟨_, List.mem_cons_self, .value List.mem_cons_self h⟩⟩
      · exact hrest he
    · next heq =>
      obtain ⟨rfl, rfl⟩ := List.cons.inj heq
      exact hrest ((List.mem_cons.mp he).resolve_left nofun)

/-- So are entries, together with those that they merge. -/
theorem entriesOf_only :
    (es : List (Node × Node)) → Gathered (EntryTrouble es) (entriesOf es).all (entriesOf es).failure
  | [] => ⟨fun _ he => absurd he List.not_mem_nil, nofun⟩
  | (k, v) :: es => by
    have hrest := (entriesOf_only es).mono (entryTrouble_cons (e := (k, v)))
    have hv (fault : Fault) (h : v.Trouble fault) : EntryTrouble ((k, v) :: es) fault :=
      ⟨(k, v), List.mem_cons_self, .inr h⟩
    have hk (fault : Fault) (h : k.Trouble fault) : EntryTrouble ((k, v) :: es) fault :=
      ⟨(k, v), List.mem_cons_self, .inl h⟩
    unfold entriesOf
    split
    · -- what is merged stands before the entries of the mapping itself
      have hmerged := (mergeOf_only v).mono hv
      exact (hmerged.append hrest).of_subset fun e he => by
        simpa only [Entries.all, List.append_assoc] using he
    · have hkey : (if k.tag = .value then Built.ofResult (asScalar .text k) else k.build).Only
          (EntryTrouble ((k, v) :: es)) := by
        split
        · exact .ofResult fun fault h => hk fault (trouble_of_asText h)
        · exact (build_only k).mono hk
      refine ⟨fun e he => ?_, hrest.failure⟩
      rcases List.mem_append.mp he with he | he
      · exact hrest.entries e (List.mem_append_left _ he)
      · rcases List.mem_cons.mp he with rfl | he
        · exact ⟨hkey, (build_only v).mono hv⟩
        · exact hrest.entries e (List.mem_append_right _ he)

theorem mergeOf_only : (n : Node) → Gathered n.Trouble (mergeOf n).1 (mergeOf n).2.1
  | .map _ es => (entriesOf_only es).mono fun _ => .ofEntry
  | .list _ items => (mergeAll_only items).mono fun _ => .ofItem
  | .cycle _ => ⟨fun _ he => List.mem_singleton.mp he ▸ ⟨⟨nofun, nofun⟩, .cycle .cycle⟩, nofun⟩
  | .scalar _ _ => ⟨fun _ he => absurd he List.not_mem_nil, nofun⟩

theorem mergeAll_only : (ns : List Node) → Gathered (ItemTrouble ns) (mergeAll ns).1 (mergeAll ns).2
  | [] => ⟨fun _ he => absurd he List.not_mem_nil, nofun⟩
  | n :: ns => by
    have hn := (mergeOf_only n).mono fun _ h =>
      (⟨n, List.mem_cons_self, h⟩ : ItemTrouble (n :: ns) _)
    have hns := (mergeAll_only ns).mono (itemTrouble_cons (n := n))
    have hfailure (isMap : Bool) (fault : Fault) :
        (if isMap then (mergeOf n).2.1 else some .malformed) ≠ some (.fault fault) := by
      split
      · exact hn.failure fault
      · exact nofun
    have hboth : Gathered (ItemTrouble (n :: ns)) ((mergeOf n).1 ++ (mergeAll ns).1)
        ((if (mergeOf n).2.2 then (mergeOf n).2.1 else some .malformed).or (mergeAll ns).2) :=
      Gathered.append ⟨hn.entries, hfailure _⟩ hns
    -- the entries of earlier mappings win, so they come later
    exact hboth.of_subset fun e he => List.mem_append.mpr (List.mem_append.mp he).symm

end

/-- A tree that becomes no value for another cause than being malformed has trouble in it. -/
theorem trouble_of_toValue {n : Node} {fault : Fault} (h : n.toValue = .error (.fault fault)) :
    n.Trouble fault := by
  have hbuild := build_only n
  unfold toValue at h
  dsimp only at h
  split at h
  · next failure hfirst =>
    cases h
    exact hbuild.rounds fault (Rounds.mem_of_first? hfirst)
  · split at h
    · next hcyclic =>
      cases h
      exact hbuild.cyclic hcyclic
    · cases h

end Node

/-- Why a text has no value, other than by being malformed. -/
inductive Caused (text : List Char) : Fault → Prop
  /-- something in it makes no tokens -/
  | flaw {fault : Fault} (h : Flaw text fault) : Caused text fault
  /-- something in the tree that it spells makes no value -/
  | trouble {n : Node} {fault : Fault} (hn : Node.ofTokens (tokens text) = .ok (some n))
      (h : n.Trouble fault) : Caused text fault

/-- A text whose document fails for another cause than being malformed has that cause in it. -/
theorem caused_of_document {text : List Char} {fault : Fault}
    (h : document text = .error (.fault fault)) :
    Caused text fault := by
  unfold document at h
  split at h
  · cases hn : Node.ofTokens (tokens text) with
    | error failure =>
      rw [hn] at h
      cases h
      exact .flaw (flawed_of_failed (Node.told_of_ofTokens hn) fault rfl)
    | ok n =>
      rw [hn] at h
      cases n with
      | none => cases h
      | some n => exact .trouble hn (Node.trouble_of_toValue h)
  · cases h

/-! ## The kinds of faults -/

/-- The faults that a numeric escape or a version can have. -/
def flawKinds : List Fault := [.hugeCodePoint, .badCodePoint, .tooManyDigits]

/-- Flaws of a text are of few kinds. -/
theorem Flaw.kind {text : List Char} {fault : Fault} (h : Flaw text fault) : fault ∈ flawKinds := by
  cases h with
  | escape _ _ _ hfault =>
    unfold codePoint at hfault
    split at hfault
    · cases hfault
      decide
    · split at hfault
      · cases hfault
        decide
      · split at hfault <;> cases hfault
  | version => decide

/-- The faults of a tree are those of its scalars, and two of its shape. -/
theorem Node.Trouble.kind {n : Node} {fault : Fault} (h : n.Trouble fault) :
    fault ∈ spellingKinds ++ [.notAText, .tooDeep] := by
  induction h with
  | scalar h | standIn _ h => exact List.mem_append_left _ (spelling_of_scalarValue h)
  | timestamp | cycle => decide
  | item _ _ ih | key _ _ ih | value _ _ ih => exact ih

/-- The faults for which a text has no value. -/
def faultKinds : List Fault := flawKinds ++ (spellingKinds ++ [.notAText, .tooDeep])

/-- So are all causes for which loading stops. -/
theorem Caused.kind {text : List Char} {fault : Fault} (h : Caused text fault) :
    fault ∈ faultKinds := by
  cases h with
  | flaw h => exact List.mem_append_left _ h.kind
  | trouble _ h => exact List.mem_append_right _ h.kind

end FormRules.Yaml
