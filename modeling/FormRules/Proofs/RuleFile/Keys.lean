import FormRules.Proofs.RuleFile.Shape
import FormRules.Proofs.Yaml.Keys

/-!
# The entries of mappings in rule files

When the keys of a document become texts, entries of a mapping are lost where different keys become
the same text. That takes a key that is a text from the start and spells another key, or `nan` as
two keys (`Value.Clash`); two keys of any other kinds become different texts. So a mapping keeps its
entries just if no two of its keys clash, and the document only has its keys replaced just if that
holds of all its mappings (`RuleFile.entries_kept`).
-/

namespace FormRules

namespace Value

/-- Two different keys that become the same text. -/
inductive Clash : Value → Value → Prop where
  /-- a key and the text that spells it -/
  | spelled {k : Value} {s : String} (hk : ∀ t, k ≠ text t) (h : k.keyText = .ok s) :
    Clash k (text s)
  /-- a text and the key that it spells -/
  | spells {k : Value} {s : String} (hk : ∀ t, k ≠ text t) (h : k.keyText = .ok s) :
    Clash (text s) k
  /-- `nan` twice, which is not equal to itself -/
  | nan : Clash (float .nan) (float .nan)

/-- Keys that clash do become the same text. -/
theorem Clash.same_text {a b : Value} (h : a.Clash b) : a.keyText = b.keyText := by
  cases h with
  | spelled _ h => exact h
  | spells _ h => exact h.symm
  | nan => rfl

/-- **Different keys become the same text only if they clash.** -/
theorem clash_of_same_text {a b : Value} (ha : a.Scalar) (hb : b.Scalar) (hne : (a == b) = false)
    {s : String}
    (has : a.keyText = .ok s) (hbs : b.keyText = .ok s) : a.Clash b := by
  by_cases hat : ∃ t, a = text t
  · obtain ⟨t, rfl⟩ := hat
    obtain rfl := Except.ok.inj has
    refine .spells (fun u hu => ?_) hbs
    -- both would be the same text
    subst hu
    obtain rfl := Except.ok.inj hbs
    cases (beq_text_iff.mpr rfl).symm.trans hne
  · rw [not_exists] at hat
    by_cases hbt : ∃ t, b = text t
    · obtain ⟨t, rfl⟩ := hbt
      obtain rfl := Except.ok.inj hbs
      exact .spelled hat has
    · obtain rfl := eq_of_keyText ha hb hat (not_exists.mp hbt) has hbs
      -- what is not equal to itself is `nan`
      by_cases hnan : a = float .nan
      · exact hnan ▸ .nan
      · rw [beq_def, same_self ha hnan] at hne
        cases hne

/-- No two keys of the entries clash. -/
def Apart (es : List (Value × Value)) : Prop := es.Pairwise fun e f => ¬e.1.Clash f.1

/-- In no mapping that is reached do two keys clash. -/
def KeysApart (v : Value) : Prop := ∀ es, Reaches (map es) v → Apart es

/-- In a mapping no keys clash if its own do not, and those in its values do not. -/
theorem keysApart_map_iff {es : List (Value × Value)} :
    (map es).KeysApart ↔ Apart es ∧ ∀ e ∈ es, e.2.KeysApart := by
  constructor
  · exact fun h => ⟨h es .self, fun e he fs hfs => h fs (.entry he hfs)⟩
  · rintro ⟨hself, h⟩ fs hfs
    cases hfs with
    | self => exact hself
    | entry he hfs => exact h _ he fs hfs

theorem keysApart_list_iff {xs : List Value} : (list xs).KeysApart ↔ ∀ x ∈ xs, x.KeysApart := by
  constructor
  · exact fun h x hx fs hfs => h fs (.item hx hfs)
  · intro h fs hfs
    cases hfs with
    | item hx hfs => exact h _ hx fs hfs

theorem keysApart_leaf {v : Value} (hmap : ∀ es, v ≠ map es) (hlist : ∀ xs, v ≠ list xs) :
    v.KeysApart := by
  intro es hes
  cases hes with
  | self | entry => exact absurd rfl (hmap _)
  | item => exact absurd rfl (hlist _)

/-! ## The document with its keys replaced -/

/-- The text that a key is replaced by, as a key. -/
def textKey (k : Value) : Value :=
  match k.keyText with
  | .ok s => text s
  | .error _ => k

mutual

/-- The value with each key replaced by its text, in its place. -/
def rekeyed : Value → Value
  | map es => map (rekeyedEntries es)
  | list xs => list (rekeyedItems xs)
  | v => v

def rekeyedItems : List Value → List Value
  | [] => []
  | x :: xs => x.rekeyed :: rekeyedItems xs

def rekeyedEntries : List (Value × Value) → List (Value × Value)
  | [] => []
  | (k, v) :: es => (k.textKey, v.rekeyed) :: rekeyedEntries es

end

/-- No entry is lost when each key is replaced in its place. -/
theorem length_rekeyedEntries (es : List (Value × Value)) :
    (rekeyedEntries es).length = es.length := by
  induction es with
  | nil => rfl
  | cons e es ih => rw [rekeyedEntries, List.length_cons, List.length_cons, ih]

theorem textKey_of_keyText {k : Value} {s : String} (h : k.keyText = .ok s) :
    k.textKey = text s := by
  rw [textKey, h]

/-- The keys of entries become texts, each in its place. -/
theorem keys_of_textKeysEntries {es fs : List (Value × Value)} (h : textKeysEntries es = .ok fs) :
    (∀ e ∈ es, ∃ s, e.1.keyText = .ok s) ∧ fs.map Prod.fst = es.map fun e => e.1.textKey := by
  induction es generalizing fs with
  | nil =>
    obtain rfl := Except.ok.inj h
    exact ⟨List.forall_mem_nil _, rfl⟩
  | cons e es ih =>
    obtain ⟨s, v, gs, hs, -, hgs, rfl⟩ := of_textKeysEntries h
    obtain ⟨htexts, hkeys⟩ := ih hgs
    refine ⟨List.forall_mem_cons.mpr ⟨⟨s, hs⟩, htexts⟩, ?_⟩
    rw [List.map_cons, List.map_cons, hkeys, textKey_of_keyText hs]

theorem length_of_textKeysEntries {es fs : List (Value × Value)} (h : textKeysEntries es = .ok fs) :
    fs.length = es.length := by
  have hlength := congrArg List.length (keys_of_textKeysEntries h).2
  rwa [List.length_map, List.length_map] at hlength

/-- What holds of two entries in this order, given that their keys are not equal. -/
theorem pairwise_of_distinct {es : List (Value × Value)} (hdistinct : Table.Distinct es)
    {R : Value × Value → Value × Value → Prop}
    (h : ∀ e ∈ es, ∀ f ∈ es, (e.1 == f.1) = false → R e f) : es.Pairwise R :=
  (List.Pairwise.and_mem.mp hdistinct).imp fun {e f} hef => h e hef.1 f hef.2.1 hef.2.2

/-- Keys of one mapping become the same text just if they clash. -/
theorem same_text_iff_clash {es fs : List (Value × Value)} (h : textKeysEntries es = .ok fs)
    (hkeys : ∀ e ∈ es, e.1.Scalar) (hdistinct : Table.Distinct es) :
    es.Pairwise fun e f => e.1.keyText = f.1.keyText ↔ e.1.Clash f.1 := by
  refine pairwise_of_distinct hdistinct fun e he f hf hne => ⟨fun hsame => ?_, Clash.same_text⟩
  obtain ⟨s, hs⟩ := (keys_of_textKeysEntries h).1 e he
  exact clash_of_same_text (hkeys e he) (hkeys f hf) hne hs (hsame ▸ hs)

/-- The texts of keys that are scalars and distinct are distinct just if no two of the keys clash.
-/
theorem distinct_iff_apart {es fs : List (Value × Value)} (h : textKeysEntries es = .ok fs)
    (hkeys : ∀ e ∈ es, e.1.Scalar) (hdistinct : Table.Distinct es) :
    Table.Distinct fs ↔ Apart es := by
  have hclash := same_text_iff_clash h hkeys hdistinct
  obtain ⟨htexts, hfs⟩ := keys_of_textKeysEntries h
  have hequal : es.Pairwise fun e f => (e.1.textKey == f.1.textKey) = false ↔
      ¬e.1.keyText = f.1.keyText := by
    refine pairwise_of_distinct hdistinct fun e he f hf _ => ?_
    obtain ⟨s, hs⟩ := htexts e he
    obtain ⟨t, ht⟩ := htexts f hf
    rw [textKey_of_keyText hs, textKey_of_keyText ht, hs, ht, ← Bool.not_eq_true, beq_text_iff]
    simp
  have hdistinct' : Table.Distinct fs ↔ es.Pairwise fun e f =>
      (e.1.textKey == f.1.textKey) = false := by
    rw [Table.Distinct, ← List.pairwise_map (R := fun k l : Value => (k == l) = false), hfs,
      List.pairwise_map]
  rw [hdistinct']
  have hpairs : es.Pairwise fun e f => (e.1.textKey == f.1.textKey) = false ↔ ¬e.1.Clash f.1 := by
    refine (hequal.and hclash).imp ?_
    rintro e f ⟨hequal, hclash⟩
    rw [hequal, hclash]
  constructor
  · exact fun h => hpairs.imp₂ (fun _ _ => Iff.mp) h
  · exact fun h => hpairs.imp₂ (fun _ _ => Iff.mpr) h

/-- A mapping keeps its entries just if no two of its keys clash. -/
theorem length_ofList_iff_apart {es fs : List (Value × Value)} (h : textKeysEntries es = .ok fs)
    (hkeys : ∀ e ∈ es, e.1.Scalar) (hdistinct : Table.Distinct es) :
    (Table.ofList fs).entries.length = es.length ↔ Apart es := by
  rw [← length_of_textKeysEntries h, Table.length_ofList_iff]
  exact distinct_iff_apart h hkeys hdistinct

/-! ## Values with keys that are kept apart -/

mutual

/-- The value only has its keys replaced just if no two keys in it clash. -/
theorem eq_rekeyed_iff : (v : Value) → v.WellKeyed → ∀ {keyed : Value}, v.textKeys = .ok keyed →
    (keyed = v.rekeyed ↔ v.KeysApart)
  | .map es, hv, _, h => by
    obtain ⟨fs, hfs, h⟩ := Run.eq_ok_of_bind h
    obtain rfl := Except.ok.inj h
    obtain ⟨hkeys, hdistinct⟩ := hv es .self
    have hlength := length_ofList_iff_apart hfs hkeys hdistinct
    have hsame (hkept : (Table.ofList fs).entries.length = es.length) :
        (Table.ofList fs).entries = fs :=
      Table.ofList_of_distinct
        (Table.length_ofList_iff.mp (hkept.trans (length_of_textKeysEntries hfs).symm))
    have hvalues := eq_rekeyedEntries_iff es (fun e he fs hfs => hv fs (.entry he hfs)) hfs
    rw [keysApart_map_iff, ← hlength, ← hvalues, rekeyed]
    constructor
    · intro heq
      have hentries : (Table.ofList fs).entries = rekeyedEntries es := Value.map.inj heq
      have hkept : (Table.ofList fs).entries.length = es.length := by
        rw [hentries, length_rekeyedEntries]
      exact ⟨hkept, (hsame hkept).symm.trans hentries⟩
    · rintro ⟨hkept, hentries⟩
      exact congrArg map ((hsame hkept).trans hentries)
  | .list xs, hv, _, h => by
    obtain ⟨ys, hys, h⟩ := Run.eq_ok_of_bind h
    obtain rfl := Except.ok.inj h
    rw [keysApart_list_iff, ← eq_rekeyedItems_iff xs (fun x hx fs hfs => hv fs (.item hx hfs)) hys,
      rekeyed]
    exact ⟨Value.list.inj, congrArg list⟩
  | .null, _, _, rfl | .bool _, _, _, rfl | .int _, _, _, rfl | .float _, _, _, rfl
  | .text _, _, _, rfl | .tuple _, _, _, rfl | .set _, _, _, rfl | .date _, _, _, rfl
  | .moment _, _, _, rfl | .bytes _, _, _, rfl =>
    iff_of_true rfl (keysApart_leaf nofun nofun)

/-- The same holds of each item of a list. -/
theorem eq_rekeyedItems_iff : (xs : List Value) → (∀ x ∈ xs, x.WellKeyed) → ∀ {ys : List Value},
    textKeysItems xs = .ok ys → (ys = rekeyedItems xs ↔ ∀ x ∈ xs, x.KeysApart)
  | [], _, _, rfl => iff_of_true rfl (List.forall_mem_nil _)
  | x :: xs, hxs, _, h => by
    obtain ⟨y, ys, hy, hys, rfl⟩ := of_textKeysItems h
    obtain ⟨hx, hxs⟩ := List.forall_mem_cons.mp hxs
    rw [List.forall_mem_cons, ← eq_rekeyed_iff x hx hy, ← eq_rekeyedItems_iff xs hxs hys,
      rekeyedItems, List.cons.injEq]

/-- And of the value of each entry. -/
theorem eq_rekeyedEntries_iff : (es : List (Value × Value)) → (∀ e ∈ es, e.2.WellKeyed) →
    ∀ {fs : List (Value × Value)}, textKeysEntries es = .ok fs →
      (fs = rekeyedEntries es ↔ ∀ e ∈ es, e.2.KeysApart)
  | [], _, _, rfl => iff_of_true rfl (List.forall_mem_nil _)
  | (k, v) :: es, hes, _, h => by
    obtain ⟨s, w, fs, hs, hw, hfs, rfl⟩ := of_textKeysEntries h
    obtain ⟨hv, hes⟩ := List.forall_mem_cons.mp hes
    rw [List.forall_mem_cons, ← eq_rekeyed_iff v hv hw, ← eq_rekeyedEntries_iff es hes hfs,
      rekeyedEntries, List.cons.injEq, textKey_of_keyText hs, Prod.mk.injEq, and_iff_right rfl]

end

/-- Each mapping that is reached in the one value is what a mapping that is reached in the other
becomes. -/
def ComesFrom (keyed v : Value) : Prop :=
  ∀ fs, Reaches (map fs) keyed → ∃ es, Reaches (map es) v ∧ (map es).textKeys = .ok (map fs)

mutual

/-- All mappings of the converted value are converted mappings of the value. -/
theorem comesFrom_of_textKeys :
    (v : Value) → ∀ {keyed : Value}, v.textKeys = .ok keyed → keyed.ComesFrom v
  | .map es, _, h => by
    obtain ⟨fs, hfs, hkeyed⟩ := Run.eq_ok_of_bind h
    obtain rfl := Except.ok.inj hkeyed
    have hentries := Table.forall_mem_ofList (p := fun _ => True)
      (q := fun w => ∃ e ∈ es, w.ComesFrom e.2)
      fun f hf => ⟨trivial, comesFrom_of_textKeysEntries es hfs f hf⟩
    intro gs hgs
    cases hgs with
    | self => exact ⟨es, .self, h⟩
    | entry hf hgs =>
      obtain ⟨e, he, hcomes⟩ := (hentries _ hf).2
      obtain ⟨ds, hds, htext⟩ := hcomes gs hgs
      exact ⟨ds, .entry he hds, htext⟩
  | .list xs, _, h => by
    obtain ⟨ys, hys, h⟩ := Run.eq_ok_of_bind h
    obtain rfl := Except.ok.inj h
    intro gs hgs
    cases hgs with
    | item hy hgs =>
      obtain ⟨x, hx, hcomes⟩ := comesFrom_of_textKeysItems xs hys _ hy
      obtain ⟨ds, hds, htext⟩ := hcomes gs hgs
      exact ⟨ds, .item hx hds, htext⟩
  | .null, _, rfl | .bool _, _, rfl | .int _, _, rfl | .float _, _, rfl | .text _, _, rfl
  | .tuple _, _, rfl | .set _, _, rfl | .date _, _, rfl | .moment _, _, rfl | .bytes _, _, rfl =>
    fun _ h => nomatch h

theorem comesFrom_of_textKeysItems :
    (xs : List Value) → ∀ {ys : List Value}, textKeysItems xs = .ok ys →
    ∀ y ∈ ys, ∃ x ∈ xs, y.ComesFrom x
  | [], _, rfl => List.forall_mem_nil _
  | x :: xs, _, h => by
    obtain ⟨y, ys, hy, hys, rfl⟩ := of_textKeysItems h
    refine List.forall_mem_cons.mpr ⟨⟨x, List.mem_cons_self, comesFrom_of_textKeys x hy⟩,
      fun z hz => ?_⟩
    obtain ⟨x', hx', hcomes⟩ := comesFrom_of_textKeysItems xs hys z hz
    exact ⟨x', List.mem_cons_of_mem x hx', hcomes⟩

theorem comesFrom_of_textKeysEntries : (es : List (Value × Value)) → ∀ {fs : List (Value × Value)},
    textKeysEntries es = .ok fs → ∀ f ∈ fs, ∃ e ∈ es, f.2.ComesFrom e.2
  | [], _, rfl => List.forall_mem_nil _
  | (k, v) :: es, _, h => by
    obtain ⟨s, w, fs, -, hw, hfs, rfl⟩ := of_textKeysEntries h
    refine List.forall_mem_cons.mpr ⟨⟨(k, v), List.mem_cons_self, comesFrom_of_textKeys v hw⟩,
      fun g hg => ?_⟩
    obtain ⟨e, he, hcomes⟩ := comesFrom_of_textKeysEntries es hfs g hg
    exact ⟨e, List.mem_cons_of_mem _ he, hcomes⟩

end

/-- A key of what is reached is a key of the whole. -/
theorem longKey_of_reaches {w v : Value} (h : Reaches w v) (hw : w.LongKey) : v.LongKey := by
  induction h with
  | self => exact hw
  | entry he _ ih => exact longKey_map_iff.mpr ⟨_, he, .inr ih⟩
  | item hx _ ih => exact longKey_list_iff.mpr ⟨_, hx, ih⟩

end Value

/-- The mappings that are loaded have scalars as keys, and no two keys of a mapping are equal. -/
def Tools.WellKeyed (tools : Tools) : Prop :=
  ∀ bytes document, tools.load bytes = .document document → document.WellKeyed

/-- The standard tools have this property. -/
theorem Tools.wellKeyed_standard : Tools.standard.WellKeyed := by
  intro bytes document h
  change Yaml.load bytes = _ at h
  unfold Yaml.load at h
  split at h
  · cases h
  · split at h
    · cases h
    · cases h
    · cases h
    · next hdocument =>
      cases h
      exact Yaml.wellKeyed_of_document hdocument

namespace RuleFile

open Value (Reaches)

variable {tools : Tools} {f : RuleFile} {document : Value}

/-- What is loaded from a file has keys that are scalars and distinct. -/
theorem wellKeyed_of_loaded (htools : tools.WellKeyed)
    (h : f.loaded? tools = some (.document document)) : document.WellKeyed := by
  unfold loaded? at h
  split at h
  · cases h
  · obtain ⟨bytes, -, hload⟩ := Option.map_eq_some_iff.mp h
    exact htools bytes document hload

/-- A document whose keys can all be written is read. -/
theorem exists_read (h : f.loaded? tools = some (.document document)) (hnull : document ≠ .null)
    (hkeys : ¬document.LongKey) : ∃ keyed, f.read tools = .ok (.ok keyed) := by
  obtain ⟨keyed, hkeyed⟩ := document.textKeys_longIf.exists_ok hkeys
  exact ⟨keyed, read_eq_ok_iff.mpr ⟨document, h, hnull, hkeyed⟩⟩

/-- **A mapping in a rule file keeps its entries just if no two of its keys clash.** Let tools load
mappings whose keys are scalars and not equal. A file is read if its document is loaded and all keys
in that can be written. If a file is read, then two keys of a mapping in its document become the
same text just if they clash, and the mapping keeps the number of its entries just if no two of them
do. There are no mappings in what is read but those that the mappings of the document become, and
what is read is the document with each key replaced by its text, in its place, just if no two keys
clash in any of its mappings. -/
theorem entries_kept (htools : tools.WellKeyed) (f : RuleFile) :
    (∀ document, f.loaded? tools = some (.document document) → document ≠ .null →
      ¬document.LongKey → ∃ keyed, f.read tools = .ok (.ok keyed)) ∧
    ∀ keyed, f.read tools = .ok (.ok keyed) →
      ∃ document, f.loaded? tools = some (.document document) ∧
        (∀ es, Reaches (.map es) document →
          (es.Pairwise fun e g => e.1.keyText = g.1.keyText ↔ e.1.Clash g.1) ∧
          ∃ fs, (Value.map es).textKeys = .ok (.map fs) ∧
            (fs.length = es.length ↔ Value.Apart es)) ∧
        (∀ fs, Reaches (.map fs) keyed → ∃ es, Reaches (.map es) document ∧
          (Value.map es).textKeys = .ok (.map fs)) ∧
        (keyed = document.rekeyed ↔ document.KeysApart) := by
  refine ⟨fun _ => exists_read, fun keyed hread => ?_⟩
  obtain ⟨document, hdocument, -, hkeyed⟩ := read_eq_ok_iff.mp hread
  have hwell := wellKeyed_of_loaded htools hdocument
  have hkeys : ¬document.LongKey := document.textKeys_longIf.isOk_iff.mp (by rw [hkeyed]; rfl)
  refine ⟨document, hdocument, fun es hes => ?_, document.comesFrom_of_textKeys hkeyed,
    document.eq_rekeyed_iff hwell hkeyed⟩
  obtain ⟨hscalar, hdistinct⟩ := hwell es hes
  have hshort : ¬(Value.map es).LongKey := fun hlong => hkeys (Value.longKey_of_reaches hes hlong)
  obtain ⟨v, hv⟩ := (Value.map es).textKeys_longIf.exists_ok hshort
  obtain ⟨fs, hfs, -⟩ := Run.eq_ok_of_bind hv
  refine ⟨Value.same_text_iff_clash hfs hscalar hdistinct, (Table.ofList fs).entries, ?_, ?_⟩
  · rw [Value.textKeys, hfs]
    rfl
  · exact Value.length_ofList_iff_apart hfs hscalar hdistinct

end RuleFile

namespace GuestAndHost

open Value (Reaches Apart)

/-- A form with keys of six kinds, and a form with a key that spells another. -/
def lines : List String :=
  ["forms:", "  guest:", "    on: required", "    2: required", "    1.5: required",
    "    ~: required", "    2020-01-02: required", "    mail: email", "  host:", "    1: required",
    "    \"1\": email"]

def file : RuleFile := ⟨"rules.yaml", some (("\n".intercalate lines).toUTF8.toList.map UInt8.toNat)⟩

def guest : List (Value × Value) :=
  [(.bool true, .text "required"), (.int 2, .text "required"),
    (.float (.finite false (3 * 2 ^ 1073)), .text "required"), (.null, .text "required"),
    (.date ⟨2020, 1, 2⟩, .text "required"), (.text "mail", .text "email")]

def host : List (Value × Value) := [(.int 1, .text "required"), (.text "1", .text "email")]

def document : Value :=
  .map [(.text "forms", .map [(.text "guest", .map guest), (.text "host", .map host)])]

/-- The value is the document. -/
def isDocument : Value → Bool
  | .map [(.text forms,
    .map [(.text guest, .map [(.bool b, .text r₁), (.int i, .text r₂), (.float d, .text r₃),
      (.null, .text r₄), (.date day, .text r₅), (.text mail, .text r₆)]),
      (.text host, .map [(.int j, .text r₇), (.text one, .text r₈)])])] =>
    [forms, guest, r₁, r₂, r₃, r₄, r₅, mail, r₆, host, r₇, one, r₈] =
      ["forms", "guest", "required", "required", "required", "required", "required", "mail",
      "email", "host", "required", "1", "email"] ∧
      b = true ∧ i = 2 ∧ d = .finite false (3 * 2 ^ 1073) ∧ day = ⟨2020, 1, 2⟩ ∧ j = 1
  | _ => false

theorem eq_of_isDocument {v : Value} (h : isDocument v = true) : v = document := by
  unfold isDocument at h
  split at h
  · simp only [List.cons.injEq, decide_eq_true_eq] at h
    obtain ⟨⟨rfl, rfl, rfl, rfl, rfl, rfl, rfl, rfl, rfl, rfl, rfl, rfl, rfl, -⟩, rfl, rfl, rfl,
      rfl, rfl⟩ := h
    rfl
  · cases h

/-- This is the document in the file. -/
theorem loaded_file : file.loaded? .standard = some (.document document) := by
  have hdocument : (file.loaded? .standard).map (fun
    | .document v => isDocument v
    | _ => false) = some true := by decide +kernel
  obtain ⟨loaded, hloaded, hsame⟩ := Option.map_eq_some_iff.mp hdocument
  cases loaded with
  | document v => rw [hloaded, eq_of_isDocument hsame]
  | _ => cases hsame

theorem not_longKey : ¬document.LongKey := by
  have hkeyed : document.textKeys.isOk = true := by decide +kernel
  exact document.textKeys_longIf.isOk_iff.mp hkeyed

/-- The six keys of the one form become different texts. -/
theorem apart_guest : Apart guest := by
  have htexts : guest.Pairwise fun e g =>
      e.1.keyText.toOption ≠ g.1.keyText.toOption := by decide +kernel
  exact htexts.imp fun h hclash => h (congrArg _ hclash.same_text)

theorem keyText_one : (Value.int 1).keyText = .ok "1" :=
  Attempt.eq_ok_of_toOption (by decide +kernel)

/-- The two keys of the other form do not. -/
theorem not_apart_host : ¬Apart host := by
  have hclash : Value.Clash (.int 1) (.text "1") := .spelled nofun keyText_one
  intro h
  exact (List.pairwise_cons.mp h).1 _ List.mem_cons_self hclash

/-- The fields of both forms are reached. -/
theorem reaches_form {name : String} {fields : List (Value × Value)}
    (h : (.text name, .map fields) ∈
      [(Value.text "guest", Value.map guest), (.text "host", .map host)]) :
    Reaches (.map fields) document :=
  .entry List.mem_cons_self (.entry h .self)

/-- The form with keys of six kinds keeps its six entries, but the document does not keep all
entries. -/
theorem guest_kept : Tools.standard.WellKeyed ∧ ∃ keyed, file.read .standard = .ok (.ok keyed) ∧
    (∃ fs, (Value.map guest).textKeys = .ok (.map fs) ∧ fs.length = 6) ∧
      keyed ≠ document.rekeyed := by
  obtain ⟨hreads, hkept⟩ := RuleFile.entries_kept Tools.wellKeyed_standard file
  obtain ⟨keyed, hread⟩ := hreads document loaded_file (by simp [document]) not_longKey
  obtain ⟨document', hloaded, hmappings, -, hrekeyed⟩ := hkept keyed hread
  obtain rfl : document = document' := by
    rw [loaded_file] at hloaded
    exact Loaded.document.inj (Option.some.inj hloaded)
  refine ⟨Tools.wellKeyed_standard, keyed, hread, ?_, fun h => ?_⟩
  · obtain ⟨-, fs, hfs, hlength⟩ := hmappings guest (reaches_form List.mem_cons_self)
    exact ⟨fs, hfs, hlength.mpr apart_guest⟩
  · exact not_apart_host (hrekeyed.mp h host
      (reaches_form (List.mem_cons_of_mem _ List.mem_cons_self)))

/-- The number of fields that each form has. -/
def fieldCounts (document : Value) : List Nat :=
  (RuleDocument.section? "forms" document).map fun e => (RuleDocument.entriesOf e.2).length

/-- One of the two fields that the other form declares replaces the other one. -/
theorem host_loses :
    (¬∀ (f : RuleFile) (document keyed : Value),
      f.loaded? .standard = some (.document document) → f.read .standard = .ok (.ok keyed) →
        fieldCounts keyed = fieldCounts document) ∧
      file.loaded? .standard = some (.document document) ∧ fieldCounts document = [6, 2] ∧
      (∃ keyed, file.read .standard = .ok (.ok keyed) ∧ fieldCounts keyed = [6, 1]) ∧
      Value.int 1 ≠ .text "1" ∧ (Value.int 1).keyText = (Value.text "1").keyText := by
  have hcounts : ((file.read .standard).toOption.bind Except.toOption).map fieldCounts =
      some [6, 1] := by decide +kernel
  obtain ⟨keyed, hkeyed, hcounts⟩ := Option.map_eq_some_iff.mp hcounts
  obtain ⟨r, hread, hr⟩ := Option.bind_eq_some_iff.mp hkeyed
  obtain rfl := Attempt.eq_ok_of_toOption hr
  have hread := Attempt.eq_ok_of_toOption hread
  refine ⟨fun hall => ?_, loaded_file, rfl, ⟨keyed, hread, hcounts⟩, by simp, keyText_one⟩
  have hsame := hall file document keyed loaded_file hread
  rw [hcounts] at hsame
  exact absurd hsame (by decide)

end GuestAndHost

end FormRules
