import FormRules.Proofs.Table
import FormRules.Proofs.Value.KeyText
import FormRules.Proofs.World
import FormRules.Yaml.Document

/-!
# The keys of documents

In the value of a document the keys of every mapping are scalars, and no two of them are equal
(`Yaml.wellKeyed_of_document`). Both hold of what is built from any node in which nothing fails
(`Node.sound_build`); a key that is no scalar is such a failure.
-/

namespace FormRules

namespace Value

/-- A value is reached in another through the values of mappings and the items of lists. -/
inductive Reaches (w : Value) : Value → Prop where
  /-- the value itself -/
  | self : Reaches w w
  /-- in the value of an entry -/
  | entry {es : List (Value × Value)} {e : Value × Value} (he : e ∈ es) (h : Reaches w e.2) :
      Reaches w (map es)
  /-- in an item -/
  | item {xs : List Value} {x : Value} (hx : x ∈ xs) (h : Reaches w x) : Reaches w (list xs)

/-- The keys of the mappings that are reached are scalars, and no two keys of a mapping are
equal. -/
def WellKeyed (v : Value) : Prop :=
  ∀ es, Reaches (map es) v → (∀ e ∈ es, e.1.Scalar) ∧ Table.Distinct es

/-- A list is well keyed if its items are. -/
theorem wellKeyed_list {xs : List Value} (h : ∀ x ∈ xs, x.WellKeyed) : (list xs).WellKeyed := by
  intro es hes
  cases hes with
  | item hx hes => exact h _ hx es hes

/-- A mapping is well keyed if its keys are distinct scalars and its values are well keyed. -/
theorem wellKeyed_map {es : List (Value × Value)} (hkeys : ∀ e ∈ es, e.1.Scalar)
    (hdistinct : Table.Distinct es) (h : ∀ e ∈ es, e.2.WellKeyed) : (map es).WellKeyed := by
  intro fs hfs
  cases hfs with
  | self => exact ⟨hkeys, hdistinct⟩
  | entry he hfs => exact h _ he fs hfs

/-- A value without mappings and lists reaches no mapping. -/
theorem wellKeyed_leaf {v : Value} (hmap : ∀ es, v ≠ map es) (hlist : ∀ xs, v ≠ list xs) :
    v.WellKeyed := by
  intro es hes
  cases hes with
  | self | entry => exact absurd rfl (hmap _)
  | item => exact absurd rfl (hlist _)

/-- A scalar holds no mapping at all. -/
theorem Scalar.wellKeyed {v : Value} (hv : v.Scalar) : v.WellKeyed := by
  refine wellKeyed_leaf ?_ ?_
  · rintro es rfl
    exact hv.elim
  · rintro xs rfl
    exact hv.elim

end Value

namespace Yaml

/-! ## Scalars -/

open Text

/-- A letter of the code stands for six bits. -/
theorem lt_of_sextet? {c : Char} {v : Nat} (h : Base64.sextet? c = some v) : v < 64 := by
  have hle {d : Char} (hd : c ≤ d) : c.toNat ≤ d.toNat := hd
  unfold Base64.sextet? at h
  simp only [Bool.and_eq_true, decide_eq_true_iff] at h
  split_ifs at h with hupper hlower hdigit <;> obtain rfl := Option.some.inj h
  · have hlast : c.toNat ≤ 90 := hle hupper.2
    omega
  · have hlast : c.toNat ≤ 122 := hle hlower.2
    omega
  · have hlast : c.toNat ≤ 57 := hle hdigit.2
    omega
  · decide
  · decide

/-- The bits of a group that are in no byte yet are those that the characters so far leave over. -/
def Pending (place bits : Nat) : Prop :=
  bits < 64 ∧ (place = 2 → bits < 16) ∧ (2 < place → bits < 4)

/-- Bytes are made up of eight bits. -/
theorem lt_of_decodeFrom {place bits marks : Nat} {s : List Char} {bs : List Nat}
    (hbits : Pending place bits)
    (h : Base64.decodeFrom place bits marks s = some bs) : ∀ b ∈ bs, b < 256 := by
  have hcons {b : Nat} {r : Option (List Nat)} {bs : List Nat} (hb : b < 256)
      (hr : ∀ bs, r = some bs → ∀ b ∈ bs, b < 256) (h : r.map (b :: ·) = some bs) :
      ∀ b ∈ bs, b < 256 := by
    obtain ⟨rest, hrest, rfl⟩ := Option.map_eq_some_iff.mp h
    exact List.forall_mem_cons.mpr ⟨hb, hr rest hrest⟩
  unfold Pending at hbits
  fun_induction Base64.decodeFrom place bits marks s generalizing bs with
  | case1 | case4 =>
    obtain rfl := Option.some.inj h
    exact List.forall_mem_nil _
  | case2 => cases h
  | case3 _ _ _ _ _ ih | case5 _ _ _ _ _ _ ih | case6 _ _ _ _ _ _ _ ih => exact ih hbits h
  | case7 _ _ _ _ _ v hv ih => exact ih ⟨lt_of_sextet? hv, by omega, by omega⟩ h
  | case8 _ _ _ _ _ v hv ih | case9 _ _ _ _ _ v hv ih =>
    have hv := lt_of_sextet? hv
    exact hcons (by omega) (fun _ => ih ⟨by omega, by omega, by omega⟩) h
  | case10 place _ _ _ _ _ v hv hzero hone htwo ih =>
    have hv := lt_of_sextet? hv
    have hplace : place ≠ 0 ∧ place ≠ 1 ∧ place ≠ 2 := ⟨hzero, hone, htwo⟩
    exact hcons (by omega) (fun _ => ih ⟨by omega, by omega, by omega⟩) h

/-- What is read as bytes is bytes. -/
theorem scalar_of_binary {s : List Char} {v : Value} (h : binary s = .ok v) : v.Scalar := by
  unfold binary at h
  split_ifs at h
  split at h
  · next hdecode =>
    obtain rfl := Except.ok.inj h
    have hstart : Pending 0 0 := ⟨by decide, by decide, by decide⟩
    exact lt_of_decodeFrom hstart hdecode
  · cases h

/-- A day that is made has a place in the calendar. -/
theorem valid_of_of? {year month day : Nat} {d : Date} (h : Date.of? year month day = some d) :
    d.Valid := by
  unfold Date.of? at h
  dsimp only at h
  split_ifs at h with hvalid
  exact Option.some.inj h ▸ hvalid

/-- A day or moment that is written exists. -/
theorem scalar_of_timestamp {s : List Char} {v : Value} (h : timestamp s = .ok v) : v.Scalar := by
  unfold timestamp at h
  split at h
  · cases h
  · split at h
    · next hdate _ =>
      obtain rfl := Except.ok.inj h
      exact valid_of_of? hdate
    · next hdate _ =>
      split_ifs at h with hvalid
      obtain rfl := Except.ok.inj h
      exact ⟨valid_of_of? hdate, hvalid.1, hvalid.2⟩
    · cases h

/-- A decimal is read as a double that is exact. -/
theorem exact_of_decimal {s : List Char} {d : Double} (h : decimal s = .ok d) : d.Exact := by
  unfold decimal read at h
  split at h
  · next a hread =>
    obtain rfl := Except.ok.inj h
    split_ifs at hread
    exact Double.exact_of_ofText? hread
  · cases h

/-- Adding up the places of a number gives a double that is exact. -/
theorem exact_of_sumPlaces {sum d : Double} {weight : Nat} {ds : List Double} (hsum : sum.Exact)
    (h : sumPlaces sum weight ds = .ok d) : d.Exact := by
  induction ds generalizing sum weight with
  | nil =>
    obtain rfl := Except.ok.inj h
    exact hsum
  | cons e ds ih =>
    obtain ⟨place, -, h⟩ := Run.eq_ok_of_bind h
    exact ih (Double.exact_add _ _) h

theorem exact_of_unsignedNumber {s : List Char} {d : Double} (h : unsignedNumber s = .ok d) :
    d.Exact := by
  unfold unsignedNumber at h
  split_ifs at h
  · obtain rfl := Except.ok.inj h
    exact nofun
  · obtain rfl := Except.ok.inj h
    exact nofun
  · split at h
    · exact exact_of_decimal h
    · obtain ⟨places, -, h⟩ := Run.eq_ok_of_bind h
      exact exact_of_sumPlaces (Double.exact_finite Double.isCount_zero) h

/-- A number is read as a double that is exact. -/
theorem exact_of_number {s : List Char} {d : Double} (h : number s = .ok d) : d.Exact := by
  obtain ⟨⟨negative, t⟩, -, h⟩ := Run.eq_ok_of_bind h
  obtain ⟨e, he, h⟩ := Run.eq_ok_of_bind h
  have hexact := exact_of_unsignedNumber he
  obtain rfl := Except.ok.inj h
  split
  · exact hexact.neg
  · exact hexact

/-- What is built from an attempt comes from its result. -/
theorem eq_ok_of_ofAttempt {α β : Type} {x : Attempt α} {f : α → β} {b : β}
    (h : ofAttempt (x.map f) = .ok b) : ∃ a, x = .ok a ∧ f a = b := by
  cases x with
  | error fault => cases h
  | ok a => exact ⟨a, rfl, Except.ok.inj h⟩

/-- The values of scalars are scalars. -/
theorem scalar_of_scalarValue {tag : Tag} {s : List Char} {v : Value}
    (h : scalarValue tag s = .ok v) :
    v.Scalar := by
  unfold scalarValue at h
  split at h
  · obtain rfl := Except.ok.inj h
    exact trivial
  · obtain ⟨b, -, rfl⟩ := eq_ok_of_ofAttempt h
    exact trivial
  · obtain ⟨i, -, rfl⟩ := eq_ok_of_ofAttempt h
    exact trivial
  · obtain ⟨d, hd, rfl⟩ := eq_ok_of_ofAttempt h
    exact exact_of_number hd
  · exact scalar_of_binary h
  · cases ht : timestamp s with
    | error fault =>
      rw [ht] at h
      cases h
    | ok w =>
      rw [ht] at h
      obtain rfl := Except.ok.inj h
      exact scalar_of_timestamp ht
  · obtain rfl := Except.ok.inj h
    exact trivial
  · cases h

/-- A node that is read as a scalar gives one. -/
theorem scalar_of_asScalar {tag : Tag} {n : Node} {v : Value} (h : n.asScalar tag = .ok v) :
    v.Scalar := by
  unfold Node.asScalar at h
  cases hs : n.scalarText with
  | error failure =>
    rw [hs] at h
    cases h
  | ok s =>
    rw [hs] at h
    change (if tag = .timestamp then _ else scalarValue tag s) = _ at h
    split_ifs at h
    exact scalar_of_scalarValue h

/-! ## Failures -/

namespace Rounds

/-- Nothing fails. -/
def Clear (r : Rounds) : Prop := ∀ f, some f ∉ r

theorem clear_nil : Clear [] := fun _ => List.not_mem_nil

/-- Rounds are clear if nothing failed in the first, nor in the others. -/
theorem clear_cons_iff {x : Option Failure} {r : Rounds} : Clear (x :: r) ↔ x = none ∧ r.Clear := by
  constructor
  · intro h
    refine ⟨Option.eq_none_iff_forall_ne_some.mpr fun f hf => ?_, fun f hf => ?_⟩
    · exact h f (hf ▸ List.mem_cons_self)
    · exact h f (List.mem_cons_of_mem x hf)
  · rintro ⟨rfl, h⟩ f hf
    exact h f ((List.mem_cons.mp hf).resolve_left nofun)

/-- Rounds in which no failure comes first have none. -/
theorem clear_of_first? {r : Rounds} (h : r.first? = none) : r.Clear := by
  induction r with
  | nil => exact clear_nil
  | cons x r ih =>
    cases x with
    | none => exact clear_cons_iff.mpr ⟨rfl, ih h⟩
    | some f => cases h

/-- Rounds that are joined are clear if both of them are. -/
theorem clear_of_join {a b : Rounds} (h : (a.join b).Clear) : a.Clear ∧ b.Clear := by
  induction a, b using join.induct with
  | case1 b => exact ⟨clear_nil, h⟩
  | case2 a ha =>
    rw [join.eq_2 a ha] at h
    exact ⟨h, clear_nil⟩
  | case3 x a y b ih =>
    obtain ⟨hxy, hrest⟩ := clear_cons_iff.mp h
    obtain ⟨hx, hy⟩ := Option.or_eq_none_iff.mp hxy
    obtain ⟨ha, hb⟩ := ih hrest
    exact ⟨clear_cons_iff.mpr ⟨hx, ha⟩, clear_cons_iff.mpr ⟨hy, hb⟩⟩

/-- So it is with any number of them. -/
theorem clear_of_joinAll {rs : List Rounds} (h : (joinAll rs).Clear) : ∀ r ∈ rs, r.Clear := by
  induction rs with
  | nil => exact List.forall_mem_nil _
  | cons r rs ih =>
    obtain ⟨hr, hrs⟩ := clear_of_join h
    exact List.forall_mem_cons.mpr ⟨hr, ih hrs⟩

theorem clear_of_later {r : Rounds} (h : r.later.Clear) : r.Clear := (clear_cons_iff.mp h).2

theorem eq_none_of_now {f : Option Failure} (h : (now f).Clear) : f = none :=
  (clear_cons_iff.mp h).1

end Rounds

/-! ## Built values -/

namespace Built

/-- What can be a key in what is built is a scalar, and its mappings have keys of their own if
nothing fails. -/
structure Sound (b : Built) : Prop where
  key : b.value.hashable = true → b.value.Scalar
  keyed : b.rounds.Clear → b.value.WellKeyed

namespace Sound

/-- A scalar is a sound thing to build. -/
theorem ofScalar {b : Built} (h : b.value.Scalar) : b.Sound := ⟨fun _ => h, fun _ => h.wellKeyed⟩

theorem ofResult {r : Except Failure Value} {shared : Bool} (h : ∀ v, r = .ok v → v.Scalar) :
    (ofResult r shared).Sound := by
  cases r with
  | ok v => exact ofScalar (h v rfl)
  | error f => exact ofScalar trivial

/-- A list without items stands for what is missing. -/
theorem ofMissing {b : Built} (h : b.value = .list []) : b.Sound := by
  refine ⟨fun hhashable => ?_, fun _ => ?_⟩
  · rw [h] at hhashable
    cases hhashable
  · rw [h]
    exact Value.wellKeyed_list (List.forall_mem_nil _)

/-- What fails to be built is sound, as it gives no value. -/
theorem failNow : failNow.Sound := ofResult nofun

/-- A list of sound things is sound. -/
theorem ofItems {items : List Built} (h : ∀ b ∈ items, b.Sound) : (ofItems items).Sound := by
  refine ⟨nofun, fun hclear => Value.wellKeyed_list fun v hv => ?_⟩
  obtain ⟨b, hb, rfl⟩ := List.mem_map.mp hv
  have hall := Rounds.clear_of_joinAll (Rounds.clear_of_later hclear)
  exact (h b hb).keyed (hall _ (List.mem_map_of_mem hb))

/-- No mapping is reached in pairs. -/
theorem ofPairs (pairs : List (Option (Built × Built))) : (ofPairs pairs).Sound := by
  refine ⟨nofun, fun _ => Value.wellKeyed_list fun v hv => ?_⟩
  obtain ⟨p, -, hp⟩ := List.mem_filterMap.mp hv
  obtain ⟨e, -, rfl⟩ := Option.map_eq_some_iff.mp hp
  exact Value.wellKeyed_leaf nofun nofun

/-- Nor in a set. -/
theorem ofMembers (failure : Option Failure) (entries : List (Built × Built)) :
    (ofMembers failure entries).Sound :=
  ⟨nofun, fun _ => Value.wellKeyed_leaf nofun nofun⟩

/-- Both parts of an entry are sound. -/
def entry (e : Built × Built) : Prop := e.1.Sound ∧ e.2.Sound

/-- A sound entry that is built without failure has a scalar for a key. -/
theorem of_entryRounds {e : Built × Built} (h : entry e) (hclear : (entryRounds e).Clear) :
    e.1.value.Scalar ∧ e.2.value.WellKeyed := by
  have hall := Rounds.clear_of_joinAll hclear
  have hkey := Rounds.eq_none_of_now (hall _ (List.mem_cons_of_mem _ List.mem_cons_self))
  refine ⟨h.1.key ?_, h.2.keyed (hall _ (by simp))⟩
  split at hkey
  · assumption
  · cases hkey

/-- Entries that are put in a table have distinct keys. -/
theorem distinct_table (entries : List (Built × Built)) :
    Table.Distinct (table entries).entries := by
  refine List.pairwise_map.mpr ((Table.distinct_ofList _).imp fun {e f} h => ?_)
  change (e.1.value == f.1.value || _) = false at h
  exact (Bool.or_eq_false_iff.mp h).1

/-- The table of sound entries has scalars for keys, and well-keyed values. -/
theorem of_mem_table {entries : List (Built × Built)} (h : ∀ e ∈ entries, entry e)
    (hclear : ∀ e ∈ entries, (entryRounds e).Clear) :
    ∀ e ∈ (table entries).entries, e.1.Scalar ∧ e.2.WellKeyed := by
  have hkeys : ∀ e ∈ (keyTable entries).entries, e.1.value.Scalar ∧ e.2.WellKeyed := by
    refine Table.forall_mem_ofList (p := fun k : Key => k.value.Scalar) fun e he => ?_
    obtain ⟨b, hb, rfl⟩ := List.mem_map.mp he
    exact of_entryRounds (h b hb) (hclear b hb)
  exact List.forall_mem_map.mpr hkeys

/-- A mapping of sound entries has scalars as keys, and each of them once. -/
theorem ofEntries {failure : Option Failure} {entries : List (Built × Built)}
    (h : ∀ e ∈ entries, entry e) : (ofEntries .ofTable failure entries).Sound := by
  refine ⟨nofun, fun hclear => ?_⟩
  have hall := Rounds.clear_of_joinAll (Rounds.clear_of_later hclear)
  have hentries := of_mem_table h fun e he =>
    hall _ (List.mem_cons_of_mem _ (List.mem_map_of_mem he))
  exact Value.wellKeyed_map (fun e he => (hentries e he).1) (distinct_table entries) fun e he =>
    (hentries e he).2

end Sound

end Built

namespace Node

open Built (Sound)

mutual

/-- What is built of a node is sound. -/
theorem sound_build : (n : Node) → n.build.Sound
  | .cycle _ => .ofMissing rfl
  | .scalar tag s => by
    have hvalue : (Built.ofResult (scalarValue tag s) (isNan tag (.scalar tag s))).Sound :=
      .ofResult fun _ => scalar_of_scalarValue
    cases tag with
    | list | map | set | orderedMap | pairs => exact .ofMissing rfl
    | _ => exact hvalue
  | .list tag items => by
    have hitems := sound_buildAll items
    cases tag with
    | list => exact .ofItems hitems
    | orderedMap | pairs => exact .ofPairs _
    | map | set => exact .ofMissing rfl
    | _ => exact .failNow
  | .map tag es => by
    have hes := sound_entriesOf es
    have hscalar : (Built.ofResult (asScalar tag (map tag es)) (isNan tag (.map tag es))).Sound :=
      .ofResult fun _ => scalar_of_asScalar
    cases tag with
    | map => exact .ofEntries hes
    | set => exact .ofMembers _ _
    | list | orderedMap | pairs => exact .ofMissing rfl
    | _ => exact hscalar

/-- All items of a list are built soundly. -/
theorem sound_buildAll : (ns : List Node) → ∀ b ∈ buildAll ns, b.Sound
  | [] => List.forall_mem_nil _
  | n :: ns => List.forall_mem_cons.mpr ⟨sound_build n, sound_buildAll ns⟩

/-- All entries of a mapping are built soundly, the ones that are merged included. -/
theorem sound_entriesOf : (es : List (Node × Node)) → ∀ e ∈ (entriesOf es).all, Sound.entry e
  | [] => List.forall_mem_nil _
  | (k, v) :: es => by
    have hrest := sound_entriesOf es
    unfold entriesOf
    split
    · intro e he
      rw [Entries.all, List.append_assoc] at he
      rcases List.mem_append.mp he with he | he
      · exact sound_mergeOf v e he
      · exact hrest e he
    · have hkey : (if k.tag = .value then Built.ofResult (asScalar .text k)
          else k.build).Sound := by
        split
        · exact .ofResult fun _ => scalar_of_asScalar
        · exact sound_build k
      intro e he
      rcases List.mem_append.mp he with he | he
      · exact hrest e (List.mem_append_left _ he)
      · rcases List.mem_cons.mp he with rfl | he
        · exact ⟨hkey, sound_build v⟩
        · exact hrest e (List.mem_append_right _ he)

/-- The entries of a mapping that is merged into another are built soundly. -/
theorem sound_mergeOf : (n : Node) → ∀ e ∈ (mergeOf n).1, Sound.entry e
  | .map _ es => sound_entriesOf es
  | .list _ items => sound_mergeAll items
  | .cycle _ => fun _ he => List.mem_singleton.mp he ▸ ⟨.ofScalar trivial, .ofMissing rfl⟩
  | .scalar _ _ => List.forall_mem_nil _

theorem sound_mergeAll : (ns : List Node) → ∀ e ∈ (mergeAll ns).1, Sound.entry e
  | [] => List.forall_mem_nil _
  | n :: ns => fun e he => (List.mem_append.mp he).elim (sound_mergeAll ns e) (sound_mergeOf n e)

end

/-- The value of a node is well keyed. -/
theorem wellKeyed_of_toValue {n : Node} {v : Value} (h : n.toValue = .ok v) : v.WellKeyed := by
  have hbuild := sound_build n
  unfold toValue at h
  dsimp only at h
  split at h
  · cases h
  · next hfirst =>
    split_ifs at h
    obtain rfl := Except.ok.inj h
    exact hbuild.keyed (Rounds.clear_of_first? hfirst)

end Node

/-- **The keys of the mappings in a document are scalars, and no two keys of a mapping are
equal.** -/
theorem wellKeyed_of_document {text : List Char} {v : Value} (h : document text = .ok v) :
    v.WellKeyed := by
  unfold document at h
  split at h
  · cases hn : Node.ofTokens (tokens text) with
    | error failure =>
      rw [hn] at h
      cases h
    | ok n =>
      rw [hn] at h
      cases n with
      | none =>
        obtain rfl := Except.ok.inj h
        exact Value.wellKeyed_leaf nofun nofun
      | some n => exact Node.wellKeyed_of_toValue h
  · cases h

end Yaml

end FormRules
