import FormRules.Proofs.RuleFile.Keys

/-!
# What turning keys to texts makes of a value

`Value.KeyedAs` says what a value becomes when the keys in it become texts, without any table: a
mapping has one entry for each text, where a key first becomes that text, with what becomes of the
value that comes with such a key last; a list has what becomes of its items, and any other value
stays as it is. The conversion does just this for every value in which no key is too long, and the
result is a normal form: the values that the conversion leaves as they are, are those that have
distinct texts for keys (`Value.textKeys_normalizes`).
-/

namespace FormRules

namespace Value

/-! ## What a value becomes -/

/-- The key becomes the text. -/
def hasKeyText (s : String) (k : Value) : Bool := k.keyText.toOption == some s

/-- What a value becomes when the keys in it become texts. -/
inductive KeyedAs : Value → Value → Prop where
  /-- A mapping has an entry for each text that a key becomes, where the first key does, with what
  becomes of the value of the last key that does. -/
  | map {es : List (Value × Value)} {names : List String}
      (hnames : es.map (fun e => e.1.keyText) = names.map .ok) {last keyed : String → Value}
      (hlast : ∀ s ∈ names, Table.last? (hasKeyText s) es = some (last s))
      (h : ∀ s ∈ names, KeyedAs (last s) (keyed s)) :
      KeyedAs (map es) (map (names.eraseDups.map fun s => (text s, keyed s)))
  /-- A list has what its items become, each in its place. -/
  | list {xs ys : List Value} (hlength : xs.length = ys.length)
      (h : ∀ (i : Nat) (hx : i < xs.length) (hy : i < ys.length), KeyedAs xs[i] ys[i]) :
      KeyedAs (list xs) (list ys)
  /-- Other values stay as they are, with what they hold. -/
  | other {v : Value} (hmap : ∀ es, v ≠ map es) (hlist : ∀ xs, v ≠ list xs) : KeyedAs v v

/-- There is only one value that a value becomes. -/
theorem keyedAs_unique {v w w' : Value} (h : v.KeyedAs w) (h' : v.KeyedAs w') : w = w' := by
  induction h generalizing w' with
  | @map es names hnames last keyed hlast h ih =>
    cases h' with
    | other hmap => exact absurd rfl (hmap es)
    | @map _ names' hnames' last' keyed' hlast' h' =>
      -- the keys settle the texts, and a text settles the value that comes last with it
      have hinjective : Function.Injective (Except.ok : String → Attempt String) :=
        fun _ _ => Except.ok.inj
      obtain rfl : names = names' :=
        List.map_injective_iff.mpr hinjective (hnames.symm.trans hnames')
      refine congrArg Value.map (List.map_congr_left fun s hs => ?_)
      rw [List.mem_eraseDups] at hs
      have hsame : last s = last' s := Option.some.inj ((hlast s hs).symm.trans (hlast' s hs))
      rw [ih s hs (hsame ▸ h' s hs)]
  | @list xs ys hlength h ih =>
    cases h' with
    | other _ hlist => exact absurd rfl (hlist xs)
    | @list _ ys' hlength' h' =>
      refine congrArg Value.list (List.ext_getElem (hlength.symm.trans hlength') fun i hy hy' => ?_)
      have hx : i < xs.length := hlength ▸ hy
      exact ih i hx hy (h' i hx hy')
  | other hmap hlist =>
    cases h' with
    | map => exact absurd rfl (hmap _)
    | list => exact absurd rfl (hlist _)
    | other => rfl

/-! ## The conversion does this -/

theorem textKeysItems_eq_ok_iff {xs ys : List Value} :
    textKeysItems xs = .ok ys ↔ List.Forall₂ (fun x y => x.textKeys = .ok y) xs ys := by
  have hmapM : textKeysItems xs = xs.mapM textKeys := by
    induction xs with
    | nil => rfl
    | cons x xs ih => rw [textKeysItems, List.mapM_cons, ih]
  rw [hmapM, Attempt.mapM_eq_ok_iff]

/-- The entries of a mapping become entries under texts, each in its place. -/
theorem exists_named_of_textKeysEntries {es fs : List (Value × Value)}
    (h : textKeysEntries es = .ok fs) :
    ∃ named : List (String × Value), fs = named.map (fun n => (text n.1, n.2)) ∧
      List.Forall₂ (fun e n => e.1.keyText = .ok n.1 ∧ e.2.textKeys = .ok n.2) es named := by
  induction es generalizing fs with
  | nil => exact ⟨[], (Except.ok.inj h).symm, .nil⟩
  | cons e es ih =>
    obtain ⟨s, v, gs, hs, hv, hgs, rfl⟩ := of_textKeysEntries h
    obtain ⟨named, rfl, hnamed⟩ := ih hgs
    exact ⟨(s, v) :: named, rfl, .cons ⟨hs, hv⟩ hnamed⟩

section

variable {es : List (Value × Value)} {named : List (String × Value)}

/-- A text that a key becomes has a last value on either side, and the one becomes the other. -/
theorem exists_last_keyedAs
    (hnamed : List.Forall₂ (fun e n => e.1.keyText = .ok n.1 ∧ e.2.KeyedAs n.2) es named)
    (s : String) (hs : s ∈ named.map Prod.fst) : ∃ v w, Table.last? (hasKeyText s) es = some v ∧
      Table.last? (· == s) named = some w ∧ v.KeyedAs w := by
  have hrel : Option.Rel KeyedAs (Table.last? (hasKeyText s) es) (Table.last? (· == s) named) :=
    Table.last?_rel (hnamed.imp fun e n he => ⟨by simp [hasKeyText, he.1, Except.toOption], he.2⟩)
  obtain ⟨w, hw⟩ : ∃ w, Table.last? (· == s) named = some w := by
    rw [← Option.isSome_iff_exists, Table.isSome_last?]
    simpa using hs
  rw [hw] at hrel
  generalize Table.last? (hasKeyText s) es = v? at hrel ⊢
  cases hrel with
  | some h => exact ⟨_, w, rfl, hw, h⟩

/-- The table of entries under texts is what a mapping becomes, if their values are what its values
become. -/
theorem keyedAs_ofList
    (hnamed : List.Forall₂ (fun e n => e.1.keyText = .ok n.1 ∧ e.2.KeyedAs n.2) es named) :
    (map es).KeyedAs (map ((Table.ofList named).entries.map fun n => (text n.1, n.2))) := by
  have hnames : es.map (fun e => e.1.keyText) = (named.map Prod.fst).map .ok := by
    rw [← List.forall₂_eq_eq_eq, List.forall₂_map_left_iff, List.map_map,
      List.forall₂_map_right_iff]
    exact hnamed.imp fun _ _ => And.left
  choose! last keyed hlast hkeyed hbecomes using exists_last_keyedAs hnamed
  rw [Table.entries_ofList hkeyed, List.map_map]
  exact .map hnames hlast hbecomes

end

theorem keyedAs_of_textKeys (v : Value) {keyed : Value} (h : v.textKeys = .ok keyed) :
    v.KeyedAs keyed := by
  induction v using induct generalizing keyed with
  | h v ih =>
    cases v with
    | map es =>
      obtain ⟨fs, hfs, h⟩ := Run.eq_ok_of_bind h
      obtain rfl := Except.ok.inj h
      obtain ⟨named, rfl, hnamed⟩ := exists_named_of_textKeysEntries hfs
      have hkeys (a b : String) : (text a == text b) = (a == b) := rfl
      have hvalues : ∀ e ∈ es, ∀ {w}, e.2.textKeys = .ok w → e.2.KeyedAs w := fun e he _ =>
        ih e.2 (mem_parts_of_entry he).2
      rw [ofTable, Table.ofList_mapKeys hkeys]
      refine keyedAs_ofList (((List.forall₂_and_left es named).mpr ⟨hvalues, hnamed⟩).imp ?_)
      exact fun _ _ ⟨hvalue, hname, hconverted⟩ => ⟨hname, hvalue hconverted⟩
    | list xs =>
      obtain ⟨ys, hys, h⟩ := Run.eq_ok_of_bind h
      obtain rfl := Except.ok.inj h
      rw [textKeysItems_eq_ok_iff, List.forall₂_iff_get] at hys
      exact .list hys.1 fun i hx hy => ih _ (List.getElem_mem hx) (hys.2 i hx hy)
    | _ =>
      obtain rfl := Except.ok.inj h
      exact .other (by simp) (by simp)

/-! ## Values that stay as they are -/

/-- In no mapping that is reached are two keys equal. -/
def KeysDistinct (v : Value) : Prop := ∀ es, Reaches (map es) v → Table.Distinct es

theorem keysDistinct_of_textKeys {v keyed : Value} (h : v.textKeys = .ok keyed) :
    keyed.KeysDistinct := by
  intro fs hfs
  obtain ⟨es, -, hes⟩ := comesFrom_of_textKeys v h fs hfs
  obtain ⟨gs, -, hgs⟩ := Run.eq_ok_of_bind hes
  obtain rfl : (Table.ofList gs).entries = fs := Value.map.inj (Except.ok.inj hgs)
  exact Table.distinct_ofList gs

theorem textKeysEntries_eq_self {es : List (Value × Value)}
    (h : ∀ e ∈ es, (∃ s, e.1 = text s) ∧ e.2.textKeys = .ok e.2) : textKeysEntries es = .ok es := by
  induction es with
  | nil => rfl
  | cons e es ih =>
    obtain ⟨⟨⟨s, hs⟩, hvalue⟩, hes⟩ := List.forall_mem_cons.mp h
    obtain ⟨k, v⟩ := e
    obtain rfl : k = text s := hs
    rw [textKeysEntries, hvalue, ih hes]
    rfl

/-- A value that has distinct texts for keys stays as it is. -/
theorem textKeys_eq_self {v : Value} (hkeyed : v.TextKeyed) (hdistinct : v.KeysDistinct) :
    v.textKeys = .ok v := by
  induction v using induct with
  | h v ih =>
    cases v with
    | map es =>
      have hentries : textKeysEntries es = .ok es := by
        refine textKeysEntries_eq_self fun e he => ?_
        obtain ⟨hkey, hvalue⟩ := textKeyed_map_iff.mp hkeyed e he
        exact ⟨hkey, ih e.2 (mem_parts_of_entry he).2 hvalue
          fun fs hfs => hdistinct fs (.entry he hfs)⟩
      have htable : (Table.ofList es).entries = es := Table.ofList_of_distinct (hdistinct es .self)
      rw [textKeys, hentries]
      exact congrArg (fun es => Except.ok (map es)) htable
    | list xs =>
      have hitems : textKeysItems xs = .ok xs := by
        rw [textKeysItems_eq_ok_iff, List.forall₂_same]
        exact fun x hx => ih x hx (textKeyed_list_iff.mp hkeyed x hx) fun fs hfs =>
          hdistinct fs (.item hx hfs)
      rw [textKeys, hitems]
      rfl
    | _ => rfl

/-- **Turning keys to texts brings a value into a normal form.** It fails just if a key that is
reached has too many digits. Else there is one value that the given one becomes, and that is the
result; the keys that are reached in it are texts, and a second conversion leaves it as it is. The
values that a conversion leaves as they are, are those whose keys are texts already, no two of one
mapping equal. -/
theorem textKeys_normalizes (v : Value) :
    (v.LongKey → v.textKeys = .error .tooManyDigits) ∧
      (¬v.LongKey → ∃ keyed, v.textKeys = .ok keyed ∧ (∀ w, v.KeyedAs w ↔ w = keyed) ∧
        keyed.TextKeyed ∧ keyed.textKeys = .ok keyed) ∧
      (v.textKeys = .ok v ↔ v.TextKeyed ∧ v.KeysDistinct) := by
  refine ⟨fun hlong => (v.textKeys_longIf _).mpr ⟨rfl, hlong⟩, fun hshort => ?_, fun hself => ?_,
    fun h => textKeys_eq_self h.1 h.2⟩
  · obtain ⟨keyed, hkeyed⟩ := v.textKeys_longIf.exists_ok hshort
    have hbecomes : v.KeyedAs keyed := keyedAs_of_textKeys v hkeyed
    have htexts : keyed.TextKeyed := textKeyed_of_textKeys v hkeyed
    refine ⟨keyed, hkeyed, fun w => ⟨fun hw => keyedAs_unique hw hbecomes, ?_⟩, htexts,
      textKeys_eq_self htexts (keysDistinct_of_textKeys hkeyed)⟩
    rintro rfl
    exact hbecomes
  · exact ⟨textKeyed_of_textKeys v hself, keysDistinct_of_textKeys hself⟩

end Value

namespace SettingsForm

/-- A mapping with a number and a text for keys that become the same text, and with a mapping in a
list. -/
def document : Value :=
  .map [(.int 2, .text "required"),
    (.bool true, .list [.map [(.null, .tuple [.map [(.int 7, .null)]])], .int 5]),
    (.text "2", .text "email")]

/-- The text has the last value at the first place, and in the tuple nothing is converted. -/
def converted : Value :=
  .map [(.text "2", .text "email"),
    (.text "on", .list [.map [(.text "None", .tuple [.map [(.int 7, .null)]])], .int 5])]

theorem not_longKey : ¬document.LongKey := by
  have hconverted : document.textKeys.isOk = true := by decide +kernel
  exact document.textKeys_longIf.isOk_iff.mp hconverted

theorem textKeys_document : document.textKeys = .ok converted := by
  have htwo : (Value.int 2).keyText = .ok "2" := Attempt.eq_ok_of_toOption (by decide +kernel)
  simp only [document, Value.textKeys, Value.textKeysEntries, Value.textKeysItems, htwo]
  rfl

theorem document_becomes_converted :
    ¬document.LongKey ∧ document.KeyedAs converted ∧ converted.TextKeyed ∧
    converted.textKeys = .ok converted ∧ converted.KeysDistinct := by
  obtain ⟨-, hconverts, -⟩ := Value.textKeys_normalizes document
  obtain ⟨keyed, hkeyed, hbecomes, htexts, hagain⟩ := hconverts not_longKey
  obtain rfl : converted = keyed := Except.ok.inj (textKeys_document.symm.trans hkeyed)
  exact ⟨not_longKey, (hbecomes converted).mpr rfl, htexts, hagain,
    ((Value.textKeys_normalizes converted).2.2.mp hagain).2⟩

end SettingsForm

namespace LongField

/-- A field whose name is the least number that has too many digits. -/
def fields : Value := .map [(.int (Nat.pow 10 maxDigits), .text "required")]

/-- **Not every value can be converted**, even if no two keys are equal. -/
theorem fields_not_converted :
    (¬∀ v : Value, v.KeysDistinct → ∃ keyed, v.textKeys = .ok keyed ∧ keyed.TextKeyed) ∧
      fields.KeysDistinct ∧ fields.textKeys = .error .tooManyDigits := by
  have hlong : fields.LongKey := ⟨_, .key List.mem_cons_self, Value.long_pow⟩
  have hstops : fields.textKeys = .error .tooManyDigits :=
    (fields.textKeys_longIf _).mpr ⟨rfl, hlong⟩
  have hdistinct : fields.KeysDistinct := by
    intro es hes
    cases hes with
    | self => exact List.pairwise_singleton _ _
    | entry he hes =>
      obtain rfl := List.mem_singleton.mp he
      cases hes
  refine ⟨fun h => ?_, hdistinct, hstops⟩
  obtain ⟨keyed, hkeyed, -⟩ := h fields hdistinct
  exact nomatch hstops.symm.trans hkeyed

end LongField

end FormRules
