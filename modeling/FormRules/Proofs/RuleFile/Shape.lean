import FormRules.Proofs.RuleFile.Outcomes
import Mathlib.Data.List.Enum
import Mathlib.Data.List.Perm.Basic
import Mathlib.Data.String.Basic

/-!
# The shape of rule documents

A rule document is a mapping with `forms`, and perhaps `messages`, under which there are mappings of
forms and of templates (`RuleDocument.Shaped`). Where a value departs from that is told by
`RuleDocument.departures`, without any schema. A checker that follows the keywords finds the
departures of a value whose keys are texts, each of them once, and the issues come in the order of
the texts of their places (`RuleDocument.issues_exact`). That it comes to an end is another matter:
the messages that it makes show what it found, and not everything can be written.
-/

namespace FormRules

namespace Value

/-- The keys of the mappings that are reached through mappings and lists are texts. -/
def TextKeyed (v : Value) : Prop := ∀ k, KeyIn k v → ∃ s, k = .text s

/-- A mapping has texts as keys if its own are texts, and those in its values are. -/
theorem textKeyed_map_iff {es : List (Value × Value)} :
    (map es).TextKeyed ↔ ∀ e ∈ es, (∃ s, e.1 = .text s) ∧ e.2.TextKeyed := by
  constructor
  · exact fun h e he => ⟨h e.1 (.key he), fun k hk => h k (.entry he hk)⟩
  · intro h k hk
    cases hk with
    | key he => exact (h _ he).1
    | entry he hk => exact (h _ he).2 k hk

theorem textKeyed_list_iff {xs : List Value} : (list xs).TextKeyed ↔ ∀ x ∈ xs, x.TextKeyed := by
  constructor
  · exact fun h x hx k hk => h k (.item hx hk)
  · intro h k hk
    cases hk with
    | item hx hk => exact h _ hx k hk

/-- A value without mappings and lists has no keys. -/
theorem textKeyed_leaf {v : Value} (hmap : ∀ es, v ≠ map es) (hlist : ∀ xs, v ≠ list xs) :
    v.TextKeyed := by
  intro k hk
  cases hk with
  | key | entry => exact absurd rfl (hmap _)
  | item => exact absurd rfl (hlist _)

/-- What is found under a key has texts as keys, like the whole. -/
theorem TextKeyed.find {es : List (Value × Value)} {k v : Value} (h : (map es).TextKeyed)
    (hv : Table.find k es = some v) : v.TextKeyed := by
  obtain ⟨e, he, rfl⟩ := Table.exists_mem_of_get? (t := ⟨es⟩) hv
  exact (textKeyed_map_iff.mp h e he).2

/-- A list is converted item by item. -/
theorem of_textKeysItems {x : Value} {xs ys : List Value} (h : textKeysItems (x :: xs) = .ok ys) :
    ∃ y zs, x.textKeys = .ok y ∧ textKeysItems xs = .ok zs ∧ ys = y :: zs := by
  obtain ⟨y, hy, h⟩ := Run.eq_ok_of_bind h
  obtain ⟨zs, hzs, h⟩ := Run.eq_ok_of_bind h
  exact ⟨y, zs, hy, hzs, (Except.ok.inj h).symm⟩

/-- A mapping is converted entry by entry, the key before the value. -/
theorem of_textKeysEntries {e : Value × Value} {es fs : List (Value × Value)}
    (h : textKeysEntries (e :: es) = .ok fs) :
    ∃ s v gs, e.1.keyText = .ok s ∧ e.2.textKeys = .ok v ∧
      textKeysEntries es = .ok gs ∧ fs = (text s, v) :: gs := by
  obtain ⟨s, hs, h⟩ := Run.eq_ok_of_bind h
  obtain ⟨v, hv, h⟩ := Run.eq_ok_of_bind h
  obtain ⟨gs, hgs, h⟩ := Run.eq_ok_of_bind h
  exact ⟨s, v, gs, hs, hv, hgs, (Except.ok.inj h).symm⟩

mutual

/-- Where the keys of a value have been turned to texts, they are texts. -/
theorem textKeyed_of_textKeys :
    (v : Value) → ∀ {keyed : Value}, v.textKeys = .ok keyed → keyed.TextKeyed
  | .map es, _, h => by
    obtain ⟨es', hes, h⟩ := Run.eq_ok_of_bind h
    cases h
    exact textKeyed_map_iff.mpr (Table.forall_mem_ofList (p := fun k : Value => ∃ s, k = .text s)
      (q := TextKeyed) (textKeyed_of_textKeysEntries es hes))
  | .list xs, _, h => by
    obtain ⟨xs', hxs, h⟩ := Run.eq_ok_of_bind h
    cases h
    exact textKeyed_list_iff.mpr (textKeyed_of_textKeysItems xs hxs)
  | .null, _, rfl | .bool _, _, rfl | .int _, _, rfl | .float _, _, rfl | .text _, _, rfl
  | .tuple _, _, rfl | .set _, _, rfl | .date _, _, rfl | .moment _, _, rfl | .bytes _, _, rfl =>
    textKeyed_leaf (by simp) (by simp)

theorem textKeyed_of_textKeysItems : (xs : List Value) → ∀ {keyed : List Value},
    textKeysItems xs = .ok keyed → ∀ x ∈ keyed, x.TextKeyed
  | [], _, rfl => List.forall_mem_nil _
  | x :: xs, _, h => by
    obtain ⟨y, ys, hy, hys, rfl⟩ := of_textKeysItems h
    exact List.forall_mem_cons.mpr ⟨textKeyed_of_textKeys x hy, textKeyed_of_textKeysItems xs hys⟩

theorem textKeyed_of_textKeysEntries :
    (es : List (Value × Value)) → ∀ {keyed : List (Value × Value)},
    textKeysEntries es = .ok keyed → ∀ e ∈ keyed, (∃ s, e.1 = .text s) ∧ e.2.TextKeyed
  | [], _, rfl => List.forall_mem_nil _
  | (k, v) :: es, _, h => by
    obtain ⟨s, w, fs, -, hw, hfs, rfl⟩ := of_textKeysEntries h
    exact List.forall_mem_cons.mpr
      ⟨⟨⟨s, rfl⟩, textKeyed_of_textKeys v hw⟩, textKeyed_of_textKeysEntries es hfs⟩

end

/-- Only the text itself equals a text. -/
theorem beq_text_iff {v : Value} {s : String} : v == .text s ↔ v = .text s := by
  rw [beq_def]
  cases v <;> simp [same, number?]

end Value

namespace RuleDocument

/-! ## Rule documents -/

def isNull : Value → Bool
  | .null => true
  | _ => false

def isText : Value → Bool
  | .text _ => true
  | _ => false

/-- A list of items that fit. -/
def isListOf (fits : Value → Bool) : Value → Bool
  | .list xs => xs.all fits
  | _ => false

/-- A mapping to values that fit. -/
def isMapOf (fits : Value → Bool) : Value → Bool
  | .map es => es.all fun e => fits e.2
  | _ => false

/-- The rules of a field: a text, or a list of texts. -/
def isRules : Value → Bool
  | .text _ => true
  | .list xs => xs.all isText
  | _ => false

/-- The fields of a form: none, or a mapping to rules. -/
def isForm : Value → Bool
  | .null => true
  | .map es => es.all fun e => isRules e.2
  | _ => false

/-- A template, or a mapping to templates. -/
def isTemplate : Value → Bool
  | .text _ => true
  | .map es => es.all fun e => isText e.2
  | _ => false

/-- The value is a mapping to values that fit. -/
def IsMapOf (fits : Value → Bool) (v : Value) : Prop := ∃ es, v = .map es ∧ ∀ e ∈ es, fits e.2

/-- The value has the shape of a rule document. -/
def Shaped (document : Value) : Prop :=
  ∃ es, document = .map es ∧ (∃ v, Table.find (.text "forms") es = some v ∧ IsMapOf isForm v) ∧
    (∀ e ∈ es, e.1 = .text "forms" ∨ e.1 = .text "messages") ∧
    ∀ v, Table.find (.text "messages") es = some v → IsMapOf isTemplate v

/-! ## Departures -/

/-- The text of a place: a slash between names, but none before a bracket. -/
def place (steps : List String) : String := Text.replace "/[" "[" ("/".intercalate steps)

/-- The departures of what is found under a name, which has to be a mapping to values that fit. -/
def sectionDepartures (name : String) (fits : Value → Bool) : Value → List (List String)
  | .map es => es.filterMap fun
    | (.text key, v) => if fits v then none else some [name, key]
    | _ => none
  | _ => [[name]]

/-- Where a value departs from the shape of a rule document, by the names that lead there. -/
def departures : Value → List (List String)
  | .map es =>
    (if es.any fun e => e.1 == .text "forms" then [] else [[]]) ++
      (if es.all fun e => e.1 == .text "forms" || e.1 == .text "messages" then [] else [[]]) ++
      ((Table.find (.text "forms") es).toList.flatMap (sectionDepartures "forms" isForm) ++
        (Table.find (.text "messages") es).toList.flatMap (sectionDepartures "messages" isTemplate))
  | _ => [[]]

/-! ## What the keywords decide -/

section Keywords

variable {check : Checker} (hkeywords : check.Keywords)

/-- Nothing is found against the schema in just the values that fit. -/
def Decides (check : Checker) (s : Schema) (fits : Value → Bool) : Prop :=
  ∀ (path : List Value) (v : Value) (found : List Finding), check s path v = .ok found →
    (found = [] ↔ fits v = true)

theorem Decides.congr {s : Schema} {fits fits' : Value → Bool} (h : Decides check s fits)
    (hfits : ∀ v, fits v = fits' v) : Decides check s fits' :=
  fun path v found hfound => (h path v found hfound).trans (by rw [hfits])

include hkeywords

/-- Nothing is found if no keyword fails, neither of the value nor of its parts. -/
theorem nothing_found_iff {s : Schema} (hs : ∀ alternatives, s ≠ .anyOf alternatives)
    {path : List Value} {v : Value} {found : List Finding} (h : check s path v = .ok found)
    (fits : Schema → Value → Bool) (hfits : ∀ p ∈ s.parts path v, Decides check p.1 (fits p.1)) :
    found = [] ↔ s.unmet v = 0 ∧ ∀ p ∈ s.parts path v, fits p.1 p.2.2 = true := by
  obtain ⟨parts, hparts, hperm⟩ := hkeywords.own hs h
  have hnothing : parts.flatten = [] ↔ ∀ p ∈ s.parts path v, fits p.1 p.2.2 = true := by
    clear hperm
    generalize s.parts path v = ps at hparts hfits ⊢
    induction hparts with
    | nil => simp
    | @cons p part ps parts hp _ ih =>
      rw [List.forall_mem_cons] at hfits
      rw [List.flatten_cons, List.append_eq_nil_iff, List.forall_mem_cons, hfits.1 _ _ _ hp,
        ih hfits.2]
  rw [← hnothing, ← List.map_eq_nil_iff (f := Finding.path)]
  constructor
  · intro hnil
    rw [hnil, List.nil_perm, List.append_eq_nil_iff, List.map_eq_nil_iff] at hperm
    exact hperm.imp_left fun h => by simpa using h
  · rintro ⟨hunmet, hnone⟩
    rw [hunmet, hnone] at hperm
    exact hperm.eq_nil

/-- Nothing is found in a null only. -/
theorem decides_null : Decides check .null isNull := by
  intro path v found h
  rw [nothing_found_iff hkeywords (by simp) h (fun _ _ => true) (by simp [Schema.parts])]
  cases v <;> simp [Schema.unmet, Schema.parts, isNull]

theorem decides_text : Decides check .text isText := by
  intro path v found h
  rw [nothing_found_iff hkeywords (by simp) h (fun _ _ => true) (by simp [Schema.parts])]
  cases v <;> simp [Schema.unmet, Schema.parts, isText]

/-- Nothing is found in a list whose items fit. -/
theorem decides_listOf {item : Schema} {fits : Value → Bool} (hitem : Decides check item fits) :
    Decides check (.listOf item) (isListOf fits) := by
  intro path v found h
  cases v with
  | list xs =>
    have hparts : ∀ p ∈ (Schema.listOf item).parts path (.list xs), Decides check p.1 fits :=
      List.forall_mem_map.mpr fun _ _ => hitem
    rw [nothing_found_iff hkeywords (by simp) h (fun _ => fits) hparts, Schema.parts,
      List.forall_mem_map, List.forall_mem_zipIdx']
    simp [Schema.unmet, isListOf, List.forall_mem_iff_getElem]
  | _ =>
    rw [nothing_found_iff hkeywords (by simp) h (fun _ => fits) (by simp [Schema.parts])]
    simp [Schema.unmet, isListOf]

/-- Nothing is found in a mapping whose values fit. -/
theorem decides_mapOf {item : Schema} {fits : Value → Bool} (hitem : Decides check item fits) :
    Decides check (.mapOf item) (isMapOf fits) := by
  intro path v found h
  cases v with
  | map es =>
    have hparts : ∀ p ∈ (Schema.mapOf item).parts path (.map es), Decides check p.1 fits :=
      List.forall_mem_map.mpr fun _ _ => hitem
    rw [nothing_found_iff hkeywords (by simp) h (fun _ => fits) hparts, Schema.parts,
      List.forall_mem_map]
    simp [Schema.unmet, isMapOf]
  | _ =>
    rw [nothing_found_iff hkeywords (by simp) h (fun _ => fits) (by simp [Schema.parts])]
    simp [Schema.unmet, isMapOf]

/-- One of two alternatives: there is one finding at the place, unless one of them fits. -/
theorem paths_anyOf {s t : Schema} {fits fits' : Value → Bool} (hs : Decides check s fits)
    (ht : Decides check t fits') {path : List Value} {v : Value} {found : List Finding}
    (h : check (.anyOf [s, t]) path v = .ok found) :
    found.map Finding.path = if fits v || fits' v then [] else [path] := by
  rcases hkeywords.anyOf h with ⟨⟨r, hr, hnone⟩, rfl⟩ | ⟨hall, hpath⟩
  · rcases List.mem_pair.mp hr with rfl | rfl
    · simp [(hs _ _ _ hnone).mp rfl]
    · simp [(ht _ _ _ hnone).mp rfl]
  · obtain ⟨part, hpart, hcheck⟩ := hall s List.mem_cons_self
    obtain ⟨part', hpart', hcheck'⟩ := hall t (List.mem_cons_of_mem s List.mem_cons_self)
    rw [hpath, if_neg]
    rw [Bool.or_eq_true, ← hs _ _ _ hcheck, ← ht _ _ _ hcheck']
    exact not_or.mpr ⟨hpart, hpart'⟩

/-- Nothing is found in what fits one of two alternatives. -/
theorem decides_anyOf {s t : Schema} {fits fits' : Value → Bool} (hs : Decides check s fits)
    (ht : Decides check t fits') : Decides check (.anyOf [s, t]) fun v => fits v || fits' v := by
  intro path v found h
  have hpaths := paths_anyOf hkeywords hs ht h
  rw [← List.map_eq_nil_iff (f := Finding.path), hpaths]
  by_cases hfits : (fits v || fits' v) = true <;> simp [hfits]

/-! ## The schema of rule documents -/

/-- The schema of rules decides what the rules of a field are. -/
theorem decides_rulesSchema : Decides check rulesSchema isRules :=
  (decides_anyOf hkeywords (decides_text hkeywords)
    (decides_listOf hkeywords (decides_text hkeywords))).congr fun v => by
      cases v <;> simp [isText, isListOf, isRules]

/-- The fields of a form are one finding if they do not fit, however much is wrong inside. -/
theorem paths_formSchema {path : List Value} {v : Value} {found : List Finding}
    (h : check formSchema path v = .ok found) :
    found.map Finding.path = if isForm v then [] else [path] := by
  rw [paths_anyOf hkeywords (decides_null hkeywords)
    (decides_mapOf hkeywords (decides_rulesSchema hkeywords)) h]
  congr 1
  cases v <;> simp [isNull, isMapOf, isForm]

/-- So are templates. -/
theorem paths_templateSchema {path : List Value} {v : Value} {found : List Finding}
    (h : check templateSchema path v = .ok found) :
    found.map Finding.path = if isTemplate v then [] else [path] := by
  rw [paths_anyOf hkeywords (decides_text hkeywords)
    (decides_mapOf hkeywords (decides_text hkeywords)) h]
  congr 1
  cases v <;> simp [isText, isMapOf, isTemplate]

/-- One finding for each entry that does not fit. -/
theorem paths_section {item : Schema} {fits : Value → Bool}
    (hitem : ∀ {path v found}, check item path v = .ok found →
      found.map Finding.path = if fits v then [] else [path])
    (name : String) {v : Value} (hv : v.TextKeyed) {found : List Finding}
    (h : check (.mapOf item) [.text name] v = .ok found) :
    (found.map Finding.path).Perm ((sectionDepartures name fits v).map (List.map .text)) := by
  obtain ⟨parts, hparts, hperm⟩ := hkeywords.own (by simp) h
  refine hperm.trans ?_
  cases v with
  | map es =>
    replace hparts := List.forall₂_map_left_iff.mp hparts
    have hkeys : ∀ e ∈ es, ∃ s, e.1 = .text s := fun e he =>
      (Value.textKeyed_map_iff.mp hv e he).1
    have hpaths : parts.flatten.map Finding.path =
        (sectionDepartures name fits (.map es)).map (List.map .text) := by
      clear hperm hv h
      unfold sectionDepartures
      induction hparts with
      | nil => rfl
      | @cons e part es parts hpart _ ih =>
        rw [List.forall_mem_cons] at hkeys
        obtain ⟨⟨key, hkey⟩, hes⟩ := hkeys
        obtain ⟨k, x⟩ := e
        obtain rfl : k = .text key := hkey
        rw [List.flatten_cons, List.map_append, hitem hpart, ih hes]
        by_cases hfits : fits x <;> simp [hfits]
    exact .of_eq hpaths
  | _ =>
    obtain rfl := List.forall₂_nil_left_iff.mp hparts
    exact .refl _

omit hkeywords in
/-- Of the value itself it is told that `forms` is missing and that there are keys that do not
belong there. -/
theorem unmet_schema (es : List (Value × Value)) :
    List.replicate (schema.unmet (.map es)) ([] : List Value) =
      ((if es.any fun e => e.1 == .text "forms" then [] else [[]]) ++
        if es.all fun e => e.1 == .text "forms" || e.1 == .text "messages" then [] else [[]] :
          List (List String)).map (List.map .text) := by
  have hextra : (Schema.extra [("forms", .mapOf formSchema), ("messages", .mapOf templateSchema)]
      es).isEmpty = es.all fun e => e.1 == .text "forms" || e.1 == .text "messages" := by
    rw [Bool.eq_iff_iff, List.isEmpty_iff, Schema.extra, List.filter_eq_nil_iff]
    simp [or_iff_not_imp_left]
  rw [schema, Schema.unmet, hextra, List.replicate_add, List.map_append]
  congr 1
  · by_cases hforms : es.any fun e => e.1 == .text "forms" <;> simp [Schema.absent, hforms]
  · split <;> rfl

/-- **The schema finds the departures, each of them once.** -/
theorem paths_schema {document : Value} (hdocument : document.TextKeyed) {found : List Finding}
    (h : check schema [] document = .ok found) :
    (found.map Finding.path).Perm ((departures document).map (List.map .text)) := by
  obtain ⟨parts, hparts, hperm⟩ := hkeywords.own (by simp [schema]) h
  refine hperm.trans ?_
  cases document with
  | map es =>
    have hforms {v : Value} {part : List Finding} (hv : Table.find (.text "forms") es = some v)
        (hpart : check (.mapOf formSchema) [.text "forms"] v = .ok part) :=
      paths_section hkeywords (paths_formSchema hkeywords) "forms" (hdocument.find hv) hpart
    have hmessages {v : Value} {part : List Finding}
        (hv : Table.find (.text "messages") es = some v)
        (hpart : check (.mapOf templateSchema) [.text "messages"] v = .ok part) :=
      paths_section hkeywords (paths_templateSchema hkeywords) "messages" (hdocument.find hv) hpart
    rw [departures, List.map_append, ← unmet_schema es]
    refine List.Perm.append_left _ ?_
    simp only [schema, Schema.parts, List.filterMap_cons, List.filterMap_nil] at hparts
    -- the two sections are there or not
    rcases hfind : Table.find (Value.text "forms") es with _ | forms <;>
      rcases hfind' : Table.find (Value.text "messages") es with _ | messages <;>
      simp only [hfind, hfind', Option.map_none, Option.map_some, List.forall₂_nil_left_iff,
        List.forall₂_cons_left_iff] at hparts
    · obtain rfl := hparts
      exact .nil
    · obtain ⟨part, _, hpart, rfl, rfl⟩ := hparts
      simpa using hmessages hfind' hpart
    · obtain ⟨part, _, hpart, rfl, rfl⟩ := hparts
      simpa using hforms hfind hpart
    · obtain ⟨part, _, hpart, ⟨part', _, hpart', rfl, rfl⟩, rfl⟩ := hparts
      simpa using (hforms hfind hpart).append (hmessages hfind' hpart')
  | _ =>
    obtain rfl := List.forall₂_nil_left_iff.mp hparts
    exact .refl _

end Keywords

/-! ## Checking a document -/

/-- A section has no departures just if it is a mapping to values that fit. -/
theorem sectionDepartures_eq_nil_iff {name : String} {fits : Value → Bool} {v : Value}
    (h : v.TextKeyed) : sectionDepartures name fits v = [] ↔ IsMapOf fits v := by
  cases v with
  | map es =>
    simp only [sectionDepartures, List.filterMap_eq_nil_iff, IsMapOf, Value.map.injEq,
      exists_eq_left']
    refine forall₂_congr fun e he => ?_
    obtain ⟨key, hkey⟩ := (Value.textKeyed_map_iff.mp h e he).1
    obtain ⟨k, v⟩ := e
    obtain rfl : k = .text key := hkey
    simp
  | _ => simp [sectionDepartures, IsMapOf]

/-- A value has the shape of a rule document if it departs from it nowhere. -/
theorem departures_eq_nil_iff {document : Value} (h : document.TextKeyed) :
    departures document = [] ↔ Shaped document := by
  cases document with
  | map es =>
    have hsection (name : String) (fits : Value → Bool) :
        (Table.find (.text name) es).toList.flatMap (sectionDepartures name fits) = [] ↔
          ∀ v, Table.find (.text name) es = some v → IsMapOf fits v := by
      cases hfind : Table.find (Value.text name) es with
      | none => simp
      | some v => simpa using sectionDepartures_eq_nil_iff (h.find hfind)
    have hforms : (es.any fun e => e.1 == .text "forms") ↔
        ∃ v, Table.find (.text "forms") es = some v := by
      rw [← Table.isSome_find, Option.isSome_iff_exists]
    have hsplit : departures (.map es) = [] ↔ ((es.any fun e => e.1 == .text "forms") ∧
        es.all fun e => e.1 == .text "forms" || e.1 == .text "messages") ∧
          (∀ v, Table.find (.text "forms") es = some v → IsMapOf isForm v) ∧
            ∀ v, Table.find (.text "messages") es = some v → IsMapOf isTemplate v := by
      simp only [departures, List.append_eq_nil_iff, hsection, ite_eq_left_iff, List.cons_ne_nil,
        imp_false, not_not]
    rw [hsplit, hforms]
    simp only [List.all_eq_true, Bool.or_eq_true, Value.beq_text_iff]
    constructor
    · rintro ⟨⟨⟨v, hv⟩, hkeys⟩, hfits, hmessages⟩
      exact ⟨es, rfl, ⟨v, hv, hfits v hv⟩, hkeys, hmessages⟩
    · rintro ⟨es', hes, ⟨v, hv, hfits⟩, hkeys, hmessages⟩
      cases hes
      refine ⟨⟨⟨v, hv⟩, hkeys⟩, fun v' hv' => ?_, hmessages⟩
      rw [hv] at hv'
      exact Option.some.inj hv' ▸ hfits
  | _ => simp [departures, Shaped]

/-- The place of a finding that names lead to. -/
theorem pathText_map_text (steps : List String) :
    Finding.pathText (steps.map .text) = .ok (place steps) := by
  have hsteps : (steps.map Value.text).mapM Finding.stepText = .ok steps := by
    rw [Attempt.mapM_eq_ok_iff, List.forall₂_map_left_iff, List.forall₂_same]
    exact fun _ _ => rfl
  rw [Finding.pathText, hsteps]
  rfl

section Issues

variable {check : Checker} {document : Value} {file : String}

/-- The issues are the findings, in the order of the texts of their places. -/
theorem issues_of_check {found : List Finding} (hcheck : check schema [] document = .ok found) :
    issues check document file =
      (do return (← found.mapM (Finding.toIssue file)).mergeSort fun a b =>
        decide (a.path ≤ b.path)) := by
  rw [issues, Schema.issues, hcheck]
  rfl

/-- The issues come in the order of their places. -/
theorem paths_sorted {told : List Issue} (h : issues check document file = .ok told) :
    (told.map Issue.path).Pairwise (· ≤ ·) := by
  obtain ⟨found, hfound, h⟩ := Run.eq_ok_of_bind h
  obtain ⟨unsorted, -, h⟩ := Run.eq_ok_of_bind h
  obtain rfl := Except.ok.inj h
  have htrans (a b c : Issue) (hab : decide (a.path ≤ b.path)) (hbc : decide (b.path ≤ c.path)) :
      decide (a.path ≤ c.path) :=
    decide_eq_true ((of_decide_eq_true hab).trans (of_decide_eq_true hbc))
  have htotal (a b : Issue) : decide (a.path ≤ b.path) || decide (b.path ≤ a.path) := by
    simpa using le_total a.path b.path
  have hsorted := List.pairwise_mergeSort htrans htotal unsorted
  exact List.pairwise_map.mpr (hsorted.imp of_decide_eq_true)

variable (hkeywords : check.Keywords) (hdocument : document.TextKeyed)
include hkeywords hdocument

/-- There is one issue for each departure. -/
theorem paths_perm {told : List Issue} (h : issues check document file = .ok told) :
    (told.map Issue.path).Perm ((departures document).map place) := by
  obtain ⟨found, hfound, h⟩ := Run.eq_ok_of_bind h
  obtain ⟨unsorted, hunsorted, h⟩ := Run.eq_ok_of_bind h
  obtain rfl := Except.ok.inj h
  refine ((List.mergeSort_perm unsorted _).map Issue.path).trans ?_
  rw [Attempt.mapM_eq_ok_iff] at hunsorted
  have htold : (unsorted.map Issue.path).map (Except.ok : String → Attempt String) =
      (found.map Finding.path).map Finding.pathText := by
    rw [List.map_map, List.map_map, ← List.forall₂_eq_eq_eq, List.forall₂_map_left_iff,
      List.forall₂_map_right_iff]
    refine hunsorted.flip.imp fun issue f hissue => ?_
    obtain ⟨path, hpath, hissue⟩ := Run.eq_ok_of_bind hissue
    obtain rfl := Except.ok.inj hissue
    exact hpath.symm
  have hplaces : ((departures document).map (List.map Value.text)).map Finding.pathText =
      ((departures document).map place).map (Except.ok : String → Attempt String) := by
    rw [List.map_map, List.map_map]
    exact List.map_congr_left fun steps _ => pathText_map_text steps
  have hinjective : Function.Injective (Except.ok : String → Attempt String) :=
    fun _ _ => Except.ok.inj
  rw [← List.map_perm_map_iff hinjective, htold, ← hplaces]
  exact (paths_schema hkeywords hdocument hfound).map Finding.pathText

/-- A document without issues has the right shape. -/
theorem shaped_of_issues (h : issues check document file = .ok []) : Shaped document := by
  have hpaths := paths_perm hkeywords hdocument h
  rw [List.map_nil, List.nil_perm, List.map_eq_nil_iff] at hpaths
  exact (departures_eq_nil_iff hdocument).mp hpaths

/-- Nothing is found in a document that has the shape. -/
theorem issues_of_shaped (hshaped : Shaped document) {found : List Finding}
    (hfound : check schema [] document = .ok found) : issues check document file = .ok [] := by
  have hpaths := paths_schema hkeywords hdocument hfound
  rw [(departures_eq_nil_iff hdocument).mpr hshaped, List.map_nil, List.perm_nil,
    List.map_eq_nil_iff] at hpaths
  rw [issues_of_check hfound, hpaths]
  simp [pure, Except.pure, bind, Except.bind]

/-- There are no issues to be had only if the checker fails: names can always be written. -/
theorem issues_error_iff_check (fault : Fault) :
    issues check document file = .error fault ↔ check schema [] document = .error fault := by
  rw [issues, Schema.issues_error_iff, or_iff_left]
  rintro ⟨found, hfound, -, f, hf, step, hstep, hlong⟩
  have hpath := (paths_schema hkeywords hdocument hfound).mem_iff.mp (List.mem_map_of_mem hf)
  obtain ⟨steps, -, hsteps⟩ := List.mem_map.mp hpath
  rw [← hsteps] at hstep
  obtain ⟨s, -, rfl⟩ := List.mem_map.mp hstep
  exact Value.not_long_text s hlong

end Issues

/-- On documents that have the shape the checker comes to an end. -/
def Completes (check : Checker) : Prop :=
  ∀ document : Value, document.TextKeyed → Shaped document →
    ∃ found, check schema [] document = .ok found

/-- **Checking a document is exact.** Let a checker follow the keywords, and let it come to an end
on documents that have the right shape. Checking a value whose keys are texts gives no issue just if
it has the shape of a rule document. The issues are one for each departure from that, in the order
of the texts of their places, and there are none to be had just if the checker fails. -/
theorem issues_exact {check : Checker} (hkeywords : check.Keywords) (hcompletes : Completes check)
    {document : Value} (h : document.TextKeyed) (file : String) :
    (issues check document file = .ok [] ↔ Shaped document) ∧
      (∀ told, issues check document file = .ok told →
        (told.map Issue.path).Perm ((departures document).map place) ∧
          (told.map Issue.path).Pairwise (· ≤ ·)) ∧
      ∀ fault, issues check document file = .error fault ↔
        check schema [] document = .error fault := by
  refine ⟨⟨shaped_of_issues hkeywords h, fun hshaped => ?_⟩, fun told htold => ?_,
    issues_error_iff_check hkeywords h⟩
  · obtain ⟨found, hfound⟩ := hcompletes document h hshaped
    exact issues_of_shaped hkeywords h hshaped hfound
  · exact ⟨paths_perm hkeywords h htold, paths_sorted htold⟩

/-! ## The checker among the standard tools -/

theorem not_long_of_isText {v : Value} (h : isText v) : ¬v.Long := by
  cases v with
  | text s => exact Value.not_long_text s
  | _ => cases h

/-- A mapping whose keys are texts has too long a number only in its values. -/
theorem not_long_map {es : List (Value × Value)} (hkeyed : (Value.map es).TextKeyed)
    (h : ∀ e ∈ es, ¬e.2.Long) : ¬(Value.map es).Long := by
  rw [Value.long_map_iff]
  rintro ⟨e, he, hlong | hlong⟩
  · obtain ⟨s, hs⟩ := (Value.textKeyed_map_iff.mp hkeyed e he).1
    exact Value.not_long_text s (hs ▸ hlong)
  · exact h e he hlong

/-- The rules of a field have no number in them that is too long. -/
theorem not_long_of_isRules {v : Value} (h : isRules v) : ¬v.Long := by
  cases v with
  | text s => exact Value.not_long_text s
  | list xs =>
    rw [Value.long_list_iff]
    rintro ⟨x, hx, hlong⟩
    exact not_long_of_isText (List.all_eq_true.mp h x hx) hlong
  | _ => cases h

/-- Nor have the fields of a form. -/
theorem not_long_of_isForm {v : Value} (hkeyed : v.TextKeyed) (h : isForm v) : ¬v.Long := by
  cases v with
  | null => exact Value.not_long nofun rfl
  | map es =>
    exact not_long_map hkeyed fun e he => not_long_of_isRules (List.all_eq_true.mp h e he)
  | _ => cases h

theorem not_long_of_isTemplate {v : Value} (hkeyed : v.TextKeyed) (h : isTemplate v) :
    ¬v.Long := by
  cases v with
  | text s => exact Value.not_long_text s
  | map es =>
    exact not_long_map hkeyed fun e he => not_long_of_isText (List.all_eq_true.mp h e he)
  | _ => cases h

/-- Nor has a section whose values have none. -/
theorem not_long_of_isMapOf {fits : Value → Bool}
    (hfits : ∀ v : Value, v.TextKeyed → fits v → ¬v.Long) {v : Value} (hkeyed : v.TextKeyed)
    (h : IsMapOf fits v) : ¬v.Long := by
  obtain ⟨es, rfl, h⟩ := h
  exact not_long_map hkeyed fun e he =>
    hfits e.2 (Value.textKeyed_map_iff.mp hkeyed e he).2 (h e he)

/-- The checker comes to an end on documents of the right shape, which are made of texts. -/
theorem completes_check : Completes Schema.check := by
  rintro _ hkeyed ⟨es, rfl, ⟨forms, hforms, hisForms⟩, -, hmessages⟩
  cases hcheck : schema.check [] (.map es) with
  | ok found => exact ⟨found, rfl⟩
  | error fault =>
    obtain ⟨-, e, he, hlong⟩ | hfields := Schema.of_check_record hcheck
    · obtain ⟨s, hs⟩ := (Value.textKeyed_map_iff.mp hkeyed e he).1
      exact absurd (hs ▸ hlong) (Value.not_long_text s)
    · obtain ⟨-, f, hf, v, hv, hlong⟩ := Schema.long_of_checkFields _ hfields
      have hvalue := hkeyed.find hv
      rcases List.mem_pair.mp hf with rfl | rfl
      · obtain rfl := Option.some.inj (hforms.symm.trans hv)
        exact absurd hlong (not_long_of_isMapOf (fun _ => not_long_of_isForm) hvalue hisForms)
      · exact absurd hlong
          (not_long_of_isMapOf (fun _ => not_long_of_isTemplate) hvalue (hmessages v hv))

end RuleDocument

namespace Misshapen

open RuleDocument

/-- A form that is a number, and a key that does not belong there. -/
def document : Value :=
  .map [(.text "forms", .map [(.text "login", .map [(.text "mail", .text "required")]),
    (.text "signup", .int 5)]), (.text "title", .null)]

theorem textKeyed : document.TextKeyed := by
  simp [document, Value.textKeyed_map_iff, Value.textKeyed_leaf]

theorem departures_eq : departures document = [[], ["forms", "signup"]] := rfl

/-- There is an issue for the key, and one for the form. -/
theorem two_issues : document.TextKeyed ∧ ¬ Shaped document ∧
    ∃ told, issues Schema.check document "rules.yaml" = .ok told ∧
      (told.map Issue.path).Perm ["", "forms/signup"] ∧
      (told.map Issue.path).Pairwise (· ≤ ·) := by
  obtain ⟨-, hok, -⟩ :=
    issues_exact Schema.keywords_check completes_check textKeyed "rules.yaml"
  have hdeparts : ¬ Shaped document := by
    rw [← departures_eq_nil_iff textKeyed, departures_eq]
    exact List.cons_ne_nil _ _
  have hissues : (issues Schema.check document "rules.yaml").isOk = true := by decide +kernel
  refine ⟨textKeyed, hdeparts, ?_⟩
  cases htold : issues Schema.check document "rules.yaml" with
  | error fault =>
    rw [htold] at hissues
    cases hissues
  | ok told =>
    have hpaths := hok told htold
    rw [departures_eq] at hpaths
    exact ⟨told, rfl, hpaths⟩

end Misshapen

namespace LongNumber

open RuleDocument

/-- The forms are a number of one digit more than can be written. -/
def document : Value := .map [(.text "forms", .int (Nat.pow 10 maxDigits))]

/-- The document departs from the shape in one place, but no issue tells of it. -/
theorem departure_untold : document.TextKeyed ∧ (departures document).map place = ["forms"] ∧
    ¬∃ told, issues Schema.check document "rules.yaml" = .ok told := by
  have htextKeyed : document.TextKeyed := Value.textKeyed_map_iff.mpr <|
    List.forall_mem_singleton.mpr ⟨⟨"forms", rfl⟩, Value.textKeyed_leaf nofun nofun⟩
  have hliteral : (Value.int (Nat.pow 10 maxDigits)).literal = .error .tooManyDigits :=
    (Value.literal_longIf _ .tooManyDigits).mpr ⟨rfl, Value.long_pow⟩
  have hmessage : (Problem.wrongKind (.int (Nat.pow 10 maxDigits)) "object").finding
      [.text "forms"] = .error .tooManyDigits := by
    rw [Problem.finding, Problem.message, hliteral]
    rfl
  refine ⟨htextKeyed, by decide +kernel, ?_⟩
  rintro ⟨told, htold⟩
  obtain ⟨found, hfound, -⟩ := Run.eq_ok_of_bind htold
  obtain ⟨parts, hparts, -⟩ := Schema.keywords_check.own (by simp [schema]) hfound
  have hpart : schema.parts [] document =
      [(.mapOf formSchema, [.text "forms"], .int (Nat.pow 10 maxDigits))] := rfl
  rw [hpart] at hparts
  obtain ⟨part, _, hcheck, -⟩ := List.forall₂_cons_left_iff.mp hparts
  cases hmessage.symm.trans hcheck

end LongNumber

end FormRules
