import FormRules.Proofs.Text.Trim
import FormRules.Proofs.Value.Writing
import FormRules.RuleFile.Load

/-!
# Normal rule sets

What declarations come to can be told at once (`Config.normalized`): the same forms with the same
fields, and of the texts that a field declares those that are not blank, trimmed. Either there is
nothing wrong with the declarations and they come to this, or there is a reason for the fault that
they come to; one step after the other keeps it that way (`Settles.bind`).

A rule set that was made from declarations is normal: no rule in it is blank or has white space
around it. As declarations, a normal rule set comes to itself, wherever the configuration cuts texts
(`RuleSet.Normal.normalize_toValue`).

The rules of a field are one text or a sequence of texts, whatever the kind of the sequence: bytes
are a sequence of numbers, and no bytes are as good as an empty list (`NoBytes.not_refused`).
-/

namespace FormRules

open Text
open RuleDocument (entriesOf)

/-- The fault tells of declarations that have not the shape they should have. -/
inductive Fault.ConcernsShape : Fault → Prop
  | declarations : ConcernsShape .declarationsShape
  | fields (form : String) : ConcernsShape (.fieldsShape form)
  | rules (place kind : String) : ConcernsShape (.rulesShape place kind)
  | rule (place kind : String) : ConcernsShape (.ruleShape place kind)

namespace Value

/-- The text that a value is. -/
def text? : Value → Option String
  | .text s => some s
  | _ => none

/-- The items of a sequence: lists and tuples hold values, and bytes hold numbers. A sequence of any
other kind is like the tuple of its items. -/
def sequence? : Value → Option (List Value)
  | .list xs | .tuple xs => some xs
  | .bytes bs => some (bs.map fun b : Nat => .int b)
  | _ => none

/-- The rules of a field: one text, or a sequence of texts. -/
inductive IsRules : Value → Prop
  | text (s : String) : IsRules (.text s)
  | sequence {v : Value} {xs : List Value} (hv : v.sequence? = some xs)
      (h : ∀ x ∈ xs, ∃ s, x = .text s) : IsRules v

/-- A sequence makes rules if its items are texts. -/
theorem isRules_sequence_iff {v : Value} {xs : List Value} (hv : v.sequence? = some xs) :
    v.IsRules ↔ ∀ x ∈ xs, ∃ s, x = .text s := by
  refine ⟨fun h => ?_, .sequence hv⟩
  cases h with
  | text s => cases hv
  | sequence hv' h => rwa [Option.some.inj (hv.symm.trans hv')]

theorem IsRules.texts (texts : List String) : (Value.list (texts.map .text)).IsRules := by
  refine .sequence rfl fun x hx => ?_
  obtain ⟨s, -, rfl⟩ := List.mem_map.mp hx
  exact ⟨s, rfl⟩

/-- The fields of a form: none, or a mapping to rules. -/
inductive IsFields : Value → Prop
  | null : IsFields .null
  | map {fields : List (Value × Value)} (h : ∀ field ∈ fields, field.2.IsRules) :
    IsFields (.map fields)

/-- Of a form with these fields, a name that is asked for has too many digits. -/
def LongNamed (form : Value) : Value → Prop
  | .null => False
  | .map fields => ∃ field ∈ fields, form.Long ∨ field.1.Long
  | _ => form.Long

/-- Names that are texts have no number in them that could be too long. -/
theorem not_longNamed_text (form : String) {fields : List (Value × Value)}
    (h : ∀ field ∈ fields, ∃ s, field.1 = .text s) :
    ¬(Value.text form).LongNamed (.map fields) := by
  rintro ⟨field, hfield, hlong | hlong⟩
  · exact not_long_text form hlong
  · obtain ⟨s, hs⟩ := h field hfield
    exact not_long_text s (hs ▸ hlong)

/-- The fields of a form may as well be given by a mapping. -/
theorem IsFields.map_entriesOf {fields : Value} (h : fields.IsFields) :
    (Value.map (entriesOf fields)).IsFields := by
  cases h with
  | null => exact .map (List.forall_mem_nil _)
  | map h => exact .map h

theorem IsFields.longNamed_map_iff {form fields : Value} (h : fields.IsFields) :
    form.LongNamed (.map (entriesOf fields)) ↔ form.LongNamed fields := by
  cases h with
  | null => simp [LongNamed, entriesOf]
  | map h => rfl

end Value

/-! ## Texts that are kept -/

/-- The texts that are not blank, trimmed. -/
def kept (texts : List String) : List String :=
  (texts.filter fun s => !isBlankText s.toList).map strip

/-- Tidying texts keeps those that are not blank. -/
theorem Config.tidy_eq_kept (texts : List String) : tidy texts = kept texts := by
  rw [tidy, kept, List.filter_map]
  simp only [Function.comp_def, isEmpty_strip]

/-- What is kept is not blank, and is trimmed. -/
theorem of_mem_kept {texts : List String} {s : String} (hs : s ∈ kept texts) :
    isBlankText s.toList = false ∧ strip s = s := by
  obtain ⟨t, ht, rfl⟩ := List.mem_map.mp hs
  have hblank : isBlankText t.toList = false := by simpa using (List.mem_filter.mp ht).2
  refine ⟨?_, strip_strip t⟩
  rwa [← isEmpty_strip, strip_strip, isEmpty_strip]

/-- Texts that are not blank, and trimmed, are all kept as they are. -/
theorem kept_eq_self {texts : List String}
    (h : ∀ s ∈ texts, isBlankText s.toList = false ∧ strip s = s) : kept texts = texts := by
  have hall : texts.filter (fun s => !isBlankText s.toList) = texts :=
    List.filter_eq_self.mpr fun s hs => by simp [(h s hs).1]
  rw [kept, hall]
  exact (List.map_congr_left fun s hs => (h s hs).2).trans (List.map_id texts)

/-! ## Attempts that settle -/

/-- The attempt comes to `a` if there is no reason for a fault, and else to a fault with a
reason. -/
inductive Settles {α : Type} (reason : Fault → Prop) : Attempt α → α → Prop
  | ok (a : α) (h : ∀ fault, ¬reason fault) : Settles reason (.ok a) a
  | error {fault : Fault} (a : α) (h : reason fault) : Settles reason (.error fault) a

namespace Settles

variable {α β : Type} {reason cause : Fault → Prop} {x : Attempt α} {a : α}

theorem congr (h : Settles reason x a) (hreason : ∀ fault, reason fault ↔ cause fault) :
    Settles cause x a := by
  cases h with
  | ok _ h => exact .ok a fun fault hcause => h fault ((hreason fault).mpr hcause)
  | error _ h => exact .error a ((hreason _).mp h)

/-- One step after the other: there may be a reason in either. -/
theorem bind {f : α → Attempt β} {b : β} (hx : Settles reason x a) (hf : Settles cause (f a) b) :
    Settles (fun fault => reason fault ∨ cause fault) (x >>= f) b := by
  cases hx with
  | ok _ h => exact hf.congr fun fault => (or_iff_right (h fault)).symm
  | error _ h => exact .error b (.inl h)

theorem map (h : Settles reason x a) (g : α → β) : Settles reason (do return g (← x)) (g a) := by
  cases h with
  | ok _ h => exact .ok (g a) h
  | error _ h => exact .error (g a) h

/-- Where there can be no reason for a fault, the result is the one expected. -/
theorem eq_ok (h : Settles reason x a) (hreason : ∀ fault, ¬reason fault) : x = .ok a := by
  cases h with
  | ok => rfl
  | error _ h => exact absurd h (hreason _)

end Settles

/-- A value can be written if it is not too long. -/
theorem Value.toText_settles (v : Value) :
    ∃ s, Settles (fun fault => fault = .tooManyDigits ∧ v.Long) v.toText s := by
  have hlong := v.toText_longIf
  cases htext : v.toText with
  | ok s =>
    rw [htext] at hlong
    exact ⟨s, .ok s fun fault h => nomatch (hlong fault).mpr h⟩
  | error fault =>
    rw [htext] at hlong
    exact ⟨"", .error "" ((hlong fault).mp rfl)⟩

/-! ## What declarations come to -/

namespace Config

/-- The texts that the rules of a field declare. -/
def declared (c : Config) : Value → List String
  | .text s => splitText c.ruleDelimiter s
  | v => (v.sequence?.getD []).filterMap Value.text?

/-- The fields with the rules that are kept of what they declare. -/
def normalizedFields (c : Config) (fields : List (Value × Value)) : List (Value × List String) :=
  fields.map fun field => (field.1, kept (c.declared field.2))

/-- The forms with these fields. -/
def normalized (c : Config) (forms : List (Value × Value)) : RuleSet :=
  ⟨forms.map fun form => (form.1, ⟨c.normalizedFields (entriesOf form.2)⟩)⟩

/-- A sequence declares its items. -/
theorem declared_sequence (c : Config) {v : Value} {xs : List Value} (hv : v.sequence? = some xs) :
    c.declared v = xs.filterMap Value.text? := by
  have hdeclared : c.declared v = (v.sequence?.getD []).filterMap Value.text? := by
    cases v with
    | text s => cases hv
    | _ => rfl
  rw [hdeclared, hv, Option.getD_some]

theorem declared_list (c : Config) (texts : List String) :
    c.declared (.list (texts.map .text)) = texts := by
  rw [declared_sequence c rfl, List.filterMap_map]
  simp [Function.comp_def, Value.text?]

/-- If the rules are one text, it can be cut. -/
def Separates (c : Config) (rules : Value) : Prop :=
  ∀ s, rules = .text s → c.ruleDelimiter.isEmpty = false

variable {c : Config}

/-- Items are taken unless one of them is no text. -/
theorem ruleTexts_settles (place : String) (xs : List Value) :
    Settles (fun fault => fault.ConcernsShape ∧ ¬∀ x ∈ xs, ∃ s, x = .text s) (ruleTexts place xs)
      (xs.filterMap Value.text?) := by
  induction xs with
  | nil => exact .ok [] (by simp)
  | cons x xs ih =>
    cases x with
    | text s => exact (ih.map (s :: ·)).congr (by simp)
    | _ => exact .error _ ⟨.rule place _, by simp⟩

/-- The items of a sequence are looked at one by one. -/
theorem splitRules_sequence (c : Config) {v : Value} {xs : List Value} (hv : v.sequence? = some xs)
    (place : String) : c.splitRules v place =
      (do return tidy (← ruleTexts (if place.isEmpty then "field" else place) xs)) := by
  cases v with
  | list | tuple | bytes => cases hv; rfl
  | _ => cases hv

/-- The rules of a field are split unless they are no rules. -/
theorem splitRules_settles {rules : Value} (hc : c.Separates rules) (place : String) :
    Settles (fun fault => fault.ConcernsShape ∧ ¬rules.IsRules) (c.splitRules rules place)
      (kept (c.declared rules)) := by
  rcases hv : rules.sequence? with _ | xs
  · cases rules with
    | text s =>
      simp only [splitRules, hc s rfl, tidy_eq_kept]
      exact .ok _ fun fault h => h.2 (.text s)
    | list | tuple | bytes => cases hv
    | _ =>
      refine .error _ ⟨.rules _ _, fun h => ?_⟩
      cases h with
      | sequence hv => cases hv
  · rw [splitRules_sequence c hv, declared_sequence c hv]
    simp only [tidy_eq_kept, Value.isRules_sequence_iff hv]
    exact (ruleTexts_settles _ xs).map kept

/-- The fields of a form are normalized unless the rules of one are none, or a name that is asked
for is too long a number. -/
theorem fields_settles (form : Value) {fields : List (Value × Value)}
    (hc : ∀ field ∈ fields, c.Separates field.2) :
    Settles (fun fault => (fault.ConcernsShape ∧ ¬∀ field ∈ fields, field.2.IsRules) ∨
        (fault = .tooManyDigits ∧ ∃ field ∈ fields, form.Long ∨ field.1.Long))
      (c.normalizeFields form fields) (c.normalizedFields fields) := by
  induction fields with
  | nil => exact .ok [] (by simp)
  | cons field fields ih =>
    obtain ⟨name, rules⟩ := field
    rw [List.forall_mem_cons] at hc
    obtain ⟨formText, hform⟩ := form.toText_settles
    obtain ⟨nameText, hname⟩ := name.toText_settles
    have hrules := splitRules_settles hc.1 (formText ++ "." ++ nameText)
    have hfields := (ih hc.2).map ((name, kept (c.declared rules)) :: ·)
    refine (hform.bind (hname.bind (hrules.bind hfields))).congr fun fault => ?_
    simp only [List.forall_mem_cons, List.exists_mem_cons_iff]
    grind

/-- So is a form, unless it has no fields and is not null. -/
theorem form_settles (form : Value) {fields : Value}
    (hc : ∀ field ∈ entriesOf fields, c.Separates field.2) :
    Settles (fun fault => (fault.ConcernsShape ∧ ¬fields.IsFields) ∨
        (fault = .tooManyDigits ∧ form.LongNamed fields))
      (c.normalizeForm form fields) ⟨c.normalizedFields (entriesOf fields)⟩ := by
  cases fields with
  | null => exact .ok _ (by simp [Value.LongNamed, Value.IsFields.null])
  | map fields =>
    have hfields : (Value.map fields).IsFields ↔ ∀ field ∈ fields, field.2.IsRules :=
      ⟨fun | .map h => h, .map⟩
    simp only [hfields]
    exact (fields_settles form hc).map Table.mk
  | _ =>
    obtain ⟨formText, hform⟩ := form.toText_settles
    exact (hform.bind (.error _ ⟨.fields formText, nofun⟩)).congr fun fault => or_comm

/-- And so are all forms. -/
theorem forms_settles {forms : List (Value × Value)}
    (hc : ∀ form ∈ forms, ∀ field ∈ entriesOf form.2, c.Separates field.2) :
    Settles (fun fault => (fault.ConcernsShape ∧ ¬∀ form ∈ forms, form.2.IsFields) ∨
        (fault = .tooManyDigits ∧ ∃ form ∈ forms, form.1.LongNamed form.2))
      (c.normalizeForms forms) (c.normalized forms).entries := by
  induction forms with
  | nil => exact .ok [] (by simp)
  | cons form forms ih =>
    obtain ⟨name, fields⟩ := form
    rw [List.forall_mem_cons] at hc
    have hform := form_settles name hc.1
    have hforms := (ih hc.2).map ((name, ⟨c.normalizedFields (entriesOf fields)⟩) :: ·)
    refine (hform.bind hforms).congr fun fault => ?_
    simp only [List.forall_mem_cons, List.exists_mem_cons_iff]
    grind

/-- No forms at all are not looked at, and come to no rules as well. -/
theorem normalize_settles {forms : List (Value × Value)}
    (hc : ∀ form ∈ forms, ∀ field ∈ entriesOf form.2, c.Separates field.2) :
    Settles (fun fault => (fault.ConcernsShape ∧ ¬∀ form ∈ forms, form.2.IsFields) ∨
        (fault = .tooManyDigits ∧ ∃ form ∈ forms, form.1.LongNamed form.2))
      (c.normalize (.map forms)) (c.normalized forms) := by
  cases forms with
  | nil => exact .ok _ (by simp)
  | cons form forms => exact (forms_settles hc).map Table.mk

/-- Forms of the right shape are normalized, if the names in them can be written. -/
theorem normalize_eq_ok {forms : List (Value × Value)}
    (hc : ∀ form ∈ forms, ∀ field ∈ entriesOf form.2, c.Separates field.2)
    (h : ∀ form ∈ forms, form.2.IsFields ∧ ¬form.1.LongNamed form.2) :
    c.normalize (.map forms) = .ok (c.normalized forms) := by
  refine (normalize_settles hc).eq_ok fun fault => ?_
  rintro (⟨-, hshape⟩ | ⟨-, form, hform, hlong⟩)
  · exact hshape fun form hform => (h form hform).1
  · exact (h form hform).2 hlong

end Config

/-! ## Normal rule sets -/

namespace RuleSet

/-- No rule is blank or has white space around it. -/
def Normal (r : RuleSet) : Prop :=
  ∀ form ∈ r.entries, ∀ field ∈ form.2.entries, ∀ rule ∈ field.2,
    isBlankText rule.toList = false ∧ strip rule = rule

/-- The rules that are kept are trimmed, and not blank. -/
theorem normal_normalized (c : Config) (forms : List (Value × Value)) :
    (c.normalized forms).Normal := by
  intro form hform field hfield rule hrule
  obtain ⟨form, -, rfl⟩ := List.mem_map.mp hform
  obtain ⟨field, -, rfl⟩ := List.mem_map.mp hfield
  exact of_mem_kept hrule

/-- What declarations come to has the long names that they have. -/
theorem longNamed_normalized {c : Config} {forms : List (Value × Value)}
    (h : ∀ form ∈ forms, form.2.IsFields ∧ ¬form.1.LongNamed form.2) :
    ∀ form ∈ (c.normalized forms).entries, ¬form.1.LongNamed (fieldsValue form.2) := by
  rintro form hform ⟨field, hfield, hlong⟩
  obtain ⟨form, hdeclared, rfl⟩ := List.mem_map.mp hform
  obtain ⟨hfields, hshort⟩ := h form hdeclared
  -- the name of the field is the one that was declared
  obtain ⟨_, hentry, rfl⟩ := List.mem_map.mp hfield
  obtain ⟨field, hmem, rfl⟩ := List.mem_map.mp hentry
  exact hshort (hfields.longNamed_map_iff.mp ⟨field, hmem, hlong⟩)

/-- A normal rule set as declarations comes to itself. -/
theorem Normal.normalized_toValue {r : RuleSet} (h : r.Normal) (c : Config) :
    c.normalized (r.entries.map fun form => (form.1, fieldsValue form.2)) = r := by
  rw [Config.normalized, List.map_map]
  congr
  refine (List.map_congr_left fun form hform => ?_).trans (List.map_id r.entries)
  obtain ⟨name, ⟨fields⟩⟩ := form
  have hfields : c.normalizedFields (fields.map fun field => (field.1, rulesValue field.2)) =
      fields := by
    rw [Config.normalizedFields, List.map_map]
    refine (List.map_congr_left fun field hfield => ?_).trans (List.map_id fields)
    obtain ⟨name, rules⟩ := field
    simp [rulesValue, Config.declared_list, kept_eq_self (h _ hform _ hfield)]
  simp [fieldsValue, entriesOf, hfields]

theorem isFields_fieldsValue (fields : FieldRules) : (fieldsValue fields).IsFields := by
  refine .map fun field hfield => ?_
  obtain ⟨field, -, rfl⟩ := List.mem_map.mp hfield
  exact .texts field.2

/-- **A normal rule set, normalized again under any configuration, is itself.** -/
theorem Normal.normalize_toValue {r : RuleSet} (h : r.Normal)
    (hnames : ∀ form ∈ r.entries, ¬form.1.LongNamed (fieldsValue form.2)) (c : Config) :
    c.normalize r.toValue = .ok r := by
  rw [toValue, Config.normalize_eq_ok, h.normalized_toValue]
  · intro form hform field hfield s hs
    obtain ⟨form, -, rfl⟩ := List.mem_map.mp hform
    obtain ⟨field, -, rfl⟩ := List.mem_map.mp hfield
    cases hs
  · intro form hform
    obtain ⟨form, hmem, rfl⟩ := List.mem_map.mp hform
    exact ⟨isFields_fieldsValue form.2, hnames form hmem⟩

end RuleSet

/-! ## Declarations of every kind -/

/-- **What declarations come to.** False ones come to no rules, others that are no mapping to a
fault. A mapping whose names can be written comes to a fault just if there is a form whose
declaration has not the right shape, and that is the fault. Else its forms come to normal rules,
which come to themselves whatever the configuration. -/
theorem Config.normalize_cases (c : Config) (hc : c.ruleDelimiter.isEmpty = false)
    (declarations : Value) :
    (declarations.truth = false → c.normalize declarations = .ok ∅) ∧
    (declarations.truth = true → (∀ forms, declarations ≠ .map forms) →
      c.normalize declarations = .error .declarationsShape) ∧
    ∀ forms, declarations = .map forms → (∀ form ∈ forms, ¬form.1.LongNamed form.2) →
      ((∃ fault, c.normalize declarations = .error fault) ↔ ∃ form ∈ forms, ¬form.2.IsFields) ∧
      (∀ fault, c.normalize declarations = .error fault → fault.ConcernsShape) ∧
      ((∀ form ∈ forms, form.2.IsFields) →
        c.normalize declarations = .ok (c.normalized forms) ∧ (c.normalized forms).Normal ∧
        ∀ c' : Config, c'.normalize (c.normalized forms).toValue = .ok (c.normalized forms)) := by
  refine ⟨fun hfalse => ?_, fun htrue hforms => ?_, ?_⟩
  · simp only [normalize, hfalse]
    rfl
  · unfold normalize
    rw [if_pos htrue]
    cases declarations with
    | map forms => exact absurd rfl (hforms forms)
    | _ => rfl
  · rintro forms rfl hshort
    have hcuts : ∀ form ∈ forms, ∀ field ∈ entriesOf form.2, c.Separates field.2 :=
      fun _ _ _ _ _ _ => hc
    have hok (hshape : ∀ form ∈ forms, form.2.IsFields) :
        c.normalize (.map forms) = .ok (c.normalized forms) :=
      normalize_eq_ok hcuts fun form hform => ⟨hshape form hform, hshort form hform⟩
    -- the names can be written, so that the shape is the only reason that is left
    have hreason (fault : Fault) (herror : c.normalize (.map forms) = .error fault) :
        fault.ConcernsShape ∧ ¬∀ form ∈ forms, form.2.IsFields := by
      have hsettles := normalize_settles hcuts
      rw [herror] at hsettles
      cases hsettles with
      | error _ h =>
        rcases h with hshape | ⟨-, form, hform, hlong⟩
        · exact hshape
        · exact absurd hlong (hshort form hform)
    refine ⟨⟨?_, ?_⟩, fun fault herror => (hreason fault herror).1, fun hshape => ?_⟩
    · rintro ⟨fault, herror⟩
      simpa using (hreason fault herror).2
    · rintro ⟨form, hform, hnot⟩
      rcases hx : c.normalize (.map forms) with fault | rules
      · exact ⟨fault, rfl⟩
      · have hsettles := normalize_settles hcuts
        rw [hx] at hsettles
        cases hsettles with
        | ok _ h =>
          exact absurd (.inl ⟨.declarations, fun hshape => hnot (hshape form hform)⟩)
            (h .declarationsShape)
    · have hnormal := RuleSet.normal_normalized c forms
      have hnames := RuleSet.longNamed_normalized (c := c) fun form hform =>
        ⟨hshape form hform, hshort form hform⟩
      exact ⟨hok hshape, hnormal, hnormal.normalize_toValue hnames⟩

/-- Texts are cut at the bar, and a form without fields is one all the same. A number makes no
rules. -/
theorem normalize_signup : (∃ rules : RuleSet,
    rules.entries = [(.text "login", ∅), (.text "signup", ⟨[
      (.text "name", ["required", "min:2"]), (.text "age", ["digits"])]⟩)] ∧
    ({} : Config).normalize (.map [(.text "login", .null), (.text "signup", .map [
      (.text "name", .text " required | |min:2"),
      (.text "age", .list [.text "", .text " digits "])])]) = .ok rules ∧
    ∀ c : Config, c.normalize rules.toValue = .ok rules) ∧
    ∃ fault, ({} : Config).normalize (.map [(.text "signup", .map [(.text "age", .int 5)])]) =
      .error fault ∧ fault.ConcernsShape := by
  constructor
  · have hshort : ∀ form ∈ [(Value.text "login", Value.null), (.text "signup", .map [
        (.text "name", .text " required | |min:2"),
        (.text "age", .list [.text "", .text " digits "])])], ¬form.1.LongNamed form.2 := by
      rintro form (_ | ⟨_, _ | ⟨_, ⟨⟩⟩⟩)
      · exact not_false
      · exact Value.not_longNamed_text "signup" (by simp)
    have hshape : ∀ form ∈ [(Value.text "login", Value.null), (.text "signup", .map [
        (.text "name", .text " required | |min:2"),
        (.text "age", .list [.text "", .text " digits "])])], form.2.IsFields := by
      rintro form (_ | ⟨_, _ | ⟨_, ⟨⟩⟩⟩)
      · exact .null
      · refine .map (List.forall_mem_cons.mpr ⟨.text _, List.forall_mem_singleton.mpr ?_⟩)
        exact .texts ["", " digits "]
    obtain ⟨hrules, -, hagain⟩ := ((Config.normalize_cases {} rfl _).2.2 _ rfl hshort).2.2 hshape
    exact ⟨_, rfl, hrules, hagain⟩
  · have hshort : ∀ form ∈ [(Value.text "signup", Value.map [(.text "age", .int 5)])],
        ¬form.1.LongNamed form.2 :=
      List.forall_mem_singleton.mpr (Value.not_longNamed_text "signup" (by simp))
    have hnot : ¬(Value.map [(.text "age", .int 5)]).IsFields := by
      rintro (_ | h)
      cases h _ (List.mem_singleton_self _) with
      | sequence hv => cases hv
    obtain ⟨hraises, hfault, -⟩ := (Config.normalize_cases {} rfl _).2.2 _ rfl hshort
    obtain ⟨fault, herror⟩ := hraises.mpr ⟨_, List.mem_singleton_self _, hnot⟩
    exact ⟨fault, herror, hfault fault herror⟩

/-- **A sequence need not be a list or tuple.** Empty bytes are one, and declare no rules. -/
theorem NoBytes.not_refused : ¬∀ (c : Config) (forms : List (Value × Value)),
    c.ruleDelimiter.isEmpty = false →
      (∃ form ∈ forms, ∃ field ∈ entriesOf form.2, (∀ s, field.2 ≠ .text s) ∧
        ∀ xs, field.2 ≠ .list xs ∧ field.2 ≠ .tuple xs) →
      ∃ fault, c.normalize (.map forms) = .error fault := by
  intro h
  obtain ⟨fault, herror⟩ := h {} [(.text "f", .map [(.text "x", .bytes [])])] rfl
    ⟨_, List.mem_singleton_self _, _, List.mem_singleton_self _, by simp, by simp⟩
  have hnone : ({} : Config).normalize (.map [(.text "f", .map [(.text "x", .bytes [])])]) =
      .ok ⟨[(.text "f", ⟨[(.text "x", [])]⟩)]⟩ := rfl
  rw [hnone] at herror
  cases herror

end FormRules
