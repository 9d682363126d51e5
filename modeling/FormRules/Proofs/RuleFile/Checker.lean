import FormRules.Proofs.Attempt
import FormRules.Proofs.Table
import FormRules.Proofs.Value.Writing
import FormRules.Proofs.World
import FormRules.RuleFile.Standard

/-!
# What checkers find

Checkers are not made here. What the rest relies on is the meaning that Draft 2020-12 of JSON Schema
gives to the keywords that schemas are made of (`Checker.Keywords`): `type`, `required` and
`additionalProperties: false` are told of the value itself, `items`, `properties` and other
`additionalProperties` of its parts, and of `anyOf` it is told once if no alternative fits. That is
said of checks that come to an end; no checker has to make its messages at all costs. The checker
among the standard tools is one of them (`Schema.keywords_check`).
-/

namespace FormRules

open Run (eq_ok_of_bind)

namespace Schema

/-- The parts of a value that have a schema of their own, by `items`, `additionalProperties` and
`properties`, with their places. -/
def parts : Schema → List Value → Value → List (Schema × List Value × Value)
  | listOf item, path, .list xs => xs.zipIdx.map fun x => (item, path ++ [.int x.2], x.1)
  | mapOf item, path, .map es => es.map fun e => (item, path ++ [e.1], e.2)
  | record _ fields, path, .map es => fields.filterMap fun f =>
    (Table.find (.text f.1) es).map fun v => (f.2, path ++ [.text f.1], v)
  | _, _, _ => []

/-- How often the value itself fails a keyword: `type` once, `required` for each key that is
missing, and `additionalProperties: false` once for all keys that do not belong there. -/
def unmet : Schema → Value → Nat
  | null, .null | text, .text _ | listOf _, .list _ | mapOf _, .map _ => 0
  | record required fields, .map es =>
    (absent required es).length + if (extra fields es).isEmpty then 0 else 1
  | _, _ => 1

end Schema

/-- The findings of a checker that comes to an end are those of the keywords. -/
structure Checker.Keywords (check : Checker) : Prop where
  /-- all keywords but `anyOf` -/
  own {s : Schema} {path : List Value} {v : Value} {found : List Finding}
    (hs : ∀ alternatives, s ≠ .anyOf alternatives) (h : check s path v = .ok found) :
    ∃ parts, List.Forall₂ (fun p part => check p.1 p.2.1 p.2.2 = .ok part) (s.parts path v) parts ∧
      (found.map Finding.path).Perm
        (List.replicate (s.unmet v) path ++ parts.flatten.map Finding.path)
  /-- `anyOf`: an alternative with nothing to find, or all alternatives with something -/
  anyOf {alternatives : List Schema} {path : List Value} {v : Value} {found : List Finding}
    (h : check (.anyOf alternatives) path v = .ok found) :
    (∃ s ∈ alternatives, check s path v = .ok []) ∧ found = [] ∨
      (∀ s ∈ alternatives, ∃ part ≠ [], check s path v = .ok part) ∧
        found.map Finding.path = [path]

/-! ## The checker among the standard tools -/

/-- A problem is one finding at the place. -/
theorem Problem.of_finding {p : Problem} {path : List Value} {found : List Finding}
    (h : p.finding path = .ok found) : ∃ message, found = [⟨path, message⟩] := by
  obtain ⟨message, -, h⟩ := eq_ok_of_bind h
  exact ⟨message, (Except.ok.inj h).symm⟩

namespace Schema

variable {item : List Value → Value → Attempt (List Finding)} {path : List Value}
  {found : List Finding}

/-- Each item is checked at its position. -/
theorem of_itemFindings {xs : List Value} {i : Nat} (h : itemFindings item path i xs = .ok found) :
    ∃ parts, List.Forall₂ (fun (x : Value × Nat) part => item (path ++ [.int x.2]) x.1 = .ok part)
      (xs.zipIdx i) parts ∧ found = parts.flatten := by
  induction xs generalizing i found with
  | nil => exact ⟨[], .nil, (Except.ok.inj h).symm⟩
  | cons x xs ih =>
    obtain ⟨part, hpart, h⟩ := eq_ok_of_bind h
    obtain ⟨rest, hrest, h⟩ := eq_ok_of_bind h
    obtain ⟨parts, hparts, rfl⟩ := ih hrest
    exact ⟨part :: parts, .cons hpart hparts, (Except.ok.inj h).symm⟩

/-- Each value of a mapping is checked at its key. -/
theorem of_entryFindings {es : List (Value × Value)} (h : entryFindings item path es = .ok found) :
    ∃ parts, List.Forall₂ (fun (e : Value × Value) part => item (path ++ [e.1]) e.2 = .ok part) es
      parts ∧ found = parts.flatten := by
  induction es generalizing found with
  | nil => exact ⟨[], .nil, (Except.ok.inj h).symm⟩
  | cons e es ih =>
    obtain ⟨part, hpart, h⟩ := eq_ok_of_bind h
    obtain ⟨rest, hrest, h⟩ := eq_ok_of_bind h
    obtain ⟨parts, hparts, rfl⟩ := ih hrest
    exact ⟨part :: parts, .cons hpart hparts, (Except.ok.inj h).symm⟩

/-- Each value of a record that is there is checked at its key. -/
theorem of_checkFields {fields : List (String × Schema)} {es : List (Value × Value)}
    (h : checkFields fields path es = .ok found) :
    ∃ parts, List.Forall₂
      (fun (p : Schema × List Value × Value) part => p.1.check p.2.1 p.2.2 = .ok part)
      (fields.filterMap fun f => (Table.find (.text f.1) es).map fun v =>
        (f.2, path ++ [.text f.1], v)) parts ∧ found = parts.flatten := by
  induction fields generalizing found with
  | nil =>
    rw [checkFields] at h
    exact ⟨[], .nil, (Except.ok.inj h).symm⟩
  | cons f fields ih =>
    rw [checkFields] at h
    obtain ⟨part, hpart, h⟩ := eq_ok_of_bind h
    obtain ⟨rest, hrest, h⟩ := eq_ok_of_bind h
    obtain rfl := Except.ok.inj h
    obtain ⟨parts, hparts, rfl⟩ := ih hrest
    rw [List.filterMap_cons]
    cases hfind : Table.find (Value.text f.1) es with
    | none =>
      rw [hfind] at hpart
      obtain rfl := Except.ok.inj hpart
      exact ⟨parts, hparts, rfl⟩
    | some v =>
      rw [hfind] at hpart
      exact ⟨part :: parts, .cons hpart hparts, rfl⟩

/-- The alternatives up to the one with nothing to find have something. -/
theorem of_checkAny {alternatives : List Schema} {v : Value} {fits : Bool}
    (h : checkAny alternatives path v = .ok fits) :
    (∃ s ∈ alternatives, s.check path v = .ok []) ∧ fits = true ∨
      (∀ s ∈ alternatives, ∃ part ≠ [], s.check path v = .ok part) ∧ fits = false := by
  induction alternatives with
  | nil =>
    rw [checkAny] at h
    exact .inr ⟨List.forall_mem_nil _, (Except.ok.inj h).symm⟩
  | cons s alternatives ih =>
    rw [checkAny] at h
    obtain ⟨part, hpart, h⟩ := eq_ok_of_bind h
    cases part with
    | nil => exact .inl ⟨⟨s, List.mem_cons_self, hpart⟩, (Except.ok.inj h).symm⟩
    | cons finding part =>
      rcases ih h with ⟨⟨t, ht, hnone⟩, rfl⟩ | ⟨hall, rfl⟩
      · exact .inl ⟨⟨t, List.mem_cons_of_mem s ht, hnone⟩, rfl⟩
      · exact .inr ⟨List.forall_mem_cons.mpr ⟨⟨_, List.cons_ne_nil _ _, hpart⟩, hall⟩, rfl⟩

/-- The keys that are missing are told one by one, all at the place of the mapping. -/
theorem paths_missing {keys : List String} {parts : List (List Finding)}
    (h : (keys.mapM fun key => (Problem.missing key).finding path) = .ok parts) :
    parts.flatten.map Finding.path = List.replicate keys.length path := by
  rw [Attempt.mapM_eq_ok_iff] at h
  induction h with
  | nil => rfl
  | cons hpart _ ih =>
    obtain ⟨message, rfl⟩ := Problem.of_finding hpart
    rw [List.flatten_cons, List.map_append, ih]
    rfl

/-- **The checker follows the keywords.** -/
theorem keywords_check : Checker.Keywords Schema.check where
  own {s path v found} hs h := by
    -- a value of another kind has one finding and no parts that are checked
    have hkind {p : Problem} (hparts : s.parts path v = []) (hunmet : s.unmet v = 1)
        (h : p.finding path = .ok found) :
        ∃ parts, List.Forall₂ (fun p part => p.1.check p.2.1 p.2.2 = .ok part)
          (s.parts path v) parts ∧
          (found.map Finding.path).Perm
            (List.replicate (s.unmet v) path ++ parts.flatten.map Finding.path) := by
      obtain ⟨message, rfl⟩ := Problem.of_finding h
      exact ⟨[], hparts ▸ .nil, by rw [hunmet]; rfl⟩
    cases s with
    | anyOf alternatives => exact absurd rfl (hs alternatives)
    | null =>
      cases v with
      | null =>
        rw [check] at h
        exact ⟨[], .nil, Except.ok.inj h ▸ .refl _⟩
      | _ => exact hkind rfl rfl h
    | text =>
      cases v with
      | text s =>
        rw [check] at h
        exact ⟨[], .nil, Except.ok.inj h ▸ .refl _⟩
      | _ => exact hkind rfl rfl h
    | listOf item =>
      cases v with
      | list xs =>
        obtain ⟨parts, hparts, rfl⟩ := of_itemFindings h
        exact ⟨parts, List.forall₂_map_left_iff.mpr hparts, .refl _⟩
      | _ => exact hkind rfl rfl h
    | mapOf item =>
      cases v with
      | map es =>
        obtain ⟨parts, hparts, rfl⟩ := of_entryFindings h
        exact ⟨parts, List.forall₂_map_left_iff.mpr hparts, .refl _⟩
      | _ => exact hkind rfl rfl h
    | record required fields =>
      cases v with
      | map es =>
        rw [check] at h
        obtain ⟨missing, hmissing, h⟩ := eq_ok_of_bind h
        obtain ⟨unexpected, hunexpected, h⟩ := eq_ok_of_bind h
        obtain ⟨rest, hrest, h⟩ := eq_ok_of_bind h
        obtain rfl := Except.ok.inj h
        obtain ⟨parts, hparts, rfl⟩ := of_checkFields hrest
        have hextra : unexpected.map Finding.path =
            List.replicate (if (extra fields es).isEmpty then 0 else 1) path := by
          unfold unexpectedFindings at hunexpected
          split at hunexpected
          · next hnone => rw [← Except.ok.inj hunexpected, if_pos hnone]; rfl
          · next hsome =>
            obtain ⟨message, rfl⟩ := Problem.of_finding hunexpected
            rw [if_neg hsome]
            rfl
        refine ⟨parts, hparts, ?_⟩
        rw [List.map_append, List.map_append, paths_missing hmissing, hextra, unmet,
          List.replicate_add]
      | _ => exact hkind rfl rfl h
  anyOf {alternatives path v found} h := by
    rw [check] at h
    obtain ⟨fits, hfits, h⟩ := eq_ok_of_bind h
    rcases of_checkAny hfits with ⟨hsome, rfl⟩ | ⟨hall, rfl⟩
    · exact .inl ⟨hsome, (Except.ok.inj h).symm⟩
    · obtain ⟨message, rfl⟩ := Problem.of_finding h
      exact .inr ⟨hall, rfl⟩

end Schema

/-! ## When it fails -/

namespace Problem

/-- The values that the message of a problem shows. -/
def shown : Problem → List Value
  | wrongKind found _ | noAlternative found => [found]
  | missing _ => []
  | unexpected keys => keys

/-- Keys can be shown unless one of them is too long a number. -/
theorem keyLiterals_longIf (keys : List Value) :
    LongIf (∃ k ∈ keys, k.Long) (keyLiterals keys) := by
  refine LongIf.map (LongIf.mapM fun k _ => ?_)
  exact (k.toText_longIf.bind fun _ => k.literal_longIf.map).congr (or_self _).to_iff

/-- A problem has a message unless it shows too long a number. -/
theorem message_longIf (p : Problem) : LongIf (∃ x ∈ p.shown, x.Long) p.message := by
  cases p with
  | wrongKind found kind => exact found.literal_longIf.map.congr (by simp [shown])
  | missing key =>
    have hkey : ¬(Value.text key).Long := Value.not_long (by simp) rfl
    exact (Value.literal_longIf _).map.congr (by simp [shown, hkey])
  | unexpected keys => exact (keyLiterals_longIf keys).map
  | noAlternative found => exact found.literal_longIf.map.congr (by simp [shown])

/-- A problem cannot be told only if something that it shows is too long a number. -/
theorem of_finding_error {p : Problem} {path : List Value} {fault : Fault}
    (h : p.finding path = .error fault) : fault = .tooManyDigits ∧ ∃ x ∈ p.shown, x.Long :=
  (p.message_longIf fault).mp (Attempt.error_of_map h)

end Problem

namespace Schema

variable {path : List Value} {fault : Fault}

section

variable {item : List Value → Value → Attempt (List Finding)}
  (hitem : ∀ path v, item path v = .error fault → fault = .tooManyDigits ∧ v.Long)
include hitem

/-- If checking a value fails only for a long number in it, so does checking a list of values. -/
theorem long_of_itemFindings {xs : List Value} {i : Nat}
    (h : itemFindings item path i xs = .error fault) :
    fault = .tooManyDigits ∧ ∃ x ∈ xs, x.Long := by
  induction xs generalizing i with
  | nil => cases h
  | cons x xs ih =>
    obtain h | ⟨part, -, h⟩ := Attempt.error_of_bind h
    · exact (hitem _ _ h).imp_right fun hlong => ⟨x, List.mem_cons_self, hlong⟩
    · obtain ⟨rfl, y, hy, hlong⟩ := ih (Attempt.error_of_map h)
      exact ⟨rfl, y, List.mem_cons_of_mem x hy, hlong⟩

/-- And so does checking the values of a mapping. -/
theorem long_of_entryFindings {es : List (Value × Value)}
    (h : entryFindings item path es = .error fault) :
    fault = .tooManyDigits ∧ ∃ e ∈ es, e.2.Long := by
  induction es with
  | nil => cases h
  | cons e es ih =>
    obtain h | ⟨part, -, h⟩ := Attempt.error_of_bind h
    · exact (hitem _ _ h).imp_right fun hlong => ⟨e, List.mem_cons_self, hlong⟩
    · obtain ⟨rfl, e', he, hlong⟩ := ih (Attempt.error_of_map h)
      exact ⟨rfl, e', List.mem_cons_of_mem e he, hlong⟩

end

/-- A message about the value itself is not made only if the value has too long a number. -/
theorem long_of_finding {p : Problem} {v : Value} (hshown : ∀ x ∈ p.shown, x.Long → v.Long)
    (h : p.finding path = .error fault) : fault = .tooManyDigits ∧ v.Long := by
  obtain ⟨rfl, x, hx, hlong⟩ := Problem.of_finding_error h
  exact ⟨rfl, hshown x hx hlong⟩

/-- Keys that do not belong there are told unless one of them is too long a number. -/
theorem long_of_unexpectedFindings {fields : List (String × Schema)} {es : List (Value × Value)}
    (h : unexpectedFindings fields path es = .error fault) :
    fault = .tooManyDigits ∧ ∃ e ∈ es, e.1.Long := by
  unfold unexpectedFindings at h
  split at h
  · cases h
  · obtain ⟨rfl, k, hk, hlong⟩ := Problem.of_finding_error h
    obtain ⟨e, he, rfl⟩ := List.mem_map.mp (List.mem_filter.mp hk).1
    exact ⟨rfl, e, he, hlong⟩

/-- That a key is missing can always be told. -/
theorem missing_ne_error (keys : List String) (path : List Value) (fault : Fault) :
    (keys.mapM fun key => (Problem.missing key).finding path) ≠ .error fault := by
  intro h
  obtain ⟨key, -, h⟩ := Attempt.exists_error_of_mapM h
  obtain ⟨-, x, hx, -⟩ := Problem.of_finding_error h
  cases hx

/-- A record is checked to its end unless a key that does not belong there is too long a number, or
the check of a value fails. -/
theorem of_check_record {required : List String} {fields : List (String × Schema)}
    {es : List (Value × Value)} (h : (record required fields).check path (.map es) = .error fault) :
    (fault = .tooManyDigits ∧ ∃ e ∈ es, e.1.Long) ∨ checkFields fields path es = .error fault := by
  rw [check] at h
  obtain h | ⟨missing, -, h⟩ := Attempt.error_of_bind h
  · exact absurd h (missing_ne_error _ _ _)
  · obtain h | ⟨unexpected, -, h⟩ := Attempt.error_of_bind h
    · exact .inl (long_of_unexpectedFindings h)
    · exact .inr (Attempt.error_of_map h)

mutual

/-- The checker fails only if the value has too long a number. -/
theorem long_of_check : (s : Schema) → ∀ {path : List Value} {v : Value} {fault : Fault},
    s.check path v = .error fault → fault = .tooManyDigits ∧ v.Long
  | .null, path, v, fault, h => by
    cases v with
    | null => cases h
    | _ => exact long_of_finding (by simp [Problem.shown]) h
  | .text, path, v, fault, h => by
    cases v with
    | text s => cases h
    | _ => exact long_of_finding (by simp [Problem.shown]) h
  | .listOf item, path, v, fault, h => by
    cases v with
    | list xs =>
      exact (long_of_itemFindings (fun _ _ => long_of_check item) h).imp_right
        Value.long_list_iff.mpr
    | _ => exact long_of_finding (by simp [Problem.shown]) h
  | .mapOf item, path, v, fault, h => by
    cases v with
    | map es =>
      obtain ⟨rfl, e, he, hlong⟩ := long_of_entryFindings (fun _ _ => long_of_check item) h
      exact ⟨rfl, Value.long_map_iff.mpr ⟨e, he, .inr hlong⟩⟩
    | _ => exact long_of_finding (by simp [Problem.shown]) h
  | .record required fields, path, v, fault, h => by
    cases v with
    | map es =>
      obtain ⟨rfl, e, he, hlong⟩ | h := of_check_record h
      · exact ⟨rfl, Value.long_map_iff.mpr ⟨e, he, .inl hlong⟩⟩
      · obtain ⟨rfl, f, -, v, hv, hlong⟩ := long_of_checkFields fields h
        obtain ⟨e, he, rfl⟩ := Table.exists_mem_of_get? (t := ⟨es⟩) hv
        exact ⟨rfl, Value.long_map_iff.mpr ⟨e, he, .inr hlong⟩⟩
    | _ => exact long_of_finding (by simp [Problem.shown]) h
  | .anyOf alternatives, path, v, fault, h => by
    rw [check] at h
    obtain h | ⟨fits, -, h⟩ := Attempt.error_of_bind h
    · exact long_of_checkAny alternatives h
    · cases fits with
      | true => cases h
      | false => exact long_of_finding (by simp [Problem.shown]) h

/-- The values of a record are checked unless one that is there has too long a number. -/
theorem long_of_checkFields : (fields : List (String × Schema)) → ∀ {path : List Value}
    {es : List (Value × Value)} {fault : Fault}, checkFields fields path es = .error fault →
      fault = .tooManyDigits ∧ ∃ f ∈ fields, ∃ v, Table.find (.text f.1) es = some v ∧ v.Long
  | [], path, es, fault, h => by
    rw [checkFields] at h
    cases h
  | (key, s) :: fields, path, es, fault, h => by
    rw [checkFields] at h
    obtain h | ⟨found, -, h⟩ := Attempt.error_of_bind h
    · cases hv : Table.find (Value.text key) es with
      | none =>
        rw [hv] at h
        cases h
      | some v =>
        rw [hv] at h
        obtain ⟨rfl, hlong⟩ := long_of_check s h
        exact ⟨rfl, (key, s), List.mem_cons_self, v, hv, hlong⟩
    · obtain ⟨rfl, f, hf, hlong⟩ := long_of_checkFields fields (Attempt.error_of_map h)
      exact ⟨rfl, f, List.mem_cons_of_mem _ hf, hlong⟩

theorem long_of_checkAny : (alternatives : List Schema) → ∀ {path : List Value} {v : Value}
    {fault : Fault}, checkAny alternatives path v = .error fault →
      fault = .tooManyDigits ∧ v.Long
  | [], path, v, fault, h => by
    rw [checkAny] at h
    cases h
  | s :: alternatives, path, v, fault, h => by
    rw [checkAny] at h
    obtain h | ⟨found, -, h⟩ := Attempt.error_of_bind h
    · exact long_of_check s h
    · split at h
      · cases h
      · exact long_of_checkAny alternatives h

end

end Schema

end FormRules
