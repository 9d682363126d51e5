import FormRules.Predicate.Builtin
import FormRules.Proofs.Table
import Mathlib.Data.List.Sort
import Mathlib.Data.String.Basic

/-!
# Laws of catalogs

A catalog that was made by registering definitions keeps each of them under its own name, and one
for each name (`Catalog.WellKept`). All that one can ask such a catalog follows from the definitions
that it resolves names to (`Catalog.WellKept.holds`): whether a name is registered, what it stands
for, how many there are, and the list of all names in the order of their code points.
-/

namespace FormRules

namespace Catalog

/-- The catalog has one definition for each of its names, and keeps it under its own name. -/
structure WellKept (c : Catalog) : Prop where
  distinct : c.keys.Nodup
  own_name : ∀ e ∈ c.entries, e.2.name = e.1

theorem wellKept_empty : WellKept ∅ := ⟨List.nodup_nil, List.forall_mem_nil _⟩

/-- A catalog stays well kept when it takes a definition. -/
theorem WellKept.register {c : Catalog} (hc : c.WellKept) (d : Definition) :
    (c.register d).WellKept := by
  refine ⟨Table.nodup_put hc.distinct, fun e he => ?_⟩
  rcases Table.of_mem_put he with he | ⟨hvalue, hkey | ⟨hkey, -⟩⟩
  · exact hc.own_name e he
  · rw [hvalue, hkey]
  · rw [hvalue, eq_of_beq hkey]

/-- A catalog that is made from definitions is well kept. -/
theorem wellKept_ofList (ds : List Definition) : (ofList ds).WellKept :=
  List.foldlRecOn ds register wellKept_empty fun _ hc d _ => hc.register d

/-- A definition is found under the name it was registered with. -/
theorem resolve_register (c : Catalog) (d : Definition) (name : String) :
    (c.register d).resolve name = if d.name = name then some d else c.resolve name := by
  by_cases h : d.name = name
  · rw [if_pos h, ← h, resolve_register_self]
  · rw [if_neg h, resolve_register_of_ne c d h]

/-! ## What a catalog can be asked -/

/-- The catalog answers all questions as one that has the given definitions. -/
structure Holds (c : Catalog) (held : String → Option Definition) : Prop where
  resolve : ∀ name, c.resolve name = held name
  lookUp_ok : ∀ name d, c.lookUp name = .ok d ↔ held name = some d
  lookUp_error : ∀ name fault, c.lookUp name = .error fault ↔
    fault = .unknownValidation name ∧ held name = none
  isRegistered : ∀ name, c.isRegistered name = (held name).isSome
  has : ∀ name, c.has name = (held name).isSome
  own_name : ∀ e ∈ c.entries, e.2.name = e.1
  sorted : c.names.Pairwise (· < ·)
  mem_names : ∀ name, name ∈ c.names ↔ (held name).isSome
  length_names : c.names.length = c.size

/-- Looking up fails for names that the catalog does not have, and tells the name. -/
theorem lookUp_error_iff (c : Catalog) (name : String) (fault : Fault) :
    c.lookUp name = .error fault ↔ fault = .unknownValidation name ∧ c.resolve name = none := by
  unfold lookUp
  cases c.resolve name <;> simp [eq_comm]

/-- The names are the keys in some order. -/
theorem names_perm (c : Catalog) : c.names.Perm c.keys := List.mergeSort_perm _ _

/-- The names are those that can be resolved. -/
theorem mem_names_iff (c : Catalog) (name : String) : name ∈ c.names ↔ (c.resolve name).isSome :=
  c.names_perm.mem_iff.trans Table.isSome_find_iff.symm

/-- The names come in the order of their code points, each of them once. -/
theorem WellKept.sorted_names {c : Catalog} (hc : c.WellKept) : c.names.Pairwise (· < ·) := by
  have hsorted : c.names.Pairwise fun a b => decide (a ≤ b) = true :=
    List.pairwise_mergeSort
      (fun a b c hab hbc => by simp only [decide_eq_true_eq] at *; exact hab.trans hbc)
      (fun a b => by simpa using le_total a b) c.keys
  have hnodup : c.names.Pairwise (· ≠ ·) := c.names_perm.nodup_iff.mpr hc.distinct
  exact (hsorted.and hnodup).imp fun ⟨hle, hne⟩ => lt_of_le_of_ne (of_decide_eq_true hle) hne

/-- A catalog that is well kept holds what it resolves. -/
theorem WellKept.holds {c : Catalog} (hc : c.WellKept) : c.Holds c.resolve where
  resolve _ := rfl
  lookUp_ok := c.lookUp_eq_ok_iff
  lookUp_error := c.lookUp_error_iff
  isRegistered _ := rfl
  has _ := rfl
  own_name := hc.own_name
  sorted := hc.sorted_names
  mem_names := c.mem_names_iff
  length_names := (c.names_perm.length_eq).trans (List.length_map _)

end Catalog

end FormRules
