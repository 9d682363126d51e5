import FormRules.Fault
import Mathlib.Data.List.Forall2

/-!
# Attempts

What an attempt that succeeds came to, and a list of attempts: all of them succeed, each for the
item at its place.
-/

namespace FormRules.Attempt

variable {ε α β : Type}

/-- An attempt whose result is known has succeeded. -/
theorem eq_ok_of_toOption {x : Except ε α} {a : α} (h : x.toOption = some a) : x = .ok a := by
  cases x with
  | error _ => cases h
  | ok _ => exact congrArg Except.ok (Option.some.inj h)

/-- Of two attempts after each other the first one fails, or the second one. -/
theorem error_of_bind {x : Attempt α} {f : α → Attempt β} {fault : Fault}
    (h : x >>= f = .error fault) : x = .error fault ∨ ∃ a, x = .ok a ∧ f a = .error fault := by
  rcases x with cause | a
  · cases h
    exact .inl rfl
  · exact .inr ⟨a, rfl, h⟩

/-- An attempt whose result is only put to use fails by itself. -/
theorem error_of_map {x : Attempt α} {f : α → β} {fault : Fault}
    (h : (do return f (← x)) = Except.error fault) : x = .error fault := by
  obtain h | ⟨a, -, h⟩ := error_of_bind h
  · exact h
  · cases h

/-- A list of attempts succeeds if all of its items do. -/
theorem mapM_eq_ok_iff {f : α → Attempt β} {xs : List α} {ys : List β} :
    xs.mapM f = .ok ys ↔ List.Forall₂ (fun x y => f x = .ok y) xs ys := by
  induction xs generalizing ys with
  | nil => cases ys <;> simp [pure, Except.pure]
  | cons x xs ih =>
    rw [List.mapM_cons]
    rcases hx : f x with fault | y
    · cases ys <;> simp [hx, bind, Except.bind]
    · rcases hxs : xs.mapM f with fault | zs <;> cases ys <;>
        simp [hx, hxs, ← ih, bind, Except.bind, pure, Except.pure]

/-- Of several attempts that fail one does. -/
theorem exists_error_of_mapM {f : α → Attempt β} {xs : List α} {fault : Fault}
    (h : xs.mapM f = .error fault) : ∃ x ∈ xs, f x = .error fault := by
  induction xs with
  | nil => cases h
  | cons x xs ih =>
    rw [List.mapM_cons] at h
    obtain h | ⟨y, -, h⟩ := error_of_bind h
    · exact ⟨x, List.mem_cons_self, h⟩
    · obtain ⟨x', hx', h⟩ := ih (error_of_map h)
      exact ⟨x', List.mem_cons_of_mem x hx', h⟩

/-- Attempts that cannot fail make a list that cannot fail. -/
theorem mapM_eq_ok {f : α → Attempt β} {g : α → β} (h : ∀ x, f x = .ok (g x)) (xs : List α) :
    xs.mapM f = .ok (xs.map g) := by
  rw [mapM_eq_ok_iff, List.forall₂_map_right_iff, List.forall₂_same]
  exact fun x _ => h x

end FormRules.Attempt
