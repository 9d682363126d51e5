import FormRules.Engine.Run

/-!
# Laws of runs

`Run` is a lawful monad, and letting a check happen is a morphism from checks to runs: what a
compound check does is what its parts do, one after the other (`Check.run_bind`).
-/

namespace FormRules

namespace Run

variable {α β : Type}

instance : LawfulMonad Run := LawfulMonad.mk' Run
  (fun r => by
    funext w
    change (match r w with
      | (.ok a, w) => (pure a : Run _) w
      | (.error fault, w) => (.error fault, w)) = r w
    rcases r w with ⟨_ | _, _⟩ <;> rfl)
  (fun _ _ => rfl)
  (fun r f g => by
    funext w
    simp only [bind_apply]
    rcases r w with ⟨_ | _, _⟩ <;> rfl)

theorem bind_of_ok {r : Run α} {f : α → Run β} {w v : World} {a : α} (h : r w = (.ok a, v)) :
    (r >>= f) w = f a v := by
  rw [bind_apply, h]

theorem bind_of_error {r : Run α} {f : α → Run β} {w v : World} {fault : Fault}
    (h : r w = (.error fault, v)) : (r >>= f) w = (.error fault, v) := by
  rw [bind_apply, h]

/-- What an attempt comes to, as a run that leaves the world alone. -/
@[simp] theorem lift_apply (a : Attempt α) (w : World) : (liftM a : Run α) w = (a, w) := rfl

/-- A run that goes on to work on its result. -/
theorem bind_pure_apply (r : Run α) (f : α → β) (w : World) :
    (r >>= fun a => pure (f a)) w = ((r w).1.map f, (r w).2) := by
  rw [bind_apply]
  rcases r w with ⟨_ | _, _⟩ <;> rfl

theorem passes_apply (depth : Nat) (name : String) (form : Value) (w : World) :
    passes depth name form w =
      ((validate depth name form w).1.map Report.valid, (validate depth name form w).2) :=
  bind_pure_apply _ _ w

end Run

namespace Check

variable {α β : Type}

/-- A request and what comes after its reply. -/
theorem run_ask (respond : (q : Request) → Run q.Reply) (q : Request)
    (next : Attempt q.Reply → Check α) : (ask q next).run respond =
      (respond q).attempt >>= fun reply => (next reply).run respond :=
  rfl

/-- Letting a compound check happen is letting its parts happen, one after the other. -/
theorem run_bind (respond : (q : Request) → Run q.Reply) (c : Check α) (f : α → Check β) :
    (c >>= f).run respond = c.run respond >>= fun a => (f a).run respond := by
  change (c.bind f).run respond = _
  induction c with
  | result r => cases r <;> rfl
  | log r next ih => simp only [Check.bind, Check.run, LawfulMonad.bind_assoc, ih]
  | note entry next ih => simp only [Check.bind, Check.run, LawfulMonad.bind_assoc, ih]
  | ask q next ih =>
    funext w
    rw [Run.bind_apply]
    simp only [Check.bind, Check.run, ih]
    rw [Run.bind_apply]

end Check

end FormRules
