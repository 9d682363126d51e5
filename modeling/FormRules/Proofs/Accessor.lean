import FormRules.Proofs.Value.Equality
import FormRules.Proofs.World

/-!
# Reading and writing fields

A field holds what was written to it last, and a write changes no other field: neither of the same
accessor (`Accessor.get_put`) nor of another one (`World.holds_writeField`). A write that fails
changes no field at all. Names of forms and fields that are equal stand for the same field.
-/

namespace FormRules

theorem Value.asKey_of_hashable {v : Value} (h : v.hashable) : v.asKey = .ok v := if_pos h

namespace Accessor

section

variable (forms : Table Value FieldValues) {f x : Value} (hf : f.hashable) (hx : x.hashable)

include hf hx

/-- What a table holds for a form and a field that can be keys. -/
theorem get_table : (table forms).get f x =
    match ((forms.get? f).getD ∅).get? x with
    | some v => .ok v
    | none => missing f x := by
  unfold get
  simp only [Value.asKey_of_hashable hf, Value.asKey_of_hashable hx, bind, Except.bind]
  rcases forms.get? f with _ | fields <;> rfl

/-- What it holds after the fields of a form were replaced. -/
theorem get_table_set (form : Value) (fields : FieldValues) :
    (table (forms.set form fields)).get f x =
    match (if form == f then fields else (forms.get? f).getD ∅).get? x with
    | some v => .ok v
    | none => missing f x := by
  rw [get_table _ hf hx, Table.get?_set]
  by_cases h : form == f <;> simp [h]

end

/-- **A field holds what was written to it last**, and a write leaves all other fields alone; one
that fails leaves this field alone too. -/
theorem get_put (a : Accessor) (form field v : Value) {f x : Value} (hf : f.hashable)
    (hx : x.hashable) : (a.put form field v).1.get f x =
      if (a.put form field v).2.isOk && form == f && field == x then .ok v else a.get f x := by
  rcases a with forms | read
  · by_cases hform : form.hashable
    · have hsame : form == f → forms.get? form = forms.get? f := Table.get?_congr forms
      by_cases hfield : field.hashable
      · have hput : put (table forms) form field v =
            (table (forms.set form (((forms.get? form).getD ∅).set field v)), .ok ()) := by
          simp [put, hform, hfield]
        simp only [hput, get_table_set forms hf hx, get_table forms hf hx, Except.isOk,
          Except.toBool, Bool.true_and]
        by_cases hf' : form == f
        · rw [if_pos hf', Table.get?_set, hsame hf']
          by_cases hx' : field == x <;> simp [hf', hx']
        · simp [hf']
      · -- the form is there from now on, but without fields it tells nothing new
        have hput : put (table forms) form field v =
            (table (forms.set form ((forms.get? form).getD ∅)), .error .unhashableKey) := by
          simp [put, hform, hfield]
        simp only [hput, get_table_set forms hf hx, get_table forms hf hx, Except.isOk,
          Except.toBool, Bool.false_and]
        by_cases hf' : form == f
        · rw [if_pos hf', hsame hf']
          rfl
        · rw [if_neg hf']
          rfl
    · have hput : put (table forms) form field v = (table forms, .error .unhashableKey) := by
        simp [put, hform]
      rw [hput]
      rfl
  · rfl

end Accessor

theorem Shelf.get?_put {α : Type} (s : Shelf α) (r r' : Ref) (a : α) :
    (s.put r a).get? r' = if r = r' then some a else s.get? r' := by
  have hset := Table.get?_set s.objects r r' a
  simp only [beq_iff_eq] at hset
  exact hset

/-- What is on a shelf was there before, or is what has been added. -/
theorem Shelf.of_get?_add {α : Type} {s : Shelf α} {name : String} {r : Ref} {a b : α}
    (h : (s.add name a).get? r = some b) : s.get? r = some b ∨ b = a := by
  change (s.put (s.fresh name) a).get? r = some b at h
  rw [get?_put] at h
  split at h
  · exact .inr (Option.some.inj h).symm
  · exact .inl h

namespace World

/-- What the field of an accessor holds. -/
def holds (w : World) (r : Ref) (form field : Value) : Attempt Value :=
  (Run.readField r form field w).1

theorem holds_eq (w : World) (r : Ref) (form field : Value) : w.holds r form field =
    Run.known r.name (w.accessors.get? r) >>= fun a => a.get form field := by
  unfold holds Run.readField
  rw [Run.bind_apply, Run.accessor_apply]
  rcases Run.known r.name (w.accessors.get? r) with _ | a <;> rfl

/-- Fields are held by the accessors alone. -/
theorem holds_congr {w v : World} (h : w.accessors = v.accessors) (r : Ref) (form field : Value) :
    w.holds r form field = v.holds r form field := by
  rw [holds_eq, holds_eq, h]

/-- **A write changes the field that it is made to, and no other field of any accessor.** -/
theorem holds_writeField (w : World) (r r' : Ref) (form field v : Value) {f x : Value}
    (hf : f.hashable) (hx : x.hashable) :
    (Run.writeField r' form field v w).2.holds r f x =
      if (Run.writeField r' form field v w).1.isOk ∧ r' = r ∧ form == f ∧ field == x then .ok v
      else w.holds r f x := by
  unfold Run.writeField
  rw [Run.bind_apply]
  rcases ha : Run.accessor r' w with ⟨fault | a, u⟩ <;> obtain rfl := (Run.reads_accessor r').eq ha
  · simp [Except.isOk, Except.toBool]
  · have ha' : u.accessors.get? r' = some a := Run.known_eq_ok (congrArg Prod.fst ha)
    have hput := a.get_put form field v hf hx
    rcases hp : a.put form field v with ⟨a', done⟩
    rw [hp] at hput
    simp only [hp]
    change World.holds { u with accessors := u.accessors.put r' a' } r f x =
      if done.isOk ∧ r' = r ∧ form == f ∧ field == x then .ok v else u.holds r f x
    rw [holds_eq, holds_eq]
    change Run.known r.name ((u.accessors.put r' a').get? r) >>= _ = _
    rw [Shelf.get?_put]
    by_cases hr : r' = r
    · subst hr
      rw [if_pos rfl, ha']
      change a'.get f x = if done.isOk ∧ r' = r' ∧ form == f ∧ field == x then .ok v else a.get f x
      simp only [hput, Bool.and_eq_true, and_assoc, true_and]
    · rw [if_neg hr, if_neg fun h => hr h.2.1]

end World

end FormRules
