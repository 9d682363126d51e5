import FormRules.Proofs.Attempt
import FormRules.Proofs.Text.Trim
import FormRules.Proofs.Value.Writing
import FormRules.Rule.Parse

/-!
# What parameters are coerced to

A parameter is coerced leaf by leaf: the lists it is made of stay, and what is no list becomes a
truth value or a trimmed text that spells none (`Config.Coerced`). Such a value is left as it is,
and no other one (`Config.coerce_normalizes`). So coercing once is enough, whatever the
configuration takes for truth values: whether a text spells one is asked of the trimmed text, and
the answer stays the same.

Only what has a text can be coerced. In the way of that is nothing but a whole number with too many
digits.
-/

namespace FormRules

open Text

namespace Value

variable {v w : Value}

/-- The value is no list. -/
def IsLeaf (v : Value) : Prop := ∀ xs, v ≠ .list xs

/-- The values are made of lists in the same way. -/
inductive SameShape : Value → Value → Prop
  /-- no lists -/
  | leaf {v w : Value} (hv : v.IsLeaf) (hw : w.IsLeaf) : SameShape v w
  /-- lists of the same length, with items of the same shape -/
  | list {xs ys : List Value} (h : List.Forall₂ SameShape xs ys) : SameShape (.list xs) (.list ys)

/-- A value is a leaf or a list. -/
theorem isLeaf_or_list (v : Value) : v.IsLeaf ∨ ∃ xs, v = .list xs := by
  cases v with
  | list xs => exact .inr ⟨xs, rfl⟩
  | _ => exact .inl nofun

theorem isLeaf_bool (b : Bool) : (Value.bool b).IsLeaf := nofun

theorem isLeaf_text (s : String) : (Value.text s).IsLeaf := nofun

end Value

namespace Config

variable {c : Config} {v w : Value} {xs : List Value}

/-- A parameter that is coerced: a truth value, a text that is trimmed and spells no truth value, or
a list of such parameters. -/
inductive Coerced (c : Config) : Value → Prop
  /-- a truth value -/
  | bool (b : Bool) : Coerced c (.bool b)
  /-- a text -/
  | text {s : String} (trimmed : Trimmed s) (noTruth : c.toBoolean? s = none) : Coerced c (.text s)
  /-- a list -/
  | list {xs : List Value} (h : ∀ x ∈ xs, Coerced c x) : Coerced c (.list xs)

/-! ## Leaves -/

/-- A coerced text is a leaf. -/
theorem isLeaf_coerceText (c : Config) (s : String) : (c.coerceText s).IsLeaf := by
  rw [coerceText]
  cases c.toBoolean? (strip s) with
  | none => exact Value.isLeaf_text _
  | some b => exact Value.isLeaf_bool b

/-- A coerced text is coerced. -/
theorem coerced_coerceText (c : Config) (s : String) : c.Coerced (c.coerceText s) := by
  rw [coerceText]
  cases htruth : c.toBoolean? (strip s) with
  | none => exact .text (strip_eq_self_iff.mp (strip_strip s)) htruth
  | some b => exact .bool b

/-- A trimmed text that spells no truth value stays as it is. -/
theorem coerceText_eq_self {s : String} (trimmed : Trimmed s) (noTruth : c.toBoolean? s = none) :
    c.coerceText s = .text s := by
  rw [coerceText, strip_eq_self_iff.mpr trimmed, noTruth]

/-- A truth value stays, and of all else the text is coerced. -/
theorem coerce_leaf (c : Config) (hv : v.IsLeaf) :
    (∃ b, v = .bool b ∧ c.coerce v = .ok v) ∨
      c.coerce v = (do return c.coerceText (← v.toText)) := by
  cases v with
  | bool b => exact .inl ⟨b, rfl, rfl⟩
  | list xs => exact absurd rfl (hv xs)
  | _ => exact .inr rfl

theorem of_coerce_leaf (hv : v.IsLeaf) (h : c.coerce v = .ok w) : w.IsLeaf ∧ c.Coerced w := by
  rcases coerce_leaf c hv with ⟨b, rfl, hcoerce⟩ | hcoerce
  · obtain rfl := Except.ok.inj (hcoerce.symm.trans h)
    exact ⟨hv, .bool b⟩
  · rw [hcoerce] at h
    cases htext : v.toText with
    | error fault =>
      rw [htext] at h
      cases h
    | ok s =>
      rw [htext] at h
      obtain rfl := Except.ok.inj h
      exact ⟨isLeaf_coerceText c s, coerced_coerceText c s⟩

/-! ## Lists -/

theorem coerceAll_eq_mapM (c : Config) (xs : List Value) : coerceAll c xs = xs.mapM c.coerce := by
  induction xs with
  | nil => rfl
  | cons x xs ih =>
    rw [coerceAll, List.mapM_cons, ih]

/-- Coercing a list coerces its items. -/
theorem coerce_list_eq_ok_iff : c.coerce (.list xs) = .ok w ↔
    ∃ ys, w = .list ys ∧ List.Forall₂ (fun x y => c.coerce x = .ok y) xs ys := by
  rw [coerce, coerceAll_eq_mapM]
  constructor
  · intro h
    cases hys : xs.mapM c.coerce with
    | error fault =>
      rw [hys] at h
      cases h
    | ok ys =>
      rw [hys] at h
      cases h
      exact ⟨ys, rfl, Attempt.mapM_eq_ok_iff.mp hys⟩
  · rintro ⟨ys, rfl, h⟩
    rw [Attempt.mapM_eq_ok_iff.mpr h]
    rfl

/-- What holds of all that items come to holds of a list that they come to. -/
theorem forall₂_of_coerce {P : Value → Value → Prop} {ys : List Value}
    (hP : ∀ x ∈ xs, ∀ y, c.coerce x = .ok y → P x y)
    (h : List.Forall₂ (fun x y => c.coerce x = .ok y) xs ys) : List.Forall₂ P xs ys := by
  have hboth := (List.forall₂_and_left xs ys).mpr ⟨hP, h⟩
  exact hboth.imp fun x y hxy => hxy.1 y hxy.2

/-! ## All parameters -/

/-- A parameter can be coerced unless a number in it is too long. -/
theorem coerce_longIf (c : Config) (v : Value) : LongIf v.Long (c.coerce v) := by
  induction v using Value.induct with
  | h v ih =>
    rcases v.isLeaf_or_list with hv | ⟨xs, rfl⟩
    · rcases coerce_leaf c hv with ⟨b, rfl, hcoerce⟩ | hcoerce
      · rw [hcoerce]
        exact .ok _ (Value.not_long (by simp) rfl)
      · rw [hcoerce]
        exact v.toText_longIf.map
    · rw [coerce, coerceAll_eq_mapM]
      exact (LongIf.mapM ih).map.congr Value.long_list_iff.symm

/-- Coercing keeps the shape of a value. -/
theorem sameShape_of_coerce (h : c.coerce v = .ok w) : v.SameShape w := by
  induction v using Value.induct generalizing w with
  | h v ih =>
    rcases v.isLeaf_or_list with hv | ⟨xs, rfl⟩
    · exact .leaf hv (of_coerce_leaf hv h).1
    · obtain ⟨ys, rfl, hys⟩ := coerce_list_eq_ok_iff.mp h
      exact .list (forall₂_of_coerce (fun x hx y => ih x hx) hys)

/-- What comes of coercing is coerced. -/
theorem coerced_of_coerce (h : c.coerce v = .ok w) : c.Coerced w := by
  induction v using Value.induct generalizing w with
  | h v ih =>
    rcases v.isLeaf_or_list with hv | ⟨xs, rfl⟩
    · exact (of_coerce_leaf hv h).2
    · obtain ⟨ys, rfl, hys⟩ := coerce_list_eq_ok_iff.mp h
      have hcoerced : List.Forall₂ (fun _ y => c.Coerced y) xs ys :=
        forall₂_of_coerce (fun x hx y => ih x hx) hys
      refine .list fun y hy => ?_
      obtain ⟨i, hi, rfl⟩ := List.getElem_of_mem hy
      exact hcoerced.get (hcoerced.length_eq ▸ hi) hi

/-- What is coerced stays as it is. -/
theorem Coerced.coerce_eq (h : c.Coerced v) : c.coerce v = .ok v := by
  induction h with
  | bool b => rfl
  | @text s trimmed noTruth => exact congrArg Except.ok (coerceText_eq_self trimmed noTruth)
  | @list xs _ ih => exact coerce_list_eq_ok_iff.mpr ⟨xs, rfl, List.forall₂_same.mpr ih⟩

/-- **Coercing once is enough.** A parameter can be coerced unless a number in it is too long. It
comes to a parameter of the same shape that is coerced, and is not changed by coercing it again. A
parameter is left as it is just if it is coerced already. -/
theorem coerce_normalizes (c : Config) (v : Value) :
    ((∃ w, c.coerce v = .ok w) ↔ ¬v.Long) ∧
      (∀ w, c.coerce v = .ok w → v.SameShape w ∧ c.Coerced w ∧ c.coerce w = .ok w) ∧
        (c.coerce v = .ok v ↔ c.Coerced v) := by
  refine ⟨?_, fun w h => ?_, coerced_of_coerce, Coerced.coerce_eq⟩
  · rw [← (coerce_longIf c v).isOk_iff]
    cases c.coerce v <;> simp [Except.isOk, Except.toBool]
  · have hcoerced := coerced_of_coerce h
    exact ⟨sameShape_of_coerce h, hcoerced, hcoerced.coerce_eq⟩

/-- Literals of one's own, in any case, and a list in a list. -/
example : coerce { trueLiteral := "On", falseLiteral := "off", caseSensitive := false }
    (.list [.text " ON ", .list [.text "true ", .bool false]]) =
      .ok (.list [.bool true, .list [.text "true", .bool false]]) := by
  rfl

end Config

end FormRules
