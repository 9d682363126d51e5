import FormRules.Engine.Run
import Mathlib.Data.List.Basic

/-!
# Collecting messages

Messages are added to a table of errors one by one, under the field they are about. As long as the
fields come one after the other and have different names, the table is the list of the fields with
their messages, less the fields that have none (`Errors.ofFields_eq`).
-/

namespace FormRules

namespace Table

variable {κ α : Type} [BEq κ]

/-- An entry is found behind those that have other keys. -/
theorem find_append_of_none {k : κ} {es : List (κ × α)} (h : ∀ e ∈ es, (e.1 == k) = false)
    (fs : List (κ × α)) : find k (es ++ fs) = find k fs := by
  induction es with
  | nil => rfl
  | cons e es ih =>
    obtain ⟨he, hes⟩ := List.forall_mem_cons.1 h
    rw [List.cons_append, find, if_neg (by rw [he]; exact Bool.false_ne_true), ih hes]

/-- An entry is put behind those that have other keys. -/
theorem put_append_of_none {k : κ} {es : List (κ × α)} (h : ∀ e ∈ es, (e.1 == k) = false) (a : α)
    (fs : List (κ × α)) : put k a (es ++ fs) = es ++ put k a fs := by
  induction es with
  | nil => rfl
  | cons e es ih =>
    obtain ⟨he, hes⟩ := List.forall_mem_cons.1 h
    rw [List.cons_append, put, if_neg (by rw [he]; exact Bool.false_ne_true), ih hes,
      List.cons_append]

end Table

namespace Errors

/-- More messages for a field. -/
def addAll (errors : Errors) (field : Value) (messages : List String) : Errors :=
  messages.foldl (fun errors message => errors.add field message) errors

@[simp] theorem addAll_nil (errors : Errors) (field : Value) :
    errors.addAll field [] = errors := rfl

@[simp] theorem addAll_cons (errors : Errors) (field : Value) (message : String)
    (messages : List String) :
    errors.addAll field (message :: messages) = (errors.add field message).addAll field messages :=
  rfl

/-- Messages may be added in two goes. -/
theorem addAll_append (errors : Errors) (field : Value) (messages more : List String) :
    errors.addAll field (messages ++ more) = (errors.addAll field messages).addAll field more :=
  List.foldl_append

variable {es : List (Value × List String)} {field : Value}

/-- Messages for the field that came last go to the end of what it has. -/
theorem addAll_last (hes : ∀ e ∈ es, (e.1 == field) = false) (hfield : (field == field) = true)
    (found messages : List String) :
    addAll ⟨es ++ [(field, found)]⟩ field messages = ⟨es ++ [(field, found ++ messages)]⟩ := by
  induction messages generalizing found with
  | nil => rw [addAll_nil, List.append_nil]
  | cons message messages ih =>
    have hadd : add ⟨es ++ [(field, found)]⟩ field message =
        ⟨es ++ [(field, found ++ [message])]⟩ := by
      unfold add Table.set Table.get?
      rw [Table.find_append_of_none hes, Table.put_append_of_none hes, Table.find, Table.put,
        if_pos hfield, if_pos hfield, Option.getD_some]
    rw [addAll_cons, hadd, ih, List.append_assoc, List.singleton_append]

/-- Messages for a new field make an entry at the end, if there are any. -/
theorem addAll_new (hes : ∀ e ∈ es, (e.1 == field) = false) (hfield : (field == field) = true)
    (messages : List String) :
    addAll ⟨es⟩ field messages = ⟨es ++ [(field, messages)].filter fun f => !f.2.isEmpty⟩ := by
  rcases messages with _ | ⟨message, messages⟩
  · rw [addAll_nil]
    exact congrArg Table.mk (List.append_nil es).symm
  · have hadd : add ⟨es⟩ field message = ⟨es ++ [(field, [message])]⟩ := by
      have hfind := Table.find_append_of_none hes ([] : List (Value × List String))
      have hput := Table.put_append_of_none hes [message] ([] : List (Value × List String))
      rw [List.append_nil] at hfind hput
      unfold add Table.set Table.get?
      rw [hfind, Table.find, Option.getD_none, List.nil_append, hput, Table.put]
    rw [addAll_cons, hadd, addAll_last hes hfield, List.singleton_append]
    rfl

/-- The errors that fields with their messages come to, one field after the other. -/
def ofFields (errors : Errors) (found : List (Value × List String)) : Errors :=
  found.foldl (fun errors f => errors.addAll (Run.errorKey f.1) f.2) errors

end Errors

namespace Value

theorem text_beq (s t : String) : (Value.text s == Value.text t) = (s == t) := rfl

end Value

/-- A text is its own key among the errors, the empty one too. -/
theorem Run.errorKey_text (s : String) : errorKey (.text s) = .text s := by
  unfold errorKey
  split
  · rfl
  · rename_i h
    have hs : s.isEmpty = true := by simpa [Value.truth] using h
    rw [String.isEmpty_iff.1 hs]

/-- The fields are texts, and no two of them the same. -/
structure Named {α : Type} (fields : List (Value × α)) : Prop where
  text : ∀ f ∈ fields, ∃ s : String, f.1 = .text s
  distinct : fields.Pairwise fun f g => f.1 ≠ g.1

namespace Named

variable {α : Type} {fields fields' : List (Value × α)}

/-- Some of the fields are named if all are. -/
theorem sublist (h : Named fields) (hs : fields'.Sublist fields) : Named fields' :=
  ⟨fun f hf => h.text f (hs.subset hf), h.distinct.sublist hs⟩

theorem of_map_fst {β : Type} {others : List (Value × β)} (h : Named fields)
    (hmap : others.map Prod.fst = fields.map Prod.fst) : Named others := by
  have htext : ∀ v ∈ fields.map Prod.fst, ∃ s : String, v = .text s := List.forall_mem_map.2 h.text
  have hdistinct : (fields.map Prod.fst).Pairwise (· ≠ ·) := List.pairwise_map.2 h.distinct
  rw [← hmap] at htext hdistinct
  exact ⟨fun f hf => htext f.1 (List.mem_map_of_mem hf), List.pairwise_map.1 hdistinct⟩

/-- No field that came before has the name of the next one. -/
theorem beq_eq_false {f : Value × α} {rest : List (Value × α)} (h : Named (fields ++ f :: rest)) :
    ∀ e ∈ fields, (e.1 == f.1) = false := by
  intro e he
  obtain ⟨s, hs⟩ := h.text e (List.mem_append_left _ he)
  obtain ⟨t, ht⟩ := h.text f (List.mem_append_right _ List.mem_cons_self)
  have hne := (List.pairwise_append.1 h.distinct).2.2 e he f List.mem_cons_self
  rw [hs, ht, Value.text_beq]
  rw [hs, ht] at hne
  exact beq_false_of_ne fun hst => hne (congrArg Value.text hst)

end Named

/-- **The errors of named fields are the fields that have messages.** -/
theorem Errors.ofFields_eq {es found : List (Value × List String)} (h : Named (es ++ found)) :
    ofFields ⟨es⟩ found = ⟨es ++ found.filter fun f => !f.2.isEmpty⟩ := by
  induction found generalizing es with
  | nil => exact congrArg Table.mk (List.append_nil es).symm
  | cons f found ih =>
    obtain ⟨field, messages⟩ := f
    obtain ⟨s, rfl⟩ : ∃ s, field = .text s :=
      h.text _ (List.mem_append_right _ List.mem_cons_self)
    have hnew := addAll_new h.beq_eq_false (by rw [Value.text_beq, beq_self_eq_true]) messages
    have hrest : Named ((es ++ [(.text s, messages)].filter fun f => !f.2.isEmpty) ++ found) := by
      refine h.sublist ?_
      rw [List.append_assoc]
      exact List.Sublist.append_left (List.Sublist.append_right List.filter_sublist found) es
    change ofFields (addAll ⟨es⟩ (Run.errorKey (.text s)) messages) found = _
    rw [Run.errorKey_text, hnew, ih hrest, List.append_assoc, ← List.filter_append,
      List.singleton_append]

end FormRules
