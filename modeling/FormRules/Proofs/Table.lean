import FormRules.Table
import Mathlib.Data.List.Forall2
import Mathlib.Data.List.Induction
import Mathlib.Data.List.Nodup

/-!
# Keys and entries of tables

Setting a key that is there already keeps its place and its spelling, and a new key comes last. So a
table in which keys are set one after the other has each of them once, where it came up first, with
the value that was given last (`Table.entries_ofList`).
-/

namespace FormRules

namespace Table

/-! ## What is given last -/

section

variable {κ κ' α β : Type}

/-- The value that is given last for a key that satisfies a condition. -/
def last? (p : κ → Bool) (es : List (κ × α)) : Option α :=
  es.reverse.findSome? fun e => if p e.1 then some e.2 else none

/-- An entry counts if none after it does. -/
theorem last?_cons (p : κ → Bool) (e : κ × α) (es : List (κ × α)) :
    last? p (e :: es) = (last? p es).or (if p e.1 then some e.2 else none) := by
  rw [last?, List.reverse_cons, List.findSome?_append]
  cases hp : p e.1 <;> simp [last?, hp]

/-- There is a last entry if there is one at all. -/
theorem isSome_last? (p : κ → Bool) (es : List (κ × α)) :
    (last? p es).isSome = es.any fun e => p e.1 := by
  rw [last?, List.isSome_findSome?, List.any_reverse]
  exact congrArg es.any (funext fun e => by cases p e.1 <;> rfl)

/-- Where entries correspond to each other, so do the values that they give last. -/
theorem last?_rel {p : κ → Bool} {q : κ' → Bool} {R : α → β → Prop} {es : List (κ × α)}
    {fs : List (κ' × β)}
    (h : List.Forall₂ (fun e f => p e.1 = q f.1 ∧ R e.2 f.2) es fs) :
    Option.Rel R (last? p es) (last? q fs) := by
  unfold last?
  replace h := List.forall₂_reverse_iff.mpr h
  generalize es.reverse = es at h ⊢
  generalize fs.reverse = fs at h ⊢
  induction h with
  | nil => exact .none
  | @cons e f _ _ hef _ ih =>
    rw [List.findSome?_cons, List.findSome?_cons, hef.1]
    by_cases hq : q f.1
    · simpa [hq] using hef.2
    · simpa [hq] using ih

end

/-! ## Keys in their places -/

variable {κ α : Type} [BEq κ] {k : κ} {a : α}

/-- Of values that are set one after the other, the last one is found. -/
theorem get?_setAll [PartialEquivBEq κ] (t : Table κ α) (es : List (κ × α)) (k : κ) :
    (t.setAll es).get? k = (last? (· == k) es).or (t.get? k) := by
  induction es generalizing t with
  | nil => rfl
  | cons e es ih =>
    rw [show t.setAll (e :: es) = (t.set e.1 e.2).setAll es from rfl, ih, get?_set, last?_cons]
    by_cases h : e.1 == k <;> simp [h]

/-- Where some key is found there is an entry. -/
theorem exists_mem_of_get? {t : Table κ α} (h : t.get? k = some a) : ∃ e ∈ t.entries, e.2 = a := by
  obtain ⟨es⟩ := t
  change find k es = some a at h
  induction es with
  | nil => cases h
  | cons e es ih =>
    obtain ⟨k', b⟩ := e
    unfold find at h
    split at h
    · exact ⟨(k', b), List.mem_cons_self, Option.some.inj h⟩
    · obtain ⟨e, he, hvalue⟩ := ih h
      exact ⟨e, List.mem_cons_of_mem _ he, hvalue⟩

/-- There is an entry for a key if some key is equal to it. -/
theorem isSome_find (k : κ) (es : List (κ × α)) :
    (find k es).isSome = es.any fun e => e.1 == k := by
  induction es with
  | nil => rfl
  | cons e es ih =>
    by_cases h : e.1 == k
    · simp [find, h]
    · simp [find, h, ih]

/-- An entry was there before, or it is the one that was set, under the key or under an equal one
that was there before. -/
theorem of_mem_put {es : List (κ × α)} {e : κ × α} (h : e ∈ put k a es) :
    e ∈ es ∨ e.2 = a ∧ (e.1 = k ∨ e.1 == k ∧ ∃ b, (e.1, b) ∈ es) := by
  induction es with
  | nil =>
    obtain rfl := List.mem_singleton.mp h
    exact .inr ⟨rfl, .inl rfl⟩
  | cons e' es ih =>
    obtain ⟨k', b⟩ := e'
    rw [put] at h
    split at h
    · next heq =>
      rcases List.mem_cons.mp h with rfl | h
      · exact .inr ⟨rfl, .inr ⟨heq, b, List.mem_cons_self⟩⟩
      · exact .inl (List.mem_cons_of_mem _ h)
    · rcases List.mem_cons.mp h with rfl | h
      · exact .inl List.mem_cons_self
      · refine (ih h).imp (List.mem_cons_of_mem _) (And.imp_right (Or.imp_right ?_))
        rintro ⟨heq, b, hb⟩
        exact ⟨heq, b, List.mem_cons_of_mem _ hb⟩

/-- A key that is there already keeps its place, and a new key comes last. -/
theorem put_cases (k : κ) (a : α) (es : List (κ × α)) :
    ((find k es).isSome = true ∧ (put k a es).map Prod.fst = es.map Prod.fst) ∨
      find k es = none ∧ put k a es = es ++ [(k, a)] := by
  induction es with
  | nil => exact .inr ⟨rfl, rfl⟩
  | cons e es ih =>
    obtain ⟨k', b⟩ := e
    by_cases h : k' == k
    · exact .inl (by simp [find, put, h])
    · refine ih.imp (fun ih => ?_) fun ih => ?_
      · exact ⟨by simp [find, h, ih.1], by simp [put, h, ih.2]⟩
      · exact ⟨by simp [find, h, ih.1], by simp [put, h, ih.2]⟩

/-- No two entries have equal keys. -/
def Distinct (es : List (κ × α)) : Prop := es.Pairwise fun e f => (e.1 == f.1) = false

/-- Keys stay distinct if the one that is added has no entry. -/
theorem distinct_concat_iff {es : List (κ × α)} {e : κ × α} :
    Distinct (es ++ [e]) ↔ Distinct es ∧ find e.1 es = none := by
  have hnone : find e.1 es = none ↔ ∀ f ∈ es, (f.1 == e.1) = false := by
    rw [← Option.not_isSome_iff_eq_none, isSome_find, List.any_eq_true]
    simp
  rw [hnone]
  simp [Distinct, List.pairwise_append]

/-- Putting an entry keeps the keys distinct. -/
theorem distinct_put {es : List (κ × α)} (h : Distinct es) : Distinct (put k a es) := by
  rcases put_cases k a es with ⟨-, hkeys⟩ | ⟨hnone, hput⟩
  · rw [Distinct, ← List.pairwise_map (R := fun x y : κ => (x == y) = false)] at h ⊢
    rwa [hkeys]
  · rw [hput]
    exact distinct_concat_iff.mpr ⟨h, hnone⟩

/-- The keys of a table made from a list are distinct. -/
theorem distinct_ofList (es : List (κ × α)) : Distinct (ofList es).entries :=
  List.foldlRecOn (motive := fun t : Table κ α => Distinct t.entries) es _ List.Pairwise.nil
    fun _ ht _ _ => distinct_put ht

/-- The last entry of a list is put last. -/
theorem ofList_concat (es : List (κ × α)) (e : κ × α) :
    (ofList (es ++ [e])).entries = put e.1 e.2 (ofList es).entries := by
  rw [ofList, setAll, List.foldl_append]
  rfl

/-- A list with distinct keys is the table that is made from it. -/
theorem ofList_of_distinct {es : List (κ × α)} (h : Distinct es) : (ofList es).entries = es := by
  induction es using List.reverseRecOn with
  | nil => rfl
  | append_singleton es e ih =>
    obtain ⟨hes, hnone⟩ := distinct_concat_iff.mp h
    rw [ofList_concat, ih hes]
    rcases put_cases e.1 e.2 es with ⟨hsome, -⟩ | ⟨-, hput⟩
    · rw [hnone] at hsome
      cases hsome
    · exact hput

/-- Making a table from a list does not add entries. -/
theorem length_ofList_le (es : List (κ × α)) : (ofList es).entries.length ≤ es.length := by
  induction es using List.reverseRecOn with
  | nil => exact Nat.le_refl 0
  | append_singleton es e ih =>
    rw [ofList_concat, List.length_append]
    rcases put_cases e.1 e.2 (ofList es).entries with ⟨-, hkeys⟩ | ⟨-, hput⟩
    · have hlength := congrArg List.length hkeys
      rw [List.length_map, List.length_map] at hlength
      exact hlength ▸ Nat.le_add_right_of_le ih
    · rw [hput, List.length_append]
      exact Nat.add_le_add_right ih _

/-- A table has as many entries as the list that it is made of just if no two of these have equal
keys. -/
theorem length_ofList_iff {es : List (κ × α)} :
    (ofList es).entries.length = es.length ↔ Distinct es := by
  refine ⟨fun h => ?_, fun h => by rw [ofList_of_distinct h]⟩
  induction es using List.reverseRecOn with
  | nil => exact List.Pairwise.nil
  | append_singleton es e ih =>
    have hle := length_ofList_le es
    rw [ofList_concat, List.length_append, List.length_singleton] at h
    rcases put_cases e.1 e.2 (ofList es).entries with ⟨-, hkeys⟩ | ⟨hnone, hput⟩
    · have hlength := congrArg List.length hkeys
      rw [List.length_map, List.length_map, h] at hlength
      omega
    · rw [hput, List.length_append, List.length_singleton] at h
      have hes := ih (Nat.succ.inj h)
      rw [ofList_of_distinct hes] at hnone
      exact distinct_concat_iff.mpr ⟨hes, hnone⟩

/-- Keys that are spelled in another way, but are equal in no other case, keep their places. -/
theorem put_mapKeys {κ' : Type} [BEq κ'] {f : κ → κ'} (hf : ∀ x y, (f x == f y) = (x == y)) (k : κ)
    (a : α)
    (es : List (κ × α)) :
    put (f k) a (es.map fun e => (f e.1, e.2)) = (put k a es).map fun e => (f e.1, e.2) := by
  induction es with
  | nil => rfl
  | cons e es ih =>
    obtain ⟨k', b⟩ := e
    rw [List.map_cons, put, put, hf, ih]
    by_cases h : k' == k <;> simp [h]

/-- Keys may as well be renamed before a table is made, if renaming keeps them apart. -/
theorem ofList_mapKeys {κ' : Type} [BEq κ'] {f : κ → κ'} (hf : ∀ x y, (f x == f y) = (x == y))
    (es : List (κ × α)) :
    (ofList (es.map fun e => (f e.1, e.2))).entries = (ofList es).entries.map fun e =>
      (f e.1, e.2) := by
  induction es using List.reverseRecOn with
  | nil => rfl
  | append_singleton es e ih =>
    rw [List.map_append, List.map_singleton, ofList_concat, ofList_concat, ih, put_mapKeys hf]

/-- What holds of all keys and of all values of a list of entries holds of the table made of
them. -/
theorem forall_mem_ofList {p : κ → Prop} {q : α → Prop} {es : List (κ × α)}
    (h : ∀ e ∈ es, p e.1 ∧ q e.2) : ∀ e ∈ (ofList es).entries, p e.1 ∧ q e.2 := by
  refine List.foldlRecOn (motive := fun t : Table κ α => ∀ e ∈ t.entries, p e.1 ∧ q e.2) es _
    (List.forall_mem_nil _) fun t ht e he e' he' => ?_
  rcases of_mem_put he' with he' | ⟨hvalue, hkey | ⟨-, b, hkey⟩⟩
  · exact ht e' he'
  · exact ⟨hkey ▸ (h e he).1, hvalue ▸ (h e he).2⟩
  · exact ⟨(ht _ hkey).1, hvalue ▸ (h e he).2⟩

section

variable [LawfulBEq κ]

theorem isSome_find_iff {es : List (κ × α)} : (find k es).isSome ↔ k ∈ es.map Prod.fst := by
  simp [isSome_find, List.any_eq_true]

/-- A new key stands behind all others, and a known one where it stood. -/
theorem keys_put [DecidableEq κ] (k : κ) (a : α) (es : List (κ × α)) :
    (put k a es).map Prod.fst =
      if k ∈ es.map Prod.fst then es.map Prod.fst else es.map Prod.fst ++ [k] := by
  induction es with
  | nil => rfl
  | cons e es ih =>
    obtain ⟨k', b⟩ := e
    by_cases h : k' = k
    · simp [put, h]
    · by_cases hk : k ∈ es.map Prod.fst
      · have hcons : k ∈ ((k', b) :: es).map Prod.fst := List.mem_cons_of_mem _ hk
        rw [if_pos hk] at ih
        rw [if_pos hcons]
        simp [put, h, ih]
      · have hcons : k ∉ ((k', b) :: es).map Prod.fst := by
          simpa [Ne.symm h] using hk
        rw [if_neg hk] at ih
        rw [if_neg hcons]
        simp [put, h, ih]

/-- A new key makes the table longer, and a known one does not. -/
theorem length_put (k : κ) (a : α) (es : List (κ × α)) :
    (put k a es).length = if (find k es).isSome then es.length else es.length + 1 := by
  classical
  have hkeys := congrArg List.length (keys_put k a es)
  simp only [isSome_find_iff]
  split at hkeys <;> simp_all

/-- Putting an entry repeats no key. -/
theorem nodup_put {es : List (κ × α)} (h : (es.map Prod.fst).Nodup) :
    ((put k a es).map Prod.fst).Nodup := by
  classical
  rw [keys_put]
  split
  · exact h
  · next hk =>
    refine List.nodup_append.mpr ⟨h, List.nodup_singleton k, fun x hx y hy => ?_⟩
    rw [List.mem_singleton.mp hy]
    exact fun heq => hk (heq ▸ hx)

/-- An entry of a table with distinct keys is the one that is found for its key. -/
theorem find_of_mem {es : List (κ × α)} (h : Distinct es) {e : κ × α} (he : e ∈ es) :
    find e.1 es = some e.2 := by
  induction es with
  | nil => cases he
  | cons e' es ih =>
    obtain ⟨hhead, hes⟩ := List.pairwise_cons.mp h
    rcases List.mem_cons.mp he with rfl | he
    · simp [find]
    · rw [find, if_neg (by simp [hhead e he]), ih hes he]

/-- The keys of a table stand where they came up first. -/
theorem keys_ofList (es : List (κ × α)) :
    (ofList es).entries.map Prod.fst = (es.map Prod.fst).eraseDups := by
  classical
  induction es using List.reverseRecOn with
  | nil => rfl
  | append_singleton es e ih =>
    rw [ofList_concat, keys_put, ih, List.map_append, List.eraseDups_append, List.map_singleton]
    generalize es.map Prod.fst = keys
    by_cases h : e.1 ∈ keys <;> simp [List.removeAll, List.eraseDups_cons, h]

/-- A table has an entry for each key that came up, where it did first, with the value that was
given last. -/
theorem entries_ofList {es : List (κ × α)} {last : κ → α}
    (hlast : ∀ k ∈ es.map Prod.fst, last? (· == k) es = some (last k)) :
    (ofList es).entries = (es.map Prod.fst).eraseDups.map fun k => (k, last k) := by
  rw [← keys_ofList, List.map_map]
  refine (List.map_id _).symm.trans (List.map_congr_left fun e he => Prod.ext rfl ?_)
  have hkey : e.1 ∈ es.map Prod.fst := by
    rw [← List.mem_eraseDups, ← keys_ofList]
    exact List.mem_map_of_mem he
  have hfound : (ofList es).get? e.1 = some e.2 := find_of_mem (distinct_ofList es) he
  rw [ofList, get?_setAll, get?_empty, Option.or_none, hlast e.1 hkey] at hfound
  exact (Option.some.inj hfound).symm

end

end Table

end FormRules
