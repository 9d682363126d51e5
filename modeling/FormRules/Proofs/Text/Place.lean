import FormRules.Proofs.Text.Split
import FormRules.Proofs.Text.Trim

/-!
# Places in texts

A place in a text is given by what is in front of it and what is behind it. When the text is cut at
a separator, the place comes to lie in one of the pieces (`exists_around`), and what is inserted
there goes into this piece and nowhere else, if it holds no separator itself.

White space is often put beside separators. A place beside a separator is at an end of its piece
once the text is cut there (`Around.edge`), and at an end of a text white space is trimmed off
(`Edge.trim_insert`).
-/

namespace FormRules.Text

variable {ds : List Char} {d : Char} {x y w : List Char}

/-! ## Edges -/

/-- The place is at an end of the text, or beside one of the separators. -/
inductive Edge (ds : List Char) : List Char → List Char → Prop
  /-- at the start of the text -/
  | start (after : List Char) : Edge ds [] after
  /-- at the end of the text -/
  | finish (before : List Char) : Edge ds before []
  /-- behind a separator -/
  | behind {d : Char} (hd : d ∈ ds) (before after : List Char) : Edge ds (before ++ [d]) after
  /-- in front of a separator -/
  | ahead {d : Char} (hd : d ∈ ds) (before after : List Char) : Edge ds before (d :: after)

theorem Edge.mono {es : List Char} (h : Edge ds x y) (hds : ds ⊆ es) : Edge es x y := by
  cases h with
  | start => exact .start _
  | finish => exact .finish _
  | behind hd => exact .behind (hds hd) _ _
  | ahead hd => exact .ahead (hds hd) _ _

theorem isBlankText_insert (hw : isBlankText w = true) (x y : List Char) :
    isBlankText (x ++ (w ++ y)) = isBlankText (x ++ y) := by
  simp [isBlankText_append, hw]

/-- White space at an end of the text is trimmed off. -/
theorem Edge.trim_insert (h : Edge [] x y) (hw : isBlankText w = true) :
    trim (x ++ (w ++ y)) = trim (x ++ y) := by
  cases h with
  | start => exact trim_append_left hw y
  | finish =>
    rw [List.append_nil, List.append_nil]
    exact trim_append_right hw x
  | behind hd | ahead hd => cases hd

theorem not_mem_of_isBlankText (hw : isBlankText w = true) (hd : isBlank d = false) : d ∉ w := by
  intro hmem
  rw [List.all_eq_true.mp hw d hmem] at hd
  cases hd

/-! ## Pieces -/

theorem split_append_cons (d : Char) (x y : List Char) :
    split [d] (x ++ d :: y) = split [d] x ++ split [d] y := by
  simp only [split_singleton, List.splitOn_append_cons_self]

theorem split_of_not_mem (h : d ∉ x) : split [d] x = [x] := by
  rw [split_singleton, List.splitOn_eq_singleton h]

/-- A text that is cut at `d` in two places at once: the place between `x` and `y` comes to lie
between `u` and `v`, in the piece behind the pieces `front` and in front of the pieces `back`. -/
structure Around (d : Char) (x y : List Char) (front : List (List Char)) (u v : List Char)
    (back : List (List Char)) : Prop where
  /-- the piece begins behind the last separator in front of the place, if there is one -/
  before : (front = [] ∧ x = u) ∨ (front ≠ [] ∧ ∃ s, x = s ++ d :: u)
  /-- the piece ends at the first separator behind the place, if there is one -/
  after : y = v ∨ ∃ t, y = v ++ d :: t
  /-- there is no separator between the start of the piece and the place -/
  not_mem_before : d ∉ u
  /-- there is no separator between the place and the end of the piece -/
  not_mem_after : d ∉ v
  /-- what is inserted at the place is inserted into the piece -/
  split_insert : ∀ w, d ∉ w → split [d] (x ++ (w ++ y)) = front ++ (u ++ (w ++ v)) :: back

/-- The last piece of a text, and the pieces in front of it. -/
theorem exists_last_piece (d : Char) (x : List Char) : ∃ front u, d ∉ u ∧
    ((front = [] ∧ x = u) ∨ (front ≠ [] ∧ ∃ s, x = s ++ d :: u)) ∧
      ∀ y, split [d] (x ++ y) = front ++ split [d] (u ++ y) := by
  by_cases hd : d ∈ x
  · obtain ⟨a, b, hab, hb⟩ := List.eq_append_cons_of_mem (List.mem_reverse.mpr hd)
    have hx : x = b.reverse ++ d :: a.reverse := by
      rw [← List.reverse_reverse x, hab]
      simp
    refine ⟨split [d] b.reverse, a.reverse, by simpa using hb,
      .inr ⟨split_ne_nil _ _, b.reverse, hx⟩, fun y => ?_⟩
    rw [hx, List.append_assoc, List.cons_append, split_append_cons]
  · exact ⟨[], x, hd, .inl ⟨rfl, rfl⟩, fun y => rfl⟩

/-- The first piece of a text, and the pieces behind it. -/
theorem exists_first_piece (d : Char) (y : List Char) : ∃ v back, d ∉ v ∧
    (y = v ∨ ∃ t, y = v ++ d :: t) ∧ ∀ x, d ∉ x → split [d] (x ++ y) = (x ++ v) :: back := by
  by_cases hd : d ∈ y
  · obtain ⟨v, t, rfl, hv⟩ := List.eq_append_cons_of_mem hd
    refine ⟨v, split [d] t, hv, .inr ⟨t, rfl⟩, fun x hx => ?_⟩
    have hpiece : d ∉ x ++ v := by simp [hx, hv]
    rw [← List.append_assoc, split_append_cons, split_of_not_mem hpiece]
    rfl
  · refine ⟨y, [], hd, .inl rfl, fun x hx => split_of_not_mem ?_⟩
    simp [hx, hd]

/-- Every place comes to lie in a piece. -/
theorem exists_around (d : Char) (x y : List Char) :
    ∃ front u v back, Around d x y front u v back := by
  obtain ⟨front, u, hu, hbefore, hfront⟩ := exists_last_piece d x
  obtain ⟨v, back, hv, hafter, hback⟩ := exists_first_piece d y
  refine ⟨front, u, v, back, hbefore, hafter, hu, hv, fun w hw => ?_⟩
  have hpiece : d ∉ u ++ w := by simp [hu, hw]
  rw [hfront, ← List.append_assoc, hback _ hpiece, List.append_assoc]

/-- If there is no separator, the whole text is the piece. -/
theorem around_of_not_mem (h : d ∉ x ++ y) : Around d x y [] x y [] := by
  obtain ⟨hx, hy⟩ : d ∉ x ∧ d ∉ y := by simpa using h
  refine ⟨.inl ⟨rfl, rfl⟩, .inl rfl, hx, hy, fun w hw => split_of_not_mem ?_⟩
  simp [hx, hw, hy]

namespace Around

variable {front back : List (List Char)} {u v : List Char} (h : Around d x y front u v back)

include h

theorem split_eq : split [d] (x ++ y) = front ++ (u ++ v) :: back :=
  h.split_insert [] List.not_mem_nil

theorem suffix : u <:+ x := by
  rcases h.before with ⟨-, rfl⟩ | ⟨-, s, rfl⟩
  · exact List.suffix_refl x
  · exact ⟨s ++ [d], by simp⟩

theorem isPrefix : v <+: y := by
  rcases h.after with rfl | ⟨t, rfl⟩
  · exact List.prefix_refl y
  · exact List.prefix_append v (d :: t)

/-- **A place beside a separator is at an end of its piece** when the text is cut at this separator,
and beside any other separator it is still beside it. -/
theorem edge (hedge : Edge (d :: ds) x y) : Edge ds u v := by
  cases hedge with
  | start =>
    rw [List.suffix_nil.mp h.suffix]
    exact .start v
  | finish =>
    rw [List.prefix_nil.mp h.isPrefix]
    exact .finish u
  | @behind e he before =>
    rcases List.eq_nil_or_concat' u with rfl | ⟨u, e', rfl⟩
    · exact .start v
    · obtain ⟨s, hs⟩ := h.suffix
      rw [← List.append_assoc] at hs
      obtain ⟨-, hsame⟩ := List.append_inj' hs rfl
      obtain rfl := List.singleton_inj.mp hsame
      have hne : e' ≠ d := fun hd =>
        h.not_mem_before (hd ▸ List.mem_append_right u List.mem_cons_self)
      exact .behind (List.mem_of_ne_of_mem hne he) u v
  | @ahead e he before after =>
    rcases v with _ | ⟨e', v⟩
    · exact .finish u
    · obtain ⟨t, ht⟩ := h.isPrefix
      obtain ⟨rfl, -⟩ := List.cons.inj ht
      have hne : e' ≠ d := fun hd => h.not_mem_after (hd ▸ List.mem_cons_self)
      exact .ahead (List.mem_of_ne_of_mem hne he) u v

end Around

end FormRules.Text
