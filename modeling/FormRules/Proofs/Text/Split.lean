import FormRules.Text.Split

/-!
# What was cut and what was joined

Joining the pieces of a text gives the text back, whatever separator it was cut at (`join_split`).
The other way round the pieces must not hold the separator, and then one character is long enough
for a separator: cutting what was joined gives the pieces back (`split_join`).
-/

namespace FormRules.Text

variable {sep s p : List Char} {d : Char}

/-! ## Cutting -/

/-- What is left of an occurrence is passed over. -/
theorem pieces_skip (sep : List Char) (k : Nat) (s : List Char) :
    pieces sep k s = split sep (s.drop k) := by
  induction s generalizing k with
  | nil => cases k <;> rfl
  | cons c s ih =>
    cases k with
    | zero => rfl
    | succ k => exact ih k

/-- A text that begins with the separator begins with an empty piece. -/
theorem split_append (hsep : sep ≠ []) (s : List Char) :
    split sep (sep ++ s) = [] :: split sep s := by
  obtain ⟨c, rest, rfl⟩ := List.exists_cons_of_ne_nil hsep
  have hprefix : (c :: rest).isPrefixOf (c :: (rest ++ s)) = true :=
    List.isPrefixOf_iff_prefix.mpr (List.prefix_append (c :: rest) s)
  rw [split, List.cons_append, pieces, if_pos hprefix, pieces_skip]
  simp

/-- The first character of any other text belongs to its first piece. -/
theorem split_cons {c : Char} (h : ¬sep <+: c :: s) :
    split sep (c :: s) = (split sep s).modifyHead (c :: ·) := by
  have hprefix : ¬sep.isPrefixOf (c :: s) = true := by rwa [List.isPrefixOf_iff_prefix]
  rw [split, pieces, if_neg hprefix]
  change _ = (pieces sep 0 s).modifyHead (c :: ·)
  cases hpieces : pieces sep 0 s with
  | nil => exact absurd hpieces (split_ne_nil sep s)
  | cons p ps => rfl

/-- Induction along the cuts of a text. -/
theorem induct_split {P : List Char → Prop} (hsep : sep ≠ []) (nil : P [])
    (cut : ∀ s, P s → P (sep ++ s)) (char : ∀ c s, ¬sep <+: c :: s → P s → P (c :: s)) :
    ∀ s, P s
  | [] => nil
  | c :: s =>
    if h : sep <+: c :: s then by
      obtain ⟨rest, hrest⟩ := h
      have hpos : 0 < sep.length := List.length_pos_iff.mpr hsep
      have hlength : sep.length + rest.length = s.length + 1 := by
        rw [← List.length_append, hrest, List.length_cons]
      have hshorter : rest.length < s.length + 1 := by omega
      rw [← hrest]
      exact cut rest (induct_split hsep nil cut char rest)
    else char c s h (induct_split hsep nil cut char s)
termination_by s => s.length

/-- A text in which the separator occurs has more than one piece. -/
theorem one_lt_length_split (hsep : sep ≠ []) (h : sep <:+: s) : 1 < (split sep s).length := by
  induction s using induct_split hsep with
  | nil => exact absurd (List.infix_nil.mp h) hsep
  | cut s ih =>
    have hpos : 0 < (split sep s).length := List.length_pos_iff.mpr (split_ne_nil sep s)
    rw [split_append hsep, List.length_cons]
    omega
  | char c s hc ih =>
    rw [split_cons hc, List.length_modifyHead]
    exact ih ((List.infix_cons_iff.mp h).resolve_left hc)

/-- A piece has been there before, but for the first one. -/
theorem of_mem_modifyHead {c : Char} {ps : List (List Char)} (hp : p ∈ ps.modifyHead (c :: ·)) :
    p ∈ ps ∨ ∃ q ∈ ps, p = c :: q := by
  cases ps with
  | nil => cases hp
  | cons q ps =>
    rw [List.modifyHead_cons, List.mem_cons] at hp
    rcases hp with rfl | hp
    · exact .inr ⟨q, List.mem_cons_self, rfl⟩
    · exact .inl (List.mem_cons_of_mem q hp)

theorem subset_of_mem_split (hsep : sep ≠ []) (hp : p ∈ split sep s) : p ⊆ s := by
  induction s using induct_split hsep generalizing p with
  | nil =>
    rw [List.mem_singleton.mp hp]
    exact List.nil_subset []
  | cut s ih =>
    rw [split_append hsep, List.mem_cons] at hp
    rcases hp with rfl | hp
    · exact List.nil_subset _
    · exact List.subset_append_of_subset_right sep (ih hp)
  | char c s hc ih =>
    rw [split_cons hc] at hp
    rcases of_mem_modifyHead hp with hp | ⟨q, hq, rfl⟩
    · exact List.subset_cons_of_subset c (ih hp)
    · exact List.cons_subset_cons c (ih hq)

theorem singleton_infix_iff : [d] <:+: s ↔ d ∈ s := by
  refine ⟨fun h => h.subset List.mem_cons_self, fun h => ?_⟩
  obtain ⟨before, after, rfl⟩ := List.append_of_mem h
  exact ⟨before, after, by simp⟩

theorem occursIn_iff {part : List Char} : occursIn part s = true ↔ part <:+: s := by
  induction s with
  | nil => rw [occursIn, List.isEmpty_iff, List.infix_nil]
  | cons c s ih =>
    rw [occursIn, Bool.or_eq_true, ih, List.isPrefixOf_iff_prefix, List.infix_cons_iff]

/-! ## Joining -/

theorem join_cons (sep p : List Char) {ps : List (List Char)} (hps : ps ≠ []) :
    join sep (p :: ps) = p ++ sep ++ join sep ps := by
  cases ps with
  | nil => exact absurd rfl hps
  | cons q ps => rfl

theorem join_modifyHead (sep : List Char) (c : Char) {ps : List (List Char)} (hps : ps ≠ []) :
    join sep (ps.modifyHead (c :: ·)) = c :: join sep ps := by
  match ps, hps with
  | [p], _ => rfl
  | p :: q :: ps, _ => rfl

theorem join_eq_intercalate (sep : List Char) (ps : List (List Char)) :
    join sep ps = sep.intercalate ps := by
  match ps with
  | [] => rfl
  | [p] => simp [join]
  | p :: q :: ps => rw [join, List.intercalate_cons_cons, join_eq_intercalate sep (q :: ps)]

/-- What was joined may be joined to more. -/
theorem join_join (sep p : List Char) (ps qs : List (List Char)) :
    join sep (join sep (p :: ps) :: qs) = join sep (p :: (ps ++ qs)) := by
  cases qs with
  | nil => rw [List.append_nil, join]
  | cons q qs =>
    induction ps generalizing p with
    | nil => rfl
    | cons p' ps ih =>
      have hrest := ih p'
      rw [join_cons sep _ (List.cons_ne_nil q qs)] at hrest ⊢
      rw [List.cons_append, join_cons sep p (List.cons_ne_nil p' ps),
        join_cons sep p (List.cons_ne_nil p' (ps ++ q :: qs)), ← hrest]
      simp only [List.append_assoc]

/-- **Joining the pieces of a text gives the text back.** -/
theorem join_split (hsep : sep ≠ []) (s : List Char) : join sep (split sep s) = s := by
  induction s using induct_split hsep with
  | nil => rfl
  | cut s ih => rw [split_append hsep, join_cons sep [] (split_ne_nil sep s), ih, List.nil_append]
  | char c s hc ih => rw [split_cons hc, join_modifyHead sep c (split_ne_nil sep s), ih]

theorem split_singleton (d : Char) (s : List Char) : split [d] s = s.splitOn d := by
  induction s using induct_split (List.cons_ne_nil d []) with
  | nil => rfl
  | cut s ih =>
    rw [split_append (List.cons_ne_nil d []), ih]
    simp [List.splitOn, List.splitOnP_cons_eq_if_modifyHead]
  | char c s hc ih =>
    have hne : ¬c = d := fun h => hc (h ▸ ⟨s, rfl⟩)
    rw [split_cons hc, ih]
    simp [List.splitOn, List.splitOnP_cons_eq_if_modifyHead, hne]

/-- **Cutting what was joined gives the pieces back**, if none of them holds the separator. -/
theorem split_join {ps : List (List Char)} (hps : ps ≠ []) (h : ∀ p ∈ ps, d ∉ p) :
    split [d] (join [d] ps) = ps := by
  rw [split_singleton, join_eq_intercalate, List.splitOn_intercalate d h hps]

theorem not_mem_of_mem_split (hp : p ∈ split [d] s) : d ∉ p := by
  induction s using induct_split (List.cons_ne_nil d []) generalizing p with
  | nil =>
    rw [List.mem_singleton.mp hp]
    exact List.not_mem_nil
  | cut s ih =>
    rw [split_append (List.cons_ne_nil d []), List.mem_cons] at hp
    rcases hp with rfl | hp
    · exact List.not_mem_nil
    · exact ih hp
  | char c s hc ih =>
    have hne : ¬d = c := fun h => hc (h ▸ ⟨s, rfl⟩)
    rw [split_cons hc] at hp
    rcases of_mem_modifyHead hp with hp | ⟨q, hq, rfl⟩
    · exact ih hp
    · rw [List.mem_cons, not_or]
      exact ⟨hne, ih hq⟩

/-- What is in a joined text: the separator if it is needed, and what is in one of the texts. -/
theorem mem_join {e : Char} {ps : List (List Char)} :
    e ∈ join [d] ps ↔ (e = d ∧ 2 ≤ ps.length) ∨ ∃ p ∈ ps, e ∈ p := by
  induction ps with
  | nil => simp [join]
  | cons p ps ih =>
    cases ps with
    | nil => simp [join]
    | cons q ps =>
      rw [join_cons [d] p (List.cons_ne_nil q ps), List.mem_append, List.mem_append,
        List.mem_singleton, ih]
      simp only [List.length_cons, List.mem_cons]
      grind

/-! ## Strings -/

theorem joinTexts_splitText {sep : String} (hsep : sep.isEmpty = false) (s : String) :
    joinTexts sep (splitText sep s) = s := by
  have hne : sep.toList ≠ [] := by simpa using hsep
  simp [joinTexts, splitText, Function.comp_def, join_split hne]

theorem splitText_joinTexts {ps : List String} (hps : ps ≠ []) (h : ∀ p ∈ ps, d ∉ p.toList) :
    splitText (.singleton d) (joinTexts (.singleton d) ps) = ps := by
  have hsplit : split [d] (join [d] (ps.map String.toList)) = ps.map String.toList :=
    split_join (by simpa using hps) (List.forall_mem_map.mpr h)
  simp [joinTexts, splitText, hsplit, Function.comp_def]

theorem joinTexts_singleton (sep s : String) : joinTexts sep [s] = s := String.ofList_toList

theorem joinTexts_cons (sep s : String) {ts : List String} (hts : ts ≠ []) :
    joinTexts sep (s :: ts) = s ++ sep ++ joinTexts sep ts := by
  have hne : ts.map String.toList ≠ [] := by simpa using hts
  simp [joinTexts, join_cons _ _ hne, String.ofList_append, String.append_assoc]

theorem joinTexts_joinTexts (sep p : String) (ps qs : List String) :
    joinTexts sep (joinTexts sep (p :: ps) :: qs) = joinTexts sep (p :: (ps ++ qs)) := by
  simp [joinTexts, join_join]

theorem mem_joinTexts {e : Char} {ps : List String} :
    e ∈ (joinTexts (.singleton d) ps).toList ↔ (e = d ∧ 2 ≤ ps.length) ∨ ∃ p ∈ ps,
      e ∈ p.toList := by
  simp only [joinTexts, String.toList_ofList, String.toList_singleton, mem_join, List.length_map,
    List.mem_map]
  grind

end FormRules.Text
