import FormRules.Proofs.Message.Rendering
import FormRules.Proofs.Value.Writing

/-!
# Messages without a template

A method without template has a message that tells its name. The message is composed all the same:
the name is put between two pieces of text and the whole is read as a template, so that a
placeholder in the name is filled in. A text is `Plain` if no placeholder stands in it. The plain
names are exactly those that every message tells as they are (`Composer.compose_without_template`):
one way holds since the two pieces cannot make a placeholder with a plain name, the other since
filling a placeholder with nothing makes the text shorter.
-/

namespace FormRules

open Text

namespace Value

/-- A value has a text unless there is too long a number in it. -/
theorem plainText_longIf (v : Value) : LongIf v.Long v.plainText := by
  cases v with
  | bool b => exact .ok _ (not_long (by simp) rfl)
  | _ => exact toText_longIf _

/-- Values can be put in a message unless there is too long a number in one of them. -/
theorem allInMessage_longIf {xs : List Value} (h : ∀ x ∈ xs, LongIf x.Long x.inMessage) :
    LongIf (∃ x ∈ xs, x.Long) (allInMessage xs) := by
  induction xs with
  | nil => exact .ok [] (by simp)
  | cons x xs ih =>
    have hrest := ih fun y hy => h y (List.mem_cons_of_mem x hy)
    exact ((h x List.mem_cons_self).bind fun s => hrest.map).congr (by simp)

/-- A value has a text in a message unless a number in it is too long. -/
theorem inMessage_longIf (v : Value) : LongIf v.Long v.inMessage := by
  induction v using induct with
  | h v ih =>
    cases v with
    | list xs => exact (allInMessage_longIf ih).map.congr long_list_iff.symm
    | _ => exact plainText_longIf _

end Value

namespace Template

variable {w s t : List Char} {p : Segment} {ps : List Segment}

/-- The number of a position can be read unless it has too many digits. -/
theorem index_longIf (digits : List Nat) : LongIf (¬digits.length ≤ maxDigits) (index digits) := by
  intro fault
  unfold index
  split
  · next h => simp [h]
  · next h => simp [h, eq_comm]

/-- The numbers of all positions can be read if each of them can. -/
theorem indexes_longIf (ss : List Segment) : LongIf (∃ s ∈ ss, ¬s.Legible) (indexes ss) := by
  induction ss with
  | nil => exact .ok [] (by simp)
  | cons s ss ih =>
    cases s with
    | position digits =>
      exact ((index_longIf digits).bind fun i => ih.map).congr (by simp [Segment.Legible])
    | char c => exact ih.congr (by simp [Segment.Legible])
    | field => exact ih.congr (by simp [Segment.Legible])

/-- Too long a number in a parameter, or one of too many digits in the template, is in the way of
any message. -/
theorem compose_eq_error {template : String} {parameters : List Value}
    (h : ¬Legible template ∨ ∃ p ∈ parameters, p.Long) (field : Value) :
    compose template parameters field = .error .tooManyDigits := by
  have hpositions : positions (segments template) parameters = .error .tooManyDigits := by
    cases hused : indexes (segments template) with
    | error fault =>
      obtain ⟨rfl, -⟩ := (indexes_longIf _ fault).mp hused
      rw [positions, hused]
      rfl
    | ok used =>
      have hlegible : Legible template := by
        by_contra hn
        have hfault := (indexes_longIf (segments template) .tooManyDigits).mpr
          ⟨rfl, by simpa [Legible] using hn⟩
        rw [hused] at hfault
        cases hfault
      obtain ⟨p, hp, hlong⟩ := h.resolve_left (not_not_intro hlegible)
      by_cases hspread : used.any (1 ≤ ·) = true ∧ ∃ xs, parameters = [.list xs]
      · obtain ⟨hlater, xs, rfl⟩ := hspread
        rw [List.mem_singleton.mp hp, Value.long_list_iff] at hlong
        rw [positions_spread hused hlater]
        exact (Value.allInMessage_longIf (fun x _ => x.inMessage_longIf) _).mpr ⟨rfl, hlong⟩
      · rw [positions_each hused fun hlater xs hxs => hspread ⟨hlater, xs, hxs⟩]
        exact (Value.allInMessage_longIf (fun x _ => x.inMessage_longIf) _).mpr ⟨rfl, p, hp, hlong⟩
  rw [compose, hpositions]
  rfl

/-! ## Texts without placeholder -/

/-- No placeholder stands in the text. -/
def Plain (s : List Char) : Prop := ∀ w p, Placeholder w p → ¬w <:+: s

/-- A text without braces is plain. -/
theorem plain_of_not_mem (h : '\x7b' ∉ s) : Plain s := by
  intro w p hw hinside
  obtain ⟨t, rfl, -⟩ := hw.exists_cons
  exact h (hinside.subset List.mem_cons_self)

/-- A plain text is read character by character. -/
theorem reads_of_plain (h : Plain s) : Reads s (s.map .char) := by
  induction s with
  | nil => exact .nil
  | cons c s ih =>
    refine .char (fun w p hw hin => h w p hw hin.isInfix) (ih fun w p hw hinside => ?_)
    exact h w p hw (hinside.trans (List.suffix_cons c s).isInfix)

/-- Around a text nothing but braces can make placeholders. -/
theorem plain_append_iff {before after : List Char} (hbefore : '\x7b' ∉ before)
    (hafter : '\x7d' ∉ after) :
    Plain (before ++ s ++ after) ↔ Plain s := by
  constructor
  · intro h w p hw hinside
    exact h w p hw (hinside.trans ⟨before, after, rfl⟩)
  · intro h w p hw hinside
    obtain ⟨t, rfl, -⟩ := hw.exists_cons
    rw [List.append_assoc] at hinside
    replace hinside := infix_of_infix_append hbefore hinside
    obtain ⟨u, hu⟩ : ∃ u, '\x7b' :: t = u ++ ['\x7d'] := by
      cases hw with
      | @position ds => exact ⟨'\x7b' :: ds, rfl⟩
      | field => exact ⟨['\x7b', 'f', 'i', 'e', 'l', 'd'], rfl⟩
    -- read backwards, a placeholder begins with its closing brace
    have hreversed : '\x7d' :: u.reverse <:+: after.reverse ++ s.reverse := by
      simpa [hu] using List.reverse_infix.mpr hinside
    have hfound := infix_of_infix_append (by simpa using hafter) hreversed
    refine h _ p hw ?_
    rw [hu, ← List.reverse_infix]
    simpa using hfound

/-- Characters are rendered as they stand. -/
theorem render_chars (positions : List String) (field : Attempt String) (cs : List Char) :
    render positions field (cs.map .char) = .ok (String.ofList cs) := by
  induction cs with
  | nil => rfl
  | cons c cs ih =>
    have hcons : String.singleton c ++ String.ofList cs = String.ofList (c :: cs) := by
      simp
    rw [List.map_cons, render, ih, ← hcons]
    rfl

/-- A template without placeholder is its own message, if the parameters have texts. -/
theorem compose_of_plain {template : String} (h : Plain template.toList) {parameters : List Value}
    (hparameters : ∀ p ∈ parameters, ¬p.Long) (field : Value) :
    compose template parameters field = .ok template := by
  have hsegments : segments template = template.toList.map .char := reads_iff.mp (reads_of_plain h)
  have hused : indexes (template.toList.map .char) = .ok [] := by
    induction template.toList with
    | nil => rfl
    | cons c cs ih => exact ih
  obtain ⟨texts, htexts⟩ : ∃ texts, Value.allInMessage parameters = .ok texts := by
    cases htexts : Value.allInMessage parameters with
    | ok texts => exact ⟨texts, rfl⟩
    | error fault =>
      obtain ⟨-, p, hp, hlong⟩ :=
        (Value.allInMessage_longIf (fun x _ => x.inMessage_longIf) fault).mp htexts
      exact absurd hlong (hparameters p hp)
  rw [compose, hsegments, positions_each hused (by simp), htexts]
  exact (render_chars texts _ _).trans (by rw [String.ofList_toList])

/-- What is rendered without positions and without a field is no longer than the template, and
shorter if there is a placeholder in it. -/
theorem Reads.length_le (h : Reads s ps) :
    (String.join (ps.map (Segment.text [] ""))).toList.length ≤ s.length ∧
      (¬Plain s → (String.join (ps.map (Segment.text [] ""))).toList.length < s.length) := by
  induction h with
  | nil => exact ⟨Nat.le_refl 0, fun h => absurd (plain_of_not_mem List.not_mem_nil) h⟩
  | @placeholder w s p ps hw h ih =>
    have hempty : p.text [] "" = "" := by
      cases hw with
      | position => rfl
      | field => rfl
    obtain ⟨t, rfl, -⟩ := hw.exists_cons
    rw [List.map_cons, String.join_cons, hempty, String.empty_append, List.length_append,
      List.length_cons]
    omega
  | @char c s ps hc h ih =>
    have hplain : ¬Plain (c :: s) → ¬Plain s := by
      intro hn hs
      refine hn fun w p hw hinside => ?_
      rcases List.infix_cons_iff.mp hinside with hprefix | hinside
      · exact hc w p hw hprefix
      · exact hs w p hw hinside
    have hlength : (String.join ((Segment.char c :: ps).map (Segment.text [] ""))).toList.length =
        (String.join (ps.map (Segment.text [] ""))).toList.length + 1 := by
      simp [Segment.text, Nat.add_comm]
    rw [hlength, List.length_cons]
    exact ⟨Nat.succ_le_succ ih.1, fun hn => Nat.succ_lt_succ (ih.2 (hplain hn))⟩

/-- A template with a placeholder is not its own message where there are neither parameters nor a
field. -/
theorem compose_ne_of_not_plain {template : String} (h : ¬Plain template.toList) :
    compose template [] .null ≠ .ok template := by
  intro hcompose
  have hlegible : Legible template := by
    by_contra hn
    rw [compose_eq_error (.inl hn)] at hcompose
    cases hcompose
  have hpositions : positions (segments template) [] = .ok [] :=
    positions_each (indexes_eq_ok hlegible) (by simp)
  rw [compose_eq_join hlegible hpositions rfl] at hcompose
  have hshorter := (reads_iff.mpr rfl : Reads template.toList (segments template)).length_le.2 h
  rw [Except.ok.inj hcompose] at hshorter
  exact Nat.lt_irrefl _ hshorter

/-- The fallback is plain if the name of the rule is. -/
theorem plain_fallback_iff {method : String} :
    Plain (fallback method).toList ↔ Plain method.toList := by
  have hbefore : '\x7b' ∉ "This field failed the ".toList := by decide +kernel
  have hafter : '\x7d' ∉ " validation.".toList := by decide +kernel
  change Plain ("This field failed the " ++ method ++ " validation.").toList ↔ _
  rw [String.toList_append, String.toList_append]
  exact plain_append_iff hbefore hafter

end Template

/-- **What the message of a method without template says.** One warning is recorded. The name of the
method becomes part of a template, so a placeholder in it is filled in like any other; for the names
without placeholder, and only for these, the message always has the name as it is. Too long a number
in a parameter, or in the name, is in the way of the message. -/
theorem Composer.compose_without_template {c : Composer} {method : String} {form : Value}
    (hnone : c.templateFor method form = .ok none) :
    (∀ parameters field, (c.compose method parameters form field).1 = [.noTemplate method]) ∧
    ((∀ parameters, (∀ p ∈ parameters, ¬p.Long) → ∀ field,
      (c.compose method parameters form field).2 =
        .ok ("This field failed the " ++ method ++ " validation.")) ↔
          Template.Plain method.toList) ∧
    (∀ parameters, (¬Template.Legible (Template.fallback method) ∨ ∃ p ∈ parameters, p.Long) →
      ∀ field, (c.compose method parameters form field).2 = .error .tooManyDigits) ∧
    (Template.Legible (Template.fallback method) → ∀ arguments (field : Option String), ∃ message,
      (c.compose method (Argument.toValues arguments) form (field.elim .null .text)).2 =
        .ok message ∧
        ∀ m, Template.Rendered (Template.fallback method).toList arguments field m ↔
          m = message) := by
  have hcompose (parameters : List Value) (field : Value) : c.compose method parameters form field =
      ([.noTemplate method], Template.compose (Template.fallback method) parameters field) := by
    unfold Composer.compose
    rw [hnone]
  refine ⟨fun parameters field => by rw [hcompose],
    ⟨fun h => ?_, fun h parameters hparameters field => ?_⟩, fun parameters h field =>
    ?_, fun h arguments field => ?_⟩
  · by_contra hn
    have hbraces : ¬Template.Plain (Template.fallback method).toList :=
      mt Template.plain_fallback_iff.mp hn
    have hverbatim := h [] (List.forall_mem_nil _) .null
    rw [hcompose] at hverbatim
    exact Template.compose_ne_of_not_plain hbraces hverbatim
  · rw [hcompose]
    exact Template.compose_of_plain (Template.plain_fallback_iff.mpr h) hparameters field
  · rw [hcompose]
    exact Template.compose_eq_error h field
  · rw [hcompose]
    exact Template.compose_rendered h arguments field

namespace NamelessTemplate

/-- A name without braces stands in the message as it is, whatever the parameters and the field. -/
theorem even_is_named : Composer.standard.templateFor "even" .null = .ok none ∧
    Composer.standard.compose "even" [.text "\x7b0\x7d"] .null (.text "\x7bfield\x7d") =
      ([.noTemplate "even"], .ok "This field failed the even validation.") := by
  have hnone : Composer.standard.templateFor "even" .null = .ok none := rfl
  obtain ⟨hrecords, hverbatim, -⟩ := Composer.compose_without_template hnone
  refine ⟨hnone, Prod.ext (hrecords _ _)
    (hverbatim.mpr (Template.plain_of_not_mem (by decide)) _ ?_ _)⟩
  intro p hp
  rw [List.mem_singleton.mp hp]
  exact Value.not_long (by simp) rfl

/-- A number in braces is no part of a name that the message has as it is. -/
theorem braces_are_filled : ¬∀ method parameters form field,
    Composer.standard.templateFor method form = .ok none →
      (Composer.standard.compose method parameters form field).2 =
        .ok ("This field failed the " ++ method ++ " validation.") := by
  intro h
  have hverbatim := h "a\x7b0\x7db" [.text "X"] .null .null rfl
  have hfilled : (Composer.standard.compose "a\x7b0\x7db" [.text "X"] .null .null).2 =
      .ok "This field failed the aXb validation." := by decide +kernel
  exact absurd (Except.ok.inj (hfilled.symm.trans hverbatim)) (by decide)

end NamelessTemplate

end FormRules
