import FormRules.Number.Reader
import FormRules.Yaml.Token
import Mathlib.Data.List.InsertIdx

/-!
# What stops the scanner

Cutting a text into tokens stops at what is not well-formed, and for two other causes: a numeric
escape of no code point, and a version number with too many digits (`Flaw`). The scanner only ever
goes on in what is left of the text (`Cursor.Within`), so these are found in the text itself
(`flawed_of_failed`).
-/

namespace FormRules.Yaml

variable {α β : Type}

/-- The attempt comes to a result with one property or to a failure with the other. -/
def Gives (P : α → Prop) (S : Failure → Prop) : Except Failure α → Prop
  | .ok a => P a
  | .error f => S f

namespace Gives

variable {P : α → Prop} {Q : β → Prop} {S : Failure → Prop} {x : Except Failure α}

/-- Two scans one after the other give what the second gives, and fail as either does. -/
theorem bind {f : α → Except Failure β} (hx : Gives P S x) (hf : ∀ a, P a → Gives Q S (f a)) :
    Gives Q S (x >>= f) := by
  rcases x with failure | a
  · exact hx
  · exact hf a hx

/-- A choice of scans gives what both give. -/
theorem ite {c : Prop} [Decidable c] {x y : Except Failure α} (hx : c → Gives P S x)
    (hy : ¬c → Gives P S y) : Gives P S (if c then x else y) := by
  split
  · exact hx ‹_›
  · exact hy ‹_›

end Gives

/-- What in a text makes no tokens although the text may be well-formed. -/
inductive Flaw (text : List Char) : Fault → Prop
  /-- a backslash, a letter and digits that write no code point -/
  | escape {letter : Char} {rest : List Char} (h : '\\' :: letter :: rest <:+ text) {width n : Nat}
      (hwidth : escapeWidth? letter = some width) (hn : hexNumber? width rest = some n)
      {fault : Fault}
      (hfault : codePoint n = .error (.fault fault)) : Flaw text fault
  /-- digits that are too many to be read as a version -/
  | version {digits rest : List Char} (h : digits ++ rest <:+ text)
      (hdigits : ∀ c ∈ digits, Text.isAsciiDigit c = true) (hmany : maxDigits < digits.length) :
      Flaw text .tooManyDigits

/-- The failure is one of notation, or the text has a flaw. -/
def Flawed (text : List Char) (failure : Failure) : Prop :=
  ∀ fault, failure = .fault fault → Flaw text fault

/-- Every text may be malformed. -/
theorem flawed_malformed (text : List Char) : Flawed text .malformed := nofun

namespace Cursor

/-- What comes next is the rest of the text. -/
def Within (text : List Char) (c : Cursor) : Prop := c.rest <:+ text

/-- One step leaves the tail. -/
theorem rest_next (c : Cursor) : c.next.rest = c.rest.tail := by
  unfold next
  split
  · next h => simp [h]
  · next ch rest h =>
    rw [h]
    split
    · rfl
    · split <;> rfl

/-- Several steps leave what is behind them. -/
theorem rest_skip (n : Nat) (c : Cursor) : (skip n c).rest = c.rest.drop n := by
  induction n generalizing c with
  | zero => rfl
  | succ n ih =>
    rw [skip, ih, rest_next, List.drop_tail]

/-- Before the end of the text the next character stands in front of what comes after it. -/
theorem rest_eq_of_peek {c : Cursor} {ch : Char} (h : c.peek = ch) (hch : ch ≠ nul) :
    c.rest = ch :: c.next.rest := by
  rw [rest_next]
  unfold peek at h
  cases hrest : c.rest with
  | nil =>
    rw [hrest] at h
    exact absurd h.symm hch
  | cons d rest =>
    rw [hrest] at h
    rw [← h]
    rfl

namespace Within

variable {text : List Char} {c : Cursor} (h : c.Within text)
include h

/-- One step of the scanner keeps it sound, or ends in a flaw of the text. -/
theorem next : c.next.Within text := by
  unfold Within
  rw [rest_next]
  exact (List.tail_suffix _).trans h

/-- Several steps stay within the text. -/
theorem skip (n : Nat) : (c.skip n).Within text := by
  unfold Within
  rw [rest_skip]
  exact (List.drop_suffix _ _).trans h

/-- Taking characters stays within the text. -/
theorem takeWhile (p : Char → Bool) : (c.takeWhile p).2.Within text := h.skip _

theorem skipWhile (p : Char → Bool) : (c.skipWhile p).Within text := h.skip _

/-- A line break is passed within the text. -/
theorem lineBreak {b : Char} {c' : Cursor} (hbreak : c.lineBreak? = some (b, c')) :
    c'.Within text := by
  unfold lineBreak? at hbreak
  split at hbreak
  · obtain ⟨-, rfl⟩ := Prod.mk.inj (Option.some.inj hbreak)
    exact h.next
  · cases hbreak

/-- The rest of a line is passed within the text, if it may be passed. -/
theorem endLine : Gives (Within text) (Flawed text) c.endLine := by
  unfold Cursor.endLine
  have hspaces := h.skipWhile (· == ' ')
  refine .ite (fun _ => ?_) fun _ => flawed_malformed text
  refine Within.next ?_
  split
  · exact hspaces.skipWhile _
  · exact hspaces

end Within

end Cursor

/-- The attempt goes on inside the text, unless it stops at a flaw. -/
abbrev Stays (text : List Char) : Except Failure (α × Cursor) → Prop :=
  Gives (fun r => r.2.Within text) (Flawed text)

open Cursor

variable {text : List Char} {c : Cursor}

/-! ## Scalars -/

/-- Breaks in a plain scalar are passed within the text. -/
theorem within_plainBreaks (fuel : Nat) (hc : c.Within text) :
    (plainBreaks fuel c).2.Within text := by
  induction fuel generalizing c with
  | zero => exact hc
  | succ fuel ih =>
    unfold plainBreaks
    split
    · exact ih hc.next
    · split
      · exact hc
      · next b c' hbreak =>
        have hc' := hc.lineBreak hbreak
        split
        · exact hc'
        · exact ih hc'

/-- So are the gaps in it. -/
theorem within_plainGap (hc : c.Within text) : (plainGap c).2.2.Within text := by
  unfold plainGap
  have hspaces := hc.takeWhile (· == ' ')
  generalize c.takeWhile (· == ' ') = taken at hspaces ⊢
  obtain ⟨spaces, c⟩ := taken
  dsimp only
  split
  · exact hspaces
  · next b c' hbreak =>
    have hc' := hspaces.lineBreak hbreak
    have hbreaks := within_plainBreaks c'.rest.length hc'
    split
    · exact hc'
    · generalize plainBreaks c'.rest.length c' = breaks at hbreaks ⊢
      obtain ⟨_ | breaks, c''⟩ := breaks
      · exact hbreaks
      · exact hbreaks

/-- A plain scalar is read within the text, by induction on the fuel. -/
theorem within_plainFrom (inFlow : Bool) (indent : Int) (fuel : Nat) (gap : List Char)
    (broken : Bool)
    (hc : c.Within text) : (plainFrom inFlow indent fuel gap broken c).2.2.Within text := by
  induction fuel generalizing gap broken c with
  | zero => exact hc
  | succ fuel ih =>
    unfold plainFrom
    extract_lets run
    split
    · exact hc
    · have hgap := within_plainGap (hc.skip run.length)
      generalize plainGap (c.skip run.length) = gap' at hgap ⊢
      obtain ⟨next, broken, c'⟩ := gap'
      dsimp only
      split
      · exact hgap
      · exact ih _ _ hgap

theorem within_plainScalar (inFlow : Bool) (indent : Int) (hc : c.Within text) :
    (plainScalar inFlow indent c).2.2.Within text :=
  within_plainFrom _ _ _ _ _ hc

/-- Breaks in a quoted scalar are passed within the text. -/
theorem stays_quotedBreaks (fuel : Nat) (hc : c.Within text) :
    Stays text (quotedBreaks fuel c) := by
  induction fuel generalizing c with
  | zero => exact hc
  | succ fuel ih =>
    unfold quotedBreaks
    refine .ite (fun _ => flawed_malformed text) fun _ => ?_
    have hspaces := hc.skipWhile isSpaceOrTab
    dsimp only
    split
    · exact hspaces
    · next b c' hbreak => exact (ih (hspaces.lineBreak hbreak)).bind fun r hr => hr

/-- So are the gaps in it. -/
theorem stays_quotedGap (hc : c.Within text) : Stays text (quotedGap c) := by
  unfold quotedGap
  have hspaces := hc.takeWhile isSpaceOrTab
  generalize c.takeWhile isSpaceOrTab = taken at hspaces ⊢
  obtain ⟨spaces, c⟩ := taken
  dsimp only
  split
  · next b c' hbreak =>
    exact (stays_quotedBreaks _ (hspaces.lineBreak hbreak)).bind fun r hr => hr
  · exact .ite (fun _ => flawed_malformed text) fun _ => hspaces

/-- An escape; the backslash stands before the cursor. -/
theorem stays_escaped (hc : '\\' :: c.rest <:+ text) : Stays text (escaped c) := by
  have hwithin : c.Within text := (List.suffix_cons _ _).trans hc
  unfold escaped
  split
  · exact hwithin.next
  · split
    · next width hwidth =>
      split
      · next n hn =>
        cases hpoint : codePoint n with
        | ok ch => exact hwithin.next.skip width
        | error failure =>
          intro fault hfault
          subst hfault
          -- at the end of the text there is no letter
          obtain ⟨letter, rest, hrest⟩ : ∃ letter rest, c.rest = letter :: rest := by
            cases hrest : c.rest with
            | nil => simp [Cursor.peek, hrest, escapeWidth?, nul] at hwidth
            | cons letter rest => exact ⟨letter, rest, rfl⟩
          rw [hrest] at hc
          rw [rest_next, hrest] at hn
          rw [Cursor.peek, hrest] at hwidth
          exact .escape hc hwidth hn hpoint
      · exact flawed_malformed text
    · split
      · next b c' hbreak => exact stays_quotedBreaks _ (hwithin.lineBreak hbreak)
      · exact flawed_malformed text

/-- A quoted scalar is read within the text, and fails for flaws of the text only. -/
theorem stays_quotedFrom (double : Bool) (fuel : Nat) (hc : c.Within text) :
    Stays text (quotedFrom double fuel c) := by
  induction fuel generalizing c with
  | zero => exact flawed_malformed text
  | succ fuel ih =>
    unfold quotedFrom
    extract_lets ch goOn
    have hgoOn (piece : List Char) {c : Cursor} (hc : c.Within text) : Stays text (goOn piece c) :=
      (ih hc).bind fun r hr => hr
    refine .ite (fun _ => flawed_malformed text) fun _ => .ite (fun _ => hc.next) fun _ => ?_
    refine .ite (fun _ => .ite (fun _ => hgoOn _ (hc.skip 2)) fun _ => hc.next) fun _ => ?_
    refine .ite (fun _ => (stays_quotedGap hc).bind fun r hr => hgoOn _ hr) fun _ => ?_
    refine .ite (fun hback => ?_) fun _ => hgoOn _ hc.next
    have hescape : '\\' :: c.next.rest <:+ text := by
      have hpeek : c.peek = '\\' := by
        rw [Bool.and_eq_true, beq_iff_eq] at hback
        exact hback.2
      rw [← rest_eq_of_peek hpeek (by decide)]
      exact hc
    exact (stays_escaped hescape).bind fun r hr => hgoOn _ hr

theorem stays_quotedScalar (hc : c.Within text) : Stays text (quotedScalar c) :=
  stays_quotedFrom _ _ hc.next

/-- Indentation is passed over. -/
theorem within_blockIndentation (fuel deepest : Nat) (hc : c.Within text) :
    (blockIndentation fuel deepest c).2.2.Within text := by
  induction fuel generalizing deepest c with
  | zero => exact hc
  | succ fuel ih =>
    unfold blockIndentation
    split
    · exact ih _ hc.next
    · split
      · exact hc
      · next b c' hbreak => exact ih _ (hc.lineBreak hbreak)

/-- An indentation is passed within the text. -/
theorem within_indented (indent : Nat) (hc : c.Within text) : (indented indent c).Within text :=
  hc.skip _

/-- Breaks in a block scalar are passed within the text. -/
theorem within_blockBreaks (indent fuel : Nat) (hc : c.Within text) :
    (blockBreaks indent fuel c).2.Within text := by
  induction fuel generalizing c with
  | zero => exact hc
  | succ fuel ih =>
    unfold blockBreaks
    have hindented := within_indented indent hc
    dsimp only
    split
    · exact hindented
    · next b c' hbreak => exact ih (hindented.lineBreak hbreak)

/-- The lines of a block scalar are read within the text. -/
theorem within_blockLines (folded : Bool) (chomping : Chomping) (indent fuel : Nat)
    (breaks : List Char) (hc : c.Within text) :
    (blockLines folded chomping indent fuel breaks c).2.Within text := by
  induction fuel generalizing breaks c with
  | zero => exact hc
  | succ fuel ih =>
    unfold blockLines
    have hline := hc.takeWhile fun ch => !isLineEnd ch
    generalize c.takeWhile (fun ch => !isLineEnd ch) = taken at hline ⊢
    obtain ⟨line, c₁⟩ := taken
    dsimp only
    have hfinish (last : Option Char) {c₂ : Cursor} (hc₂ : c₂.Within text) :
        (let more := blockBreaks indent (c₂.rest.length + 1) c₂
          if more.2.column == indent && more.2.peek != nul then
            let rest := blockLines folded chomping indent fuel more.1 more.2
            (breaks ++ line ++
              betweenLines folded last (!isSpaceOrTab c.peek && !isSpaceOrTab more.2.peek) more.1 ++
              rest.1, rest.2)
          else (breaks ++ line ++ chomp chomping last more.1, more.2)).2.Within text := by
      have hmore := within_blockBreaks indent (c₂.rest.length + 1) hc₂
      dsimp only
      split
      · exact ih _ hmore
      · exact hmore
    -- the last line may end with the text
    cases hbreak : c₁.lineBreak? with
    | some last => exact hfinish _ (hline.lineBreak hbreak)
    | none => exact hfinish none hline

theorem stays_increment? (ch : Char) : Gives (fun _ => True) (Flawed text) (increment? ch) :=
  .ite (fun _ => flawed_malformed text) fun _ => .ite (fun _ => trivial) fun _ => trivial

/-- The header of a block scalar is read within the text. -/
theorem stays_blockHeader (hc : c.Within text) : Stays text (blockHeader c) := by
  unfold blockHeader
  extract_lets finish
  have hfinish (r : (Chomping × Option Nat) × Cursor) (hr : r.2.Within text) :
      Stays text (finish r) :=
    .ite (fun _ => hr.endLine.bind fun c' hc' => hc') fun _ => flawed_malformed text
  split
  · next chomping _ =>
    refine (stays_increment? _).bind fun increment _ => ?_
    cases increment with
    | some n => exact hfinish ((chomping, some n), c.next.next) hc.next.next
    | none => exact hfinish ((chomping, none), c.next) hc.next
  · refine (stays_increment? _).bind fun increment _ => ?_
    cases increment with
    | some n =>
      dsimp only
      split
      · next chomping _ => exact hfinish ((chomping, some n), c.next.next) hc.next.next
      · exact hfinish ((.clip, some n), c.next) hc.next
    | none => exact hfinish ((.clip, none), c) hc

theorem stays_blockScalar (parent : Int) (hc : c.Within text) :
    Stays text (blockScalar parent c) := by
  unfold blockScalar
  refine (stays_blockHeader hc.next).bind fun header hheader => ?_
  obtain ⟨⟨chomping, increment⟩, c'⟩ := header
  cases increment with
  | some n =>
    have hbreaks := within_blockBreaks (max (parent + 1).toNat 1 + n - 1)
      (c'.rest.length + 1) hheader
    exact .ite (fun _ => within_blockLines _ _ _ _ _ hbreaks) fun _ => hbreaks
  | none =>
    have hbreaks := within_blockIndentation c'.rest.length 0 hheader
    exact .ite (fun _ => within_blockLines _ _ _ _ _ hbreaks) fun _ => hbreaks

/-! ## Tags and directives -/

/-- Escaped bytes in a tag are read within the text. -/
theorem stays_tagBytes (fuel : Nat) (hc : c.Within text) : Stays text (tagBytes fuel c) := by
  induction fuel generalizing c with
  | zero => exact hc
  | succ fuel ih =>
    unfold tagBytes
    refine .ite (fun _ => ?_) fun _ => hc
    split
    · exact (ih (hc.skip 3)).bind fun r hr => hr
    · exact flawed_malformed text

/-- The text of a tag is read within the text of the file. -/
theorem stays_tagTextFrom (fuel : Nat) (hc : c.Within text) : Stays text (tagTextFrom fuel c) := by
  induction fuel generalizing c with
  | zero => exact hc
  | succ fuel ih =>
    unfold tagTextFrom
    refine .ite (fun _ => (stays_tagBytes _ hc).bind fun r hr => ?_) fun _ => ?_
    · obtain ⟨bytes, c'⟩ := r
      dsimp only
      split
      · exact flawed_malformed text
      · exact (ih hr).bind fun r hr => hr
    · exact .ite (fun _ => (ih hc.next).bind fun _ hr => hr) fun _ => hc

theorem stays_tagText (hc : c.Within text) : Stays text (tagText c) :=
  (stays_tagTextFrom _ hc).bind fun _ hr => .ite (fun _ => flawed_malformed text) fun _ => hr

theorem stays_tagHandle (hc : c.Within text) : Stays text (tagHandle c) := by
  unfold tagHandle
  refine .ite (fun _ => flawed_malformed text) fun _ => .ite (fun _ => hc.next) fun _ => ?_
  exact .ite (fun _ => (hc.next.takeWhile isNameChar).next) fun _ => flawed_malformed text

theorem stays_fullTag (hc : c.Within text) : Stays text (fullTag c) :=
  (stays_tagText hc).bind fun _ hr => .ite (fun _ => hr.next) fun _ => flawed_malformed text

/-- A tag is read within the text, in each of its notations. -/
theorem stays_writtenTag (hc : c.Within text) : Stays text (writtenTag c) := by
  unfold writtenTag
  extract_lets finish
  have hfinish (r : WrittenTag × Cursor) (hr : r.2.Within text) : Stays text (finish r) :=
    .ite (fun _ => hr) fun _ => flawed_malformed text
  refine .ite (fun _ => (stays_fullTag (hc.skip 2)).bind hfinish) fun _ => ?_
  refine .ite (fun _ => hfinish (⟨none, ['!']⟩, c.next) hc.next) fun _ => ?_
  refine .ite (fun _ => (stays_tagHandle hc).bind fun handle hhandle => ?_) fun _ => ?_
  · exact (stays_tagText hhandle).bind fun r hr => hfinish (⟨some handle.1, r.1⟩, r.2) hr
  · exact (stays_tagText hc.next).bind fun r hr => hfinish (⟨some ['!'], r.1⟩, r.2) hr

theorem stays_versionNumber (hc : c.Within text) : Stays text (versionNumber c) := by
  have hdigits : ∀ d ∈ c.rest.takeWhile Text.isAsciiDigit, Text.isAsciiDigit d = true :=
    fun d hd => List.all_eq_true.mp List.all_takeWhile d hd
  have htext : c.rest.takeWhile Text.isAsciiDigit ++
      c.rest.dropWhile Text.isAsciiDigit <:+ text := by
    rw [List.takeWhile_append_dropWhile]
    exact hc
  refine .ite (fun _ => flawed_malformed text) fun _ => .ite (fun hmany => ?_) fun _ =>
    hc.takeWhile _
  intro fault hfault
  cases hfault
  exact .version htext hdigits hmany

/-- The value of a directive is read within the text. -/
theorem stays_directiveValue (name : List Char) (hc : c.Within text) :
    Stays text (directiveValue name c) := by
  have hspaces {c : Cursor} (hc : c.Within text) : (c.skipWhile (· == ' ')).Within text :=
    hc.skipWhile _
  unfold directiveValue
  refine .ite (fun _ => ?_) fun _ => .ite (fun _ => ?_) fun _ => hc.skipWhile _
  · refine (stays_versionNumber (hspaces hc)).bind fun major hmajor => ?_
    refine .ite (fun _ => flawed_malformed text) fun _ => ?_
    refine (stays_versionNumber hmajor.next).bind fun minor hminor => ?_
    exact .ite (fun _ => hminor) fun _ => flawed_malformed text
  · refine (stays_tagHandle (hspaces hc)).bind fun handle hhandle => ?_
    refine .ite (fun _ => flawed_malformed text) fun _ => ?_
    refine (stays_tagText (hspaces hhandle)).bind fun start hstart => ?_
    exact .ite (fun _ => hstart) fun _ => flawed_malformed text

theorem stays_directive (hc : c.Within text) : Stays text (directive c) := by
  unfold directive
  refine .ite (fun _ => flawed_malformed text) fun _ => ?_
  refine (stays_directiveValue _ (hc.next.takeWhile isNameChar)).bind fun d hd => ?_
  exact hd.endLine.bind fun c' hc' => hc'

/-! ## Tokens -/

namespace Scan

/-- The scanner is inside the text and has not failed. -/
structure Sound (text : List Char) (s : Scan) : Prop where
  place : s.place.Within text
  tokens : ∀ failure, .failed failure ∉ s.tokens

/-- The scanner goes on, unless it stops at a flaw. -/
abbrev GoesOn (text : List Char) : Except Failure Scan → Prop := Gives (Sound text) (Flawed text)

namespace Sound

variable {s : Scan} (h : s.Sound text)
include h

/-- A token that is no failure may be added. -/
theorem push (t : Token) (ht : ∀ failure, t ≠ .failed failure) : (s.push t).Sound text where
  place := h.place
  tokens failure hmem := by
    rcases List.mem_cons.mp hmem with heq | hmem
    · exact ht failure heq.symm
    · exact h.tokens failure hmem

/-- A token that is no failure may be put between others. -/
theorem insert (number : Nat) (t : Token) (ht : ∀ failure, t ≠ .failed failure) :
    (s.insert number t).Sound text where
  place := h.place
  tokens failure hmem := by
    rcases List.eq_or_mem_of_mem_insertIdx hmem with heq | hmem
    · exact ht failure heq.symm
    · exact h.tokens failure hmem

/-- Forgetting keys that are too far away changes no token. -/
theorem forgetStale : GoesOn text s.forgetStale :=
  .ite (fun _ => flawed_malformed text) fun _ => ⟨h.place, h.tokens⟩

theorem forgetKey : GoesOn text s.forgetKey :=
  .ite (fun _ => flawed_malformed text) fun _ => ⟨h.place, h.tokens⟩

/-- Remembering where a key may begin changes no token. -/
theorem rememberKey : GoesOn text s.rememberKey :=
  .ite (fun _ => h.forgetKey.bind fun _ h => ⟨h.place, h.tokens⟩) fun _ => h

/-- Closing blocks adds tokens that are no failures. -/
theorem dedent (column : Int) : (s.dedent column).Sound text := by
  have closeTo (outer : List Int) {s : Scan} (h : s.Sound text) :
      (closeTo column outer s).Sound text := by
    induction outer generalizing s with
    | nil => exact h
    | cons i outer ih =>
      unfold Scan.closeTo
      split
      · exact ih ⟨h.place, (h.push .blockEnd nofun).tokens⟩
      · exact h
  unfold Scan.dedent
  split
  · exact h
  · exact closeTo _ h

/-- Opening a block adds a token that is no failure. -/
theorem openHere (t : Token) (ht : ∀ failure, t ≠ .failed failure) :
    GoesOn text (s.openHere t) := by
  unfold Scan.openHere
  refine .ite (fun _ => h) fun _ => .ite (fun _ => flawed_malformed text) fun _ => ?_
  exact .ite (fun _ => ⟨h.place, (h.push t ht).tokens⟩) fun _ => h

/-- Going on to the next token stays within the text. -/
theorem toToken : s.toToken.Sound text := by
  have skipGap (fuel : Nat) {c : Cursor} (hc : c.Within text) : (skipGap fuel c).2.Within text := by
    induction fuel generalizing c with
    | zero => exact hc
    | succ fuel ih =>
      unfold Scan.skipGap
      split
      · exact ih hc.next
      · split
        · exact ih (hc.skipWhile _)
        · split
          · exact ih hc.next
          · exact hc
  unfold Scan.toToken
  extract_lets c c'
  have hc : c'.Within text := by
    unfold c'
    split
    · exact h.place.next
    · exact h.place
  exact ⟨skipGap _ hc, h.tokens⟩

/-! ### The tokens -/

/-- The end of the file closes all blocks. -/
theorem streamEnd : GoesOn text s.streamEnd :=
  (h.dedent (-1)).forgetKey.bind fun _ h => ⟨h.place, (h.push .streamEnd nofun).tokens⟩

/-- A directive is scanned within the text. -/
theorem directive : GoesOn text s.directive :=
  (h.dedent (-1)).forgetKey.bind fun _ h => (stays_directive h.place).bind fun r hr =>
    ⟨hr, (h.push (.directive r.1) nofun).tokens⟩

theorem marker {t : Token} (ht : ∀ failure, t ≠ .failed failure) : GoesOn text (s.marker t) :=
  (h.dedent (-1)).forgetKey.bind fun _ h => ⟨h.place.skip 3, (h.push t ht).tokens⟩

/-- A bracket or brace opens a flow collection. -/
theorem flowStart {t : Token} (ht : ∀ failure, t ≠ .failed failure) : GoesOn text (s.flowStart t) :=
  h.rememberKey.bind fun _ h => ⟨h.place.skip 1, (h.push t ht).tokens⟩

/-- A bracket or brace closes a flow collection. -/
theorem flowEnd {t : Token} (ht : ∀ failure, t ≠ .failed failure) : GoesOn text (s.flowEnd t) :=
  h.forgetKey.bind fun _ h => .ite (fun _ => flawed_malformed text) fun _ =>
    ⟨h.place.skip 1, (h.push t ht).tokens⟩

theorem flowItem : GoesOn text s.flowItem :=
  h.forgetKey.bind fun _ h => ⟨h.place.skip 1, (h.push .flowItem nofun).tokens⟩

theorem blockItem : GoesOn text s.blockItem :=
  (h.openHere .listStart nofun).bind fun _ h => h.forgetKey.bind fun _ h =>
    ⟨h.place.skip 1, (h.push .blockItem nofun).tokens⟩

theorem key : GoesOn text s.key :=
  (h.openHere .mapStart nofun).bind fun _ h => h.forgetKey.bind fun _ h =>
    ⟨h.place.skip 1, (h.push .key nofun).tokens⟩

/-- A colon makes what was remembered a key. -/
theorem value : GoesOn text s.value := by
  unfold Scan.value
  split
  · next k _ =>
    extract_lets s₁ s₂ column s₃
    have hkeys : s₁.Sound text := ⟨h.place, h.tokens⟩
    have hkey : s₂.Sound text := hkeys.insert k.number .key nofun
    have hmap : s₃.Sound text := by
      unfold s₃
      split
      · exact ⟨hkey.place, (hkey.insert k.number .mapStart nofun).tokens⟩
      · exact hkey
    exact ⟨hmap.place.skip 1, (hmap.push .value nofun).tokens⟩
  · exact (h.openHere .mapStart nofun).bind fun _ h =>
      ⟨h.place.skip 1, (h.push .value nofun).tokens⟩

/-- An anchor or alias is scanned within the text. -/
theorem name {token : List Char → Token} (ht : ∀ name failure, token name ≠ .failed failure) :
    GoesOn text (s.name token) :=
  h.rememberKey.bind fun _ h => .ite (fun _ => flawed_malformed text) fun _ =>
    ⟨h.place.next.takeWhile _, (h.push (token _) (ht _)).tokens⟩

theorem tag : GoesOn text s.tag :=
  h.rememberKey.bind fun _ h => (stays_writtenTag h.place).bind fun r hr =>
    ⟨hr, (h.push (.tag r.1) nofun).tokens⟩

/-- A block scalar is scanned within the text. -/
theorem block : GoesOn text s.block :=
  h.forgetKey.bind fun _ h => (stays_blockScalar _ h.place).bind fun r hr =>
    ⟨hr, (h.push (.scalar r.1 false) nofun).tokens⟩

theorem quoted : GoesOn text s.quoted :=
  h.rememberKey.bind fun _ h => (stays_quotedScalar h.place).bind fun r hr =>
    ⟨hr, (h.push (.scalar r.1 false) nofun).tokens⟩

theorem plain : GoesOn text s.plain :=
  h.rememberKey.bind fun s h =>
    have hplain := within_plainScalar s.inFlow (s.indent + 1) h.place
    ⟨hplain, (h.push (.scalar (plainScalar s.inFlow (s.indent + 1) s.place).1 true) nofun).tokens⟩

/-- The next token is scanned by the scanner of its kind. -/
theorem token : GoesOn text s.token := by
  unfold Scan.token
  refine .ite (fun _ => h.streamEnd) fun _ => .ite (fun _ => h.directive) fun _ => ?_
  refine .ite (fun _ => h.marker nofun) fun _ => .ite (fun _ => h.marker nofun) fun _ => ?_
  refine .ite (fun _ => h.flowStart nofun) fun _ => .ite (fun _ => h.flowStart nofun) fun _ => ?_
  refine .ite (fun _ => h.flowEnd nofun) fun _ => .ite (fun _ => h.flowEnd nofun) fun _ => ?_
  refine .ite (fun _ => h.flowItem) fun _ => .ite (fun _ => h.blockItem) fun _ => ?_
  refine .ite (fun _ => h.key) fun _ => .ite (fun _ => h.value) fun _ => ?_
  refine .ite (fun _ => h.name nofun) fun _ => .ite (fun _ => h.name nofun) fun _ => ?_
  refine .ite (fun _ => h.tag) fun _ => .ite (fun _ => h.block) fun _ => ?_
  exact .ite (fun _ => h.quoted) fun _ => .ite (fun _ => h.plain) fun _ => flawed_malformed text

theorem next : GoesOn text s.next :=
  h.toToken.forgetStale.bind fun _ h => (h.dedent _).token

/-- Where the scanner fails, it fails at a flaw. -/
theorem tokensFrom (fuel : Nat) {failure : Failure} (hmem : .failed failure ∈ s.tokensFrom fuel) :
    Flawed text failure := by
  induction fuel generalizing s with
  | zero => exact absurd (List.mem_reverse.mp hmem) (h.tokens failure)
  | succ fuel ih =>
    have hnext := h.next
    unfold Scan.tokensFrom at hmem
    cases hs : s.next with
    | error f =>
      rw [hs] at hnext hmem
      -- the settled tokens are some of those so far, and none of these has failed
      rcases List.mem_append.mp hmem with hmem | hmem
      · exact absurd (List.mem_reverse.mp (List.mem_of_mem_take hmem)) (h.tokens failure)
      · rw [List.mem_singleton] at hmem
        cases hmem
        exact hnext
    | ok s' =>
      rw [hs] at hnext hmem
      dsimp only at hmem
      split at hmem
      · exact absurd (List.mem_reverse.mp hmem) (hnext.tokens failure)
      · exact ih hnext hmem

end Sound

end Scan

/-- The text is only left uncut at something that is not well-formed, or at a flaw. -/
theorem flawed_of_failed {failure : Failure} (h : .failed failure ∈ tokens text) :
    Flawed text failure :=
  Scan.Sound.tokensFrom ⟨List.suffix_rfl, fun _ => List.not_mem_nil⟩ _ h

end FormRules.Yaml
