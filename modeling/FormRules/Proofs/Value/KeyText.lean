import FormRules.Proofs.Calendar.Spelling
import FormRules.Proofs.Number.Spelling
import FormRules.Proofs.Value.Equality
import FormRules.RuleFile.Document

/-!
# Keys and their texts

A scalar that is no text is known by the text that it is replaced by as a key: the text tells its
kind (`Value.spelledKind_of_keyText`), and within a kind the value (`Value.eq_of_keyText`).
-/

namespace FormRules

/-! ## Bytes -/

namespace Bytes

/-- A byte as it is shown in quotes. -/
def shown (quote : Char) (b : Nat) : List Char :=
  if (Char.ofNat b).toNat < 128 then quotedChar quote (Char.ofNat b)
  else '\\' :: 'x' :: hex 2 (Char.ofNat b).toNat

/-- The value of a hexadecimal digit. -/
def unhex (c : Char) : Nat := if c.toNat < 58 then c.toNat - 48 else c.toNat - 87

/-- The byte that is shown at the start of a text, and the rest. -/
def readByte : List Char → Nat × List Char
  | '\\' :: 't' :: s => (9, s)
  | '\\' :: 'n' :: s => (10, s)
  | '\\' :: 'r' :: s => (13, s)
  | '\\' :: 'x' :: a :: b :: s => (unhex a * 16 + unhex b, s)
  | '\\' :: c :: s => (c.toNat, s)
  | c :: s => (c.toNat, s)
  | [] => (0, [])

/-- The value of a digit is read back. -/
theorem unhex_hexDigit {n : Nat} (h : n < 16) : unhex (hexDigit n) = n := by
  have hall : ∀ n < 16, unhex (hexDigit n) = n := by decide
  exact hall n h

theorem toNat_ofNat {b : Nat} (h : b < 256) : (Char.ofNat b).toNat = b := by
  have hall : ∀ b < 256, (Char.ofNat b).toNat = b := by decide +kernel
  exact hall b h

/-- A byte that is shown by its number is read back. -/
theorem readByte_hex {b : Nat} (h : b < 256) (s : List Char) :
    readByte ('\\' :: 'x' :: hex 2 b ++ s) = (b, s) := by
  change (unhex (hexDigit (b / 16 % 16)) * 16 + unhex (hexDigit (b % 16)), s) = _
  rw [unhex_hexDigit (Nat.mod_lt _ (by decide)), unhex_hexDigit (Nat.mod_lt _ (by decide))]
  congr 1
  omega

/-- A byte that is shown as a character is read back, unless it is a backslash. -/
theorem readByte_cons {c : Char} (hc : c ≠ '\\') (s : List Char) :
    readByte (c :: s) = (c.toNat, s) := by
  simp [readByte, hc]

/-- A byte is read back, whatever follows it. -/
theorem readByte_shown {quote : Char} (hquote : quote = '\'' ∨ quote = '"') {b : Nat} (hb : b < 256)
    (s : List Char) : readByte (shown quote b ++ s) = (b, s) := by
  have hb' := toNat_ofNat hb
  have hbyte {c : Char} (hc : Char.ofNat b = c) : c.toNat = b := by rw [← hc, hb']
  unfold shown quotedChar
  split_ifs with hascii hmark htab hline hreturn hprintable hsmall hwide
  · have hsame : Char.ofNat b = '\'' ∨ Char.ofNat b = '"' ∨ Char.ofNat b = '\\' := by
      rcases hquote with rfl | rfl <;> simp at hmark <;> tauto
    rcases hsame with h | h | h <;> rw [h, ← hbyte h] <;> rfl
  · rw [← hbyte htab]
    rfl
  · rw [← hbyte hline]
    rfl
  · rw [← hbyte hreturn]
    rfl
  · have hslash : Char.ofNat b ≠ '\\' := by
      rintro h
      simp [h] at hmark
    rw [List.singleton_append, readByte_cons hslash, hb']
  · rw [hb']
    exact readByte_hex hb s
  · omega
  · omega
  · rw [hb']
    exact readByte_hex hb s

/-- Every byte shows. -/
theorem shown_ne_nil (quote : Char) (b : Nat) : shown quote b ≠ [] := by
  unfold shown quotedChar
  split_ifs <;> exact List.cons_ne_nil _ _

/-- Bytes are told by what is shown of them in quotes. -/
theorem eq_of_flatMap_shown {quote : Char} (hquote : quote = '\'' ∨ quote = '"') {bs cs : List Nat}
    (hbs : ∀ b ∈ bs, b < 256) (hcs : ∀ c ∈ cs, c < 256)
    (h : bs.flatMap (shown quote) ++ [quote] = cs.flatMap (shown quote) ++ [quote]) : bs = cs := by
  have hlonger (b : Nat) (bs : List Nat) : (b :: bs).flatMap (shown quote) ++ [quote] ≠
      [quote] := by
    intro heq
    rw [List.append_left_eq_self, List.flatMap_cons] at heq
    exact shown_ne_nil quote b (List.append_eq_nil_iff.mp heq).1
  induction bs generalizing cs with
  | nil =>
    cases cs with
    | nil => rfl
    | cons c cs => exact absurd h.symm (hlonger c cs)
  | cons b bs ih =>
    cases cs with
    | nil => exact absurd h (hlonger b bs)
    | cons c cs =>
      rw [List.forall_mem_cons] at hbs hcs
      rw [List.flatMap_cons, List.flatMap_cons, List.append_assoc, List.append_assoc] at h
      have hread := readByte_shown hquote hbs.1 (bs.flatMap (shown quote) ++ [quote])
      rw [h, readByte_shown hquote hcs.1] at hread
      obtain ⟨hfirst, hrest⟩ := Prod.mk.inj hread
      rw [hfirst, ih hbs.2 hcs.2 hrest.symm]

/-- Bytes are shown between the quotes that suit them. -/
theorem quotedBytes_eq (bs : List Nat) : quotedBytes bs = 'b' :: quoteOf (bs.map Char.ofNat) ::
    (bs.flatMap (shown (quoteOf (bs.map Char.ofNat))) ++ [quoteOf (bs.map Char.ofNat)]) := by
  rw [quotedBytes, List.flatMap_map]
  rfl

theorem quoteOf_cases (s : List Char) : quoteOf s = '\'' ∨ quoteOf s = '"' := by
  unfold quoteOf
  split
  · exact .inr rfl
  · exact .inl rfl

/-- Bytes that are shown alike are the same bytes. -/
theorem eq_of_quotedBytes {bs cs : List Nat} (hbs : ∀ b ∈ bs, b < 256) (hcs : ∀ c ∈ cs, c < 256)
    (h : quotedBytes bs = quotedBytes cs) : bs = cs := by
  rw [quotedBytes_eq, quotedBytes_eq] at h
  obtain ⟨hquote, h⟩ := List.cons.inj (List.cons.inj h).2
  rw [← hquote] at h
  exact eq_of_flatMap_shown (quoteOf_cases _) hbs hcs h

end Bytes

/-! ## Scalars -/

/-- Every double but `nan` is equal to itself. -/
theorem Double.equal_self {d : Double} (hd : d ≠ .nan) : d.equal d = true := by
  unfold Double.equal
  rw [Bool.and_self]
  rcases d with _ | (_ | _) | ⟨negative, steps⟩
  · exact absurd rfl hd
  · rfl
  · rfl
  · simp [Double.finite_le_finite]

namespace Value

open Double (padded mem_padded)

/-- A scalar as a document can have it. -/
def Scalar : Value → Prop
  | null | bool _ | int _ | text _ => True
  | float d => d.Exact
  | date d => d.Valid
  | moment m => m.Valid
  | bytes bs => ∀ b ∈ bs, b < 256
  | list _ | tuple _ | map _ | set _ => False

/-- The character is in no whole number. -/
def isMark (c : Char) : Bool := c ∉ '-' :: asciiDigits

/-- A text that has none of the marks is made of digits and dashes. -/
theorem any_isMark_iff {s : List Char} : s.any isMark = true ↔ ∃ c ∈ s, c ∉ '-' :: asciiDigits := by
  simp [isMark]

/-- The kind of the scalars, other than texts, that are replaced by a text where they are keys. -/
def spelledKind (s : List Char) : String :=
  if s = "None".toList then "NoneType"
  else if s = "on".toList ∨ s = "off".toList then "bool"
  else if s.head? = some 'b' then "bytes"
  else if ':' ∈ s then "datetime"
  else if s.any isMark then "float"
  else if '-' ∈ s.tail then "date"
  else "int"

/-- What begins with a digit or a sign spells a number, a day or a moment. -/
theorem spelledKind_of_head {s : List Char} {c : Char} (hs : s.head? = some c)
    (hc : c ∈ '-' :: asciiDigits) :
    spelledKind s = if ':' ∈ s then "datetime"
      else if s.any isMark then "float"
      else if '-' ∈ s.tail then "date" else "int" := by
  have hfirst {t : List Char} {d : Char} (ht : t.head? = some d) (hd : d ∉ '-' :: asciiDigits) :
      s ≠ t := by
    rintro rfl
    obtain rfl := Option.some.inj (hs.symm.trans ht)
    exact hd hc
  have hbytes : s.head? ≠ some 'b' := by
    rw [hs]
    rintro ⟨⟩
    exact absurd hc (by decide)
  have hnull : s ≠ "None".toList := hfirst rfl (by decide)
  have hbool : ¬(s = "on".toList ∨ s = "off".toList) :=
    not_or.mpr ⟨hfirst rfl (by decide), hfirst rfl (by decide)⟩
  rw [spelledKind, if_neg hnull, if_neg hbool, if_neg hbytes]

/-- A padded number begins with a digit. -/
theorem exists_padded (width n : Nat) : ∃ c ∈ asciiDigits, ∃ r, padded width n = c :: r := by
  have hne : padded width n ≠ [] := by
    rw [Double.padded_eq]
    exact List.append_ne_nil_of_right_ne_nil _ Nat.toDigits_ne_nil
  obtain ⟨c, r, heq⟩ := List.exists_cons_of_ne_nil hne
  exact ⟨c, mem_padded (heq ▸ List.mem_cons_self), r, heq⟩

/-- A day is written with digits and dashes. -/
theorem mem_iso {d : Date} {c : Char} (hc : c ∈ d.iso) : c ∈ '-' :: asciiDigits := by
  simp only [Date.iso, List.mem_append, List.mem_cons] at hc
  rcases hc with (hc | rfl | hc) | rfl | hc
  · exact List.mem_cons_of_mem _ (mem_padded hc)
  · exact List.mem_cons_self
  · exact List.mem_cons_of_mem _ (mem_padded hc)
  · exact List.mem_cons_self
  · exact List.mem_cons_of_mem _ (mem_padded hc)

/-- The text of a day has a dash after the first digit. -/
theorem spelledKind_iso (d : Date) : spelledKind d.iso = "date" := by
  obtain ⟨c, hc, r, hyear⟩ := exists_padded 4 d.year
  have hiso : d.iso = c :: (r ++ '-' :: padded 2 d.month ++ '-' :: padded 2 d.day) := by
    rw [Date.iso, hyear]
    rfl
  have hcolon : ':' ∉ d.iso := fun h => absurd (mem_iso h) (by decide)
  have hdigits : ¬∃ x ∈ d.iso, x ∉ '-' :: asciiDigits := by
    rintro ⟨x, hx, hne⟩
    exact hne (mem_iso hx)
  have hdash : '-' ∈ d.iso.tail := by simp [hiso]
  rw [spelledKind_of_head (by rw [hiso]; rfl) (List.mem_cons_of_mem _ hc), if_neg hcolon,
    if_neg (any_isMark_iff.not.mpr hdigits), if_pos hdash]

/-- The text of a moment tells that it is one. -/
theorem spelledKind_moment (m : Moment) (separator : Char) :
    spelledKind (m.iso separator) = "datetime" := by
  obtain ⟨c, hc, r, hyear⟩ := exists_padded 4 m.date.year
  have hhead : (m.iso separator).head? = some c := by
    simp [Moment.iso, Date.iso, hyear]
  have hcolon : ':' ∈ m.iso separator := by simp [Moment.iso, Clock.iso]
  rw [spelledKind_of_head hhead (List.mem_cons_of_mem _ hc), if_pos hcolon]

/-- In the text of a whole number a minus sign only comes first. -/
theorem spelledKind_int (i : Int) : spelledKind (toString i).toList = "int" := by
  obtain ⟨c, r, hdigits⟩ :=
    List.exists_cons_of_ne_nil (Nat.toDigits_ne_nil (b := 10) (n := i.natAbs))
  have hmem (x : Char) (hx : x ∈ (toString i).toList) : x ∈ '-' :: asciiDigits :=
    mem_of_mem_toString hx
  have htail : '-' ∉ (toString i).toList.tail := by
    have hall := mem_toDigits i.natAbs
    rw [toList_toString]
    intro h
    split at h
    · exact absurd (hall _ h) (by decide)
    · exact absurd (hall _ (List.mem_of_mem_tail h)) (by decide)
  obtain ⟨x, hx⟩ : ∃ x, (toString i).toList.head? = some x := by
    rw [toList_toString, hdigits]
    split <;> exact ⟨_, rfl⟩
  have hcolon : ':' ∉ (toString i).toList := fun h => absurd (hmem _ h) (by decide)
  have hplain : ¬∃ x ∈ (toString i).toList, x ∉ '-' :: asciiDigits := by
    rintro ⟨x, hx, hne⟩
    exact hne (hmem x hx)
  rw [spelledKind_of_head hx (hmem x (List.mem_of_mem_head? hx)), if_neg hcolon,
    if_neg (any_isMark_iff.not.mpr hplain), if_neg htail]

/-- The text of a double has a point, an exponent, or letters. -/
theorem spelledKind_float {d : Double} (hd : d.Exact) : spelledKind d.text.toList = "float" := by
  cases d with
  | nan => decide
  | infinite negative => cases negative <;> decide
  | finite negative steps =>
    have hform := Double.isForm_textOfSteps Double.layout (hd negative steps rfl)
    obtain ⟨c, hc, hdigit⟩ := hform.head
    have hhead : ∃ x ∈ '-' :: asciiDigits, (Double.text (.finite negative steps)).toList.head? =
        some x := by
      rw [Double.toList_text]
      cases negative with
      | false => exact ⟨c, List.mem_cons_of_mem _ hdigit, hc⟩
      | true => exact ⟨'-', List.mem_cons_self, rfl⟩
    have hcolon : ':' ∉ (Double.text (.finite negative steps)).toList := by
      rw [Double.toList_text, List.mem_append]
      rintro (h | h)
      · cases negative <;> simp at h
      · exact absurd (hform.chars _ h) (by decide)
    have hmark : ∃ x ∈ (Double.text (.finite negative steps)).toList, x ∉ '-' :: asciiDigits := by
      rw [Double.toList_text]
      rcases hform.mark with h | h
      · exact ⟨'e', List.mem_append_right _ h, by decide⟩
      · exact ⟨'.', List.mem_append_right _ h, by decide⟩
    obtain ⟨x, hx, hhead⟩ := hhead
    rw [spelledKind_of_head hhead hx, if_neg hcolon, if_pos (any_isMark_iff.mpr hmark)]

/-- The text of bytes tells what they are. -/
theorem spelledKind_bytes (bs : List Nat) : spelledKind (quotedBytes bs) = "bytes" := by
  rw [Bytes.quotedBytes_eq]
  simp [spelledKind]

/-- **The text of a key tells the kind of the key**, unless it is a text itself. -/
theorem spelledKind_of_keyText {k : Value} (hk : k.Scalar) (htext : ∀ t, k ≠ text t) {s : String}
    (h : k.keyText = .ok s) : spelledKind s.toList = k.kind := by
  cases k with
  | null =>
    obtain rfl := Except.ok.inj h
    rfl
  | bool b =>
    obtain rfl := Except.ok.inj h
    cases b <;> rfl
  | int i =>
    change intText i = .ok s at h
    unfold intText at h
    split at h
    · obtain rfl := Except.ok.inj h
      exact spelledKind_int i
    · cases h
  | float d =>
    obtain rfl := Except.ok.inj h
    exact spelledKind_float hk
  | text t => exact absurd rfl (htext t)
  | date d =>
    obtain rfl := Except.ok.inj h
    rw [String.toList_ofList]
    exact spelledKind_iso d
  | moment m =>
    obtain rfl := Except.ok.inj h
    rw [String.toList_ofList]
    exact spelledKind_moment m ' '
  | bytes bs =>
    obtain rfl := Except.ok.inj h
    rw [String.toList_ofList]
    exact spelledKind_bytes bs
  | list _ | tuple _ | map _ | set _ => exact hk.elim

/-- Natural numbers with the same digits are equal. -/
theorem eq_of_toDigits {m n : Nat} (h : Nat.toDigits 10 m = Nat.toDigits 10 n) : m = n := by
  rw [← valueOf_toDigits m, h, valueOf_toDigits]

/-- Integers that are written alike are equal. -/
theorem eq_of_toString {i j : Int} (h : toString i = toString j) : i = j := by
  have hminus {m n : Nat} (h : '-' :: Nat.toDigits 10 m = Nat.toDigits 10 n) : False :=
    absurd (mem_toDigits n '-' (h ▸ List.mem_cons_self)) (by decide)
  have hlist := congrArg String.toList h
  rw [toList_toString, toList_toString] at hlist
  split_ifs at hlist
  · have habs := eq_of_toDigits (List.cons.inj hlist).2
    omega
  · exact (hminus hlist).elim
  · exact (hminus hlist.symm).elim
  · have habs := eq_of_toDigits hlist
    omega

/-- Integers that have a text, and the same one, are equal. -/
theorem eq_of_intText {i j : Int} {s : String} (h : intText i = .ok s) (h' : intText j = .ok s) :
    i = j := by
  unfold intText at h h'
  split at h
  · split at h'
    · exact eq_of_toString ((Except.ok.inj h).trans (Except.ok.inj h').symm)
    · cases h'
  · cases h

/-- **Different keys that are no texts have different texts.** -/
theorem eq_of_keyText {a b : Value} (ha : a.Scalar) (hb : b.Scalar) (hta : ∀ t, a ≠ text t)
    (htb : ∀ t, b ≠ text t) {s : String} (h : a.keyText = .ok s) (h' : b.keyText = .ok s) :
    a = b := by
  have hkind : a.kind = b.kind :=
    (spelledKind_of_keyText ha hta h).symm.trans (spelledKind_of_keyText hb htb h')
  have hsame : a.keyText = b.keyText := h.trans h'.symm
  -- the kinds are the same, which leaves one case for each
  cases a <;> cases b <;> first | exact ha.elim | simp [kind] at hkind
  case null.null => rfl
  case bool.bool a b => cases a <;> cases b <;>
    first | rfl | exact absurd (Except.ok.inj hsame) (by decide)
  case int.int i j =>
    change intText i = .ok s at h
    change intText j = .ok s at h'
    rw [eq_of_intText h h']
  case float.float d e => rw [Double.eq_of_text_eq ha hb (Except.ok.inj hsame)]
  case text.text t _ => exact absurd rfl (hta t)
  case date.date d e =>
    have htext : d.iso ++ [] = e.iso ++ [] := by
      rw [List.append_nil, List.append_nil]
      exact String.ofList_injective (Except.ok.inj hsame)
    rw [(Date.eq_of_iso_append ha hb htext).1]
  case moment.moment m n =>
    rw [Moment.eq_of_iso ha hb (String.ofList_injective (Except.ok.inj hsame))]
  case bytes.bytes bs cs =>
    rw [Bytes.eq_of_quotedBytes ha hb (String.ofList_injective (Except.ok.inj hsame))]

/-- Of the scalars only `nan` is not equal to itself. -/
theorem same_self {k : Value} (hk : k.Scalar) (hnan : k ≠ .float .nan) : k.same k = true := by
  have hnumber {d : Double} (hd : k.number? = some d) (hne : d ≠ .nan) : k.same k = true := by
    have hequal := Double.equal_self hne
    cases k <;> simp_all [same, number?]
  cases k with
  | null => rfl
  | bool b => exact hnumber rfl (by cases b <;> rintro ⟨⟩)
  | int i => exact hnumber rfl (by rintro ⟨⟩)
  | float d => exact hnumber rfl fun h => hnan (congrArg float h)
  | text s => simp [same]
  | date d => simp [same]
  | moment m =>
    simp only [same, sameMoment]
    cases m.ahead <;> simp
  | bytes bs => simp [same]
  | list _ | tuple _ | map _ | set _ => exact hk.elim

end Value

end FormRules
