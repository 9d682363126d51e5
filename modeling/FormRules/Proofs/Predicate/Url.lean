import FormRules.Proofs.Predicate.Email

/-!
# URLs

A web address begins with `http://` or `https://` in letters of either case, has at least one more
character, and holds no white space (`IsWebAddress`). The pattern of a URL asks for something else
(`IsUrl`): the s may be a long s, the second character behind the slashes may be white space if it
is no line feed, and a final line feed is passed over as in every pattern.

A text that is not blank passes `url` just if it is of that form, with a line feed behind it or
without (`Catalog.passes_url_iff`). So there are texts that pass and are no web addresses
(`SpacedAddress.white_space_passes`).
-/

namespace FormRules

open Text

/-! ## Addresses -/

/-- An address on the web. -/
def IsWebAddress (s : String) : Prop :=
  (∃ scheme rest, s.toList = scheme ++ "://".toList ++ rest ∧
    scheme.map Char.toLower ∈ ["http".toList, "https".toList] ∧ rest ≠ []) ∧
  ∀ c ∈ s.toList, isBlank c = false

/-- The small letter that a character is taken for where case is not looked at: a long s is an s
too. -/
def smallLetter (c : Char) : Char := if c = 'ſ' then 's' else c.toLower

/-- A URL as its pattern has it: the scheme, a character that may begin an authority, a character of
any kind but a line feed, and no white space after that. -/
def IsUrl (s : String) : Prop :=
  ∃ scheme start next rest, s.toList = scheme ++ "://".toList ++ start :: next :: rest ∧
    scheme.map smallLetter ∈ ["http".toList, "https".toList] ∧
    (isBlank start = false ∧ start ∉ ['/', '$', '.', '?', '#']) ∧ next ≠ '\n' ∧
    ∀ c ∈ rest, isBlank c = false

/-- A small letter is made of itself and of its capital. -/
theorem Text.toLower_eq_iff {c d : Char} (hd : d.isLower = true) :
    c.toLower = d ↔ c = d ∨ c = d.toUpper := by
  delta Char.isLower at hd
  simp only [Bool.and_eq_true, decide_eq_true_eq, ge_iff_le, UInt32.le_iff_toNat_le] at hd
  delta Char.toLower Char.toUpper
  simp only [Char.ext_iff, ← UInt32.toNat_inj, UInt32.le_iff_toNat_le, ge_iff_le]
  have hA : 'A'.val.toNat = 65 := rfl
  have hZ : 'Z'.val.toNat = 90 := rfl
  have ha : 'a'.val.toNat = 97 := rfl
  have hz : 'z'.val.toNat = 122 := rfl
  have hup : ('a'.val - 'A'.val).toNat = 32 := rfl
  -- the way down is a way up beyond the largest word
  have hdown : ('A'.val - 'a'.val).toNat = 4294967264 := rfl
  rw [dif_pos hd]
  split
  · simp only [UInt32.toNat_add, hup, hdown]
    omega
  · simp only [UInt32.toNat_add, hdown]
    omega

namespace Pattern

variable {s : List Char} {c lower upper : Char}

/-- A letter is taken in either case, and so is the long s. -/
theorem letter_iff (hlower : lower.isLower = true) (hupper : lower.toUpper = upper) :
    letter lower upper c = true ↔ smallLetter c = lower := by
  rw [letter, Bool.or_eq_true, Bool.or_eq_true, beq_iff_eq, beq_iff_eq, Bool.and_eq_true,
    beq_iff_eq, beq_iff_eq, ← hupper, ← toLower_eq_iff hlower, smallLetter]
  split
  · next h =>
    subst h
    have hlong : 'ſ'.toLower ≠ lower := by
      rintro rfl
      exact absurd hlower (by decide)
    rw [or_iff_right hlong, and_iff_left rfl, eq_comm]
  · next h => rw [or_iff_left fun hs => h hs.2]

theorem isAuthorityStart_iff : isAuthorityStart c = true ↔
    isBlank c = false ∧ c ∉ ['/', '$', '.', '?', '#'] := by
  rw [isAuthorityStart, Bool.and_eq_true, Bool.not_eq_true', Bool.not_eq_true', ← Bool.not_eq_true,
    ← Bool.not_eq_true, List.contains_iff_mem]

/-! ## What the pattern takes -/

/-- The pieces for the scheme. -/
def scheme : List Piece :=
  [.one (letter 'h' 'H'), .one (letter 't' 'T'), .one (letter 't' 'T'), .one (letter 'p' 'P'),
    .maybe (letter 's' 'S')]

/-- The pieces for what stands behind the slashes. -/
def behindSlashes : List Piece :=
  [.one isAuthorityStart, .one (· != '\n'), .many fun c => !isBlank c]

/-- The scheme is one of two words in any case. -/
theorem takes_scheme_iff :
    Takes scheme s ↔ s.map smallLetter ∈ ["http".toList, "https".toList] := by
  have hh {c : Char} : letter 'h' 'H' c = true ↔ smallLetter c = 'h' := letter_iff rfl rfl
  have ht {c : Char} : letter 't' 'T' c = true ↔ smallLetter c = 't' := letter_iff rfl rfl
  have hp {c : Char} : letter 'p' 'P' c = true ↔ smallLetter c = 'p' := letter_iff rfl rfl
  have hs {c : Char} : letter 's' 'S' c = true ↔ smallLetter c = 's' := letter_iff rfl rfl
  have hhttp : "http".toList = ['h', 't', 't', 'p'] := rfl
  have hhttps : "https".toList = ['h', 't', 't', 'p', 's'] := rfl
  rw [hhttp, hhttps]
  simp only [scheme, takes_one_iff, takes_maybe_iff, takes_nil_iff, hh, ht, hp, hs, List.mem_cons,
    List.not_mem_nil, or_false, List.map_eq_cons_iff, List.map_eq_nil_iff]
  -- both sides ask for the letters one by one, but the two schemes have the first four in common
  simp only [← exists_or, ← and_or_left]

/-- Behind the slashes there are at least two characters, of which the second may be a space. -/
theorem takes_behindSlashes_iff :
    Takes behindSlashes s ↔ ∃ start next rest, s = start :: next :: rest ∧
    (isBlank start = false ∧ start ∉ ['/', '$', '.', '?', '#']) ∧ next ≠ '\n' ∧
      ∀ c ∈ rest, isBlank c = false := by
  simp only [behindSlashes, takes_one_iff, takes_many_iff, isAuthorityStart_iff, Bool.not_eq_true',
    bne_iff_ne]
  constructor
  · rintro ⟨start, t, rfl, hstart, next, rest, rfl, hnext, hrest⟩
    exact ⟨start, next, rest, rfl, hstart, hnext, hrest⟩
  · rintro ⟨start, next, rest, rfl, hstart, hnext, hrest⟩
    exact ⟨start, next :: rest, rfl, hstart, next, rest, rfl, hnext, hrest⟩

/-- The texts that the pattern takes are the addresses. -/
theorem takes_url_iff {s : String} : Takes url s.toList ↔ IsUrl s := by
  have hurl : url = scheme ++ lit ':' :: lit '/' :: lit '/' :: behindSlashes := rfl
  have hslashes : "://".toList = [':', '/', '/'] := rfl
  rw [hurl, takes_append_iff, IsUrl, hslashes]
  simp only [takes_lit_iff, takes_scheme_iff, takes_behindSlashes_iff]
  constructor
  · rintro ⟨front, _, hs, hfront, _, rfl, _, rfl, _, rfl, start, next, rest, rfl, hrest⟩
    exact ⟨front, start, next, rest, by simpa using hs, hfront, hrest⟩
  · rintro ⟨front, start, next, rest, hs, hfront, hrest⟩
    exact ⟨front, _, by simpa using hs, hfront, _, rfl, _, rfl, _, rfl, start, next, rest, rfl,
      hrest⟩

/-- **The texts that fit the pattern.** -/
theorem fits_url_iff {s : String} :
    fits url s.toList = true ↔ IsUrl s ∨ ∃ t : String, s = t ++ "\n" ∧ IsUrl t := by
  simp only [fits_toList_iff, takes_url_iff]

end Pattern

/-- A URL without white space and without a long s is a web address. -/
theorem IsUrl.isWebAddress {s : String} (h : IsUrl s)
    (hplain : ∀ c ∈ s.toList, isBlank c = false ∧ c ≠ 'ſ') : IsWebAddress s := by
  obtain ⟨scheme, start, next, rest, hs, hscheme, -⟩ := h
  have hletters : scheme.map smallLetter = scheme.map Char.toLower := by
    refine List.map_congr_left fun c hc => if_neg (hplain c ?_).2
    rw [hs]
    exact List.mem_append_left _ (List.mem_append_left _ hc)
  rw [hletters] at hscheme
  exact ⟨⟨scheme, start :: next :: rest, hs, hscheme, List.cons_ne_nil _ _⟩,
    fun c hc => (hplain c hc).1⟩

namespace Catalog

/-- **The texts that pass for URLs.** A text that is not blank passes just if it is a URL as the
pattern has it, or is so without one line feed at its end. If it holds no white space and no long s,
it is then a web address. -/
theorem passes_url_iff {s : String} (hs : isBlankText s.toList = false) (context : Option Context) :
    ∃ passes, callBuiltin "url" (.text s) [] context = pure passes ∧
      (passes = true ↔ IsUrl s ∨ ∃ t : String, s = t ++ "\n" ∧ IsUrl t) ∧
      (passes = true → (∀ c ∈ s.toList, isBlank c = false ∧ c ≠ 'ſ') → IsWebAddress s) := by
  refine ⟨Pattern.fits Pattern.url s.toList, ?_, Pattern.fits_url_iff, fun hfits hplain => ?_⟩
  · exact (callBuiltin_plain rfl _ _ context).trans (Predicate.ofPattern_text hs Pattern.url)
  · rcases Pattern.fits_url_iff.mp hfits with h | ⟨t, rfl, -⟩
    · exact h.isWebAddress hplain
    · have hfeed := (hplain '\n' (by simp)).1
      exact absurd hfeed (by decide)

end Catalog

namespace SpacedAddress

open Catalog

/-- An address with a path passes, and one with a space further behind does not. -/
theorem path_passes :
    (∃ passes, callBuiltin "url" (.text "HTTPS://a.b/c") [] none = pure passes ∧ passes = true ∧
      IsWebAddress "HTTPS://a.b/c") ∧
    ∃ passes, callBuiltin "url" (.text "http://ab c") [] none = pure passes ∧ passes = false := by
  constructor
  · obtain ⟨passes, hcall, hpasses, haddress⟩ :=
      passes_url_iff (s := "HTTPS://a.b/c") (by decide +kernel) none
    have hall : "HTTPS://a.b/c".toList.all (fun c => !isBlank c && c != 'ſ') =
        true := by decide +kernel
    have hplain : ∀ c ∈ "HTTPS://a.b/c".toList, isBlank c = false ∧ c ≠ 'ſ' :=
      fun c hc => by simpa using List.all_eq_true.mp hall c hc
    have hurl : IsUrl "HTTPS://a.b/c" :=
      ⟨"HTTPS".toList, 'a', '.', "b/c".toList, by decide +kernel, by decide +kernel,
        by decide +kernel, by decide, fun c hc =>
        (hplain c (List.mem_append_right "HTTPS://a.".toList hc)).1⟩
    have htrue := hpasses.mpr (.inl hurl)
    exact ⟨passes, hcall, htrue, haddress htrue hplain⟩
  · obtain ⟨passes, hcall, -⟩ := passes_url_iff (s := "http://ab c") (by decide +kernel) none
    refine ⟨passes, hcall, ?_⟩
    have hfails : callBuiltin "url" (.text "http://ab c") [] none = pure false := rfl
    rw [hcall] at hfails
    cases hfails
    rfl

/-- **White space passes** as the second character of an authority; and so do a line feed at the end
and a scheme that ends in a long s. -/
theorem white_space_passes :
    (¬∀ s : String, isBlankText s.toList = false → ∀ context : Option Context,
      callBuiltin "url" (.text s) [] context = pure true → IsWebAddress s) ∧
    callBuiltin "url" (.text "http://ab\n") [] none = pure true ∧
    callBuiltin "url" (.text "httpſ://ab") [] none = pure true := by
  refine ⟨fun h => ?_, rfl, rfl⟩
  obtain ⟨-, hblank⟩ := h "http://a b" (by decide +kernel) none rfl
  exact absurd (hblank ' ' (by decide +kernel)) (by decide)

end SpacedAddress

end FormRules
