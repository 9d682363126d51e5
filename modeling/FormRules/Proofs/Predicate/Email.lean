import FormRules.Predicate.Formats
import FormRules.Proofs.Predicate.Characters

/-!
# E-mail addresses

The pattern of an e-mail address leaves open which of the dots behind the at sign is its own: the
characters of a host name may be dots too. No character that is asked for behind that dot is a dot,
so it can only be the last one. In the same way there can be only one at sign. So the texts that the
pattern takes are those which are cut there in one way (`Pattern.takes_email_iff_isAddress`), and a
final line feed is passed over as in every pattern (`Pattern.fits_email_iff`).
-/

namespace FormRules

open Predicate

/-! ## Addresses -/

/-- The part of an e-mail address behind the at sign: in front of its last dot at least one letter,
digit, dot or dash, and behind it at least two letters. -/
def IsHostName (s : List Char) : Prop :=
  ∃ name ending, s = name ++ '.' :: ending ∧ '.' ∉ ending ∧
    (name ≠ [] ∧ ∀ c ∈ name, c.isAlphanum = true ∨ c = '.' ∨ c = '-') ∧
      2 ≤ ending.length ∧ ∀ c ∈ ending, c.isAlpha = true

/-- An e-mail address: it has just one at sign, and in front of it at least one letter, digit or one
of five marks. -/
def IsAddress (s : String) : Prop :=
  s.toList.count '@' = 1 ∧ ∃ user host, s.toList = user ++ '@' :: host ∧
    (user ≠ [] ∧ ∀ c ∈ user, c.isAlphanum = true ∨ c ∈ ['.', '_', '%', '+', '-']) ∧ IsHostName host

namespace Pattern

variable {ps : List Piece} {s : List Char} {c d : Char}

theorem isLocal_iff : isLocal c = true ↔ c.isAlphanum = true ∨ c ∈ ['.', '_', '%', '+', '-'] := by
  rw [isLocal, Bool.or_eq_true, isAlphanumeric_eq_isAlphanum, List.contains_iff_mem]

theorem isHost_iff : isHost c = true ↔ c.isAlphanum = true ∨ c = '.' ∨ c = '-' := by
  rw [isHost, Bool.or_eq_true, Bool.or_eq_true, isAlphanumeric_eq_isAlphanum, beq_iff_eq,
    beq_iff_eq, or_assoc]

/-! ## What the pattern takes -/

theorem takes_lit_iff : Takes (lit d :: ps) s ↔ ∃ t, s = d :: t ∧ Takes ps t := by
  rw [lit, takes_one_iff]
  constructor
  · rintro ⟨c, t, rfl, hc, ht⟩
    obtain rfl := beq_iff_eq.mp hc
    exact ⟨t, rfl, ht⟩
  · rintro ⟨t, rfl, ht⟩
    exact ⟨d, t, rfl, beq_self_eq_true d, ht⟩

/-- At least two characters of a class. -/
theorem takes_two_iff {accepts : Char → Bool} :
    Takes [.one accepts, .one accepts, .many accepts] s ↔
    2 ≤ s.length ∧ ∀ c ∈ s, accepts c = true := by
  rw [takes_one_iff]
  constructor
  · rintro ⟨c, t, rfl, hc, ht⟩
    obtain ⟨hne, hall⟩ := takes_atLeastOne_iff.mp ht
    have hpos : 0 < t.length := List.length_pos_iff.mpr hne
    refine ⟨?_, List.forall_mem_cons.mpr ⟨hc, hall⟩⟩
    rw [List.length_cons]
    omega
  · rintro ⟨hlength, hall⟩
    match s, hlength with
    | c :: d :: t, _ =>
      obtain ⟨hc, ht⟩ := List.forall_mem_cons.mp hall
      exact ⟨c, d :: t, rfl, hc, takes_atLeastOne_iff.mpr ⟨List.cons_ne_nil d t, ht⟩⟩

/-- The three parts of an e-mail address, wherever the text is cut. -/
theorem takes_email_iff :
    Takes email s ↔ ∃ user name ending, s = user ++ '@' :: (name ++ '.' :: ending) ∧
    (user ≠ [] ∧ ∀ c ∈ user, isLocal c = true) ∧ (name ≠ [] ∧ ∀ c ∈ name, isHost c = true) ∧
      2 ≤ ending.length ∧ ∀ c ∈ ending, isLetter c = true := by
  constructor
  · intro h
    obtain ⟨front, back, rfl, hfront, hback⟩ := takes_append_iff.mp h
    obtain ⟨user, rest, rfl, huser, hrest⟩ := takes_append_iff.mp hfront
    obtain ⟨name, rfl, hname⟩ := takes_lit_iff.mp hrest
    obtain ⟨ending, rfl, hending⟩ := takes_lit_iff.mp hback
    exact ⟨user, name, ending, by simp, takes_atLeastOne_iff.mp huser,
      takes_atLeastOne_iff.mp hname, takes_two_iff.mp hending⟩
  · rintro ⟨user, name, ending, rfl, huser, hname, hending⟩
    refine takes_append_iff.mpr ⟨user ++ '@' :: name, '.' :: ending, by simp, ?_, ?_⟩
    · exact takes_append_iff.mpr ⟨user, '@' :: name, rfl, takes_atLeastOne_iff.mpr huser,
        takes_lit_iff.mpr ⟨name, rfl, takes_atLeastOne_iff.mpr hname⟩⟩
    · exact takes_lit_iff.mpr ⟨ending, rfl, takes_two_iff.mpr hending⟩

/-- A character that is not of a class is in no text of the class. -/
theorem not_mem_of_class {accepts : Char → Bool} (h : ∀ c ∈ s, accepts c = true)
    (hd : accepts d = false) : d ∉ s := by
  intro hmem
  rw [h d hmem] at hd
  cases hd

/-- The pattern takes the addresses: it can be cut only at the one at sign and at the last dot. -/
theorem takes_email_iff_isAddress {s : String} : Takes email s.toList ↔ IsAddress s := by
  rw [takes_email_iff]
  constructor
  · rintro ⟨user, name, ending, hs, ⟨huser, husers⟩, ⟨hname, hnames⟩, hlength, hletters⟩
    have hat_user : '@' ∉ user := not_mem_of_class husers (by decide)
    have hat_name : '@' ∉ name := not_mem_of_class hnames (by decide)
    have hat_ending : '@' ∉ ending := not_mem_of_class hletters (by decide)
    have hdot : '.' ∉ ending := not_mem_of_class hletters (by decide)
    refine ⟨?_, user, name ++ '.' :: ending, hs, ⟨huser, fun c hc => isLocal_iff.mp (husers c hc)⟩,
      name, ending, rfl, hdot, ⟨hname, fun c hc => isHost_iff.mp (hnames c hc)⟩, hlength,
        fun c hc => ?_⟩
    · rw [hs]
      simp [List.count_eq_zero_of_not_mem, hat_user, hat_name, hat_ending]
    · rw [← isLetter_eq_isAlpha]
      exact hletters c hc
  · rintro ⟨-, user, host, hs, ⟨huser, husers⟩, name, ending, rfl, -, ⟨hname, hnames⟩, hlength,
      hletters⟩
    refine ⟨user, name, ending, hs, ⟨huser, fun c hc => isLocal_iff.mpr (husers c hc)⟩,
      ⟨hname, fun c hc => isHost_iff.mpr (hnames c hc)⟩, hlength, fun c hc => ?_⟩
    rw [isLetter_eq_isAlpha]
    exact hletters c hc

/-- **The texts that fit the pattern** are the e-mail addresses, and the addresses with a line feed
behind them. -/
theorem fits_email_iff (s : String) :
    fits email s.toList = true ↔ IsAddress s ∨ ∃ t : String, s = t ++ "\n" ∧ IsAddress t := by
  simp only [fits_toList_iff, takes_email_iff_isAddress]

end Pattern

end FormRules
