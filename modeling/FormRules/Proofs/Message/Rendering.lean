import FormRules.Proofs.Message.Legible
import FormRules.Proofs.Message.Reading

/-!
# Rendering a template

`Rendered` says what message a template has, apart from the way in which it is composed: the
template is read into pieces, in the one way that `Reads` allows, and every piece is put as its
text. The texts of the positions come from the arguments, where a list that stands alone is spread
if the template uses a position after the first one. The texts are put in after the reading, so that
braces in them stay.

The arguments of a message are the values that a rule text can have: truth values, texts and lists
of these. `Composer.compose_renders` has the composer give the rendering, for every template without
a number of too many digits.
-/

namespace FormRules

open Text

/-- A parameter that is made of truth values, texts and lists. -/
inductive Argument where
  | bool (b : Bool)
  | text (s : String)
  | list (items : List Argument)

namespace Argument

mutual

/-- The argument as a value. -/
def toValue : Argument → Value
  | bool b => .bool b
  | text s => .text s
  | list xs => .list (toValues xs)

/-- The arguments as values. -/
def toValues : List Argument → List Value
  | [] => []
  | x :: xs => x.toValue :: toValues xs

end

mutual

/-- The text of an argument in a message. -/
def inMessage : Argument → String
  | bool true => "true"
  | bool false => "false"
  | text s => s
  | list xs => ", ".intercalate (allInMessage xs)

/-- The texts of arguments in a message. -/
def allInMessage : List Argument → List String
  | [] => []
  | x :: xs => x.inMessage :: allInMessage xs

end

mutual

theorem inMessage_toValue (x : Argument) : x.toValue.inMessage = .ok x.inMessage := by
  match x with
  | bool true => rfl
  | bool false => rfl
  | text s => rfl
  | list xs =>
    rw [toValue, Value.inMessage, allInMessage_toValues xs]
    rfl

/-- Arguments can be put in a message as they are. -/
theorem allInMessage_toValues (xs : List Argument) :
    Value.allInMessage (toValues xs) = .ok (allInMessage xs) := by
  match xs with
  | [] => rfl
  | x :: xs =>
    rw [toValues, Value.allInMessage, inMessage_toValue x, allInMessage_toValues xs]
    rfl

end

end Argument

namespace Template

/-- The template uses a position after the first one. -/
def UsesLater (template : List Char) : Prop :=
  ∃ w digits, Placeholder w (.position digits) ∧ w <:+: template ∧ 1 ≤ valueOf 10 digits

/-- The texts of the positions in a template: those of the items of a list that is the only
argument, if the template uses a position after the first one, and else one for each argument. -/
inductive Positional (template : List Char) : List Argument → List String → Prop where
  | spread {xs : List Argument} (h : UsesLater template) :
      Positional template [.list xs] (Argument.allInMessage xs)
  | each {xs : List Argument} (h : UsesLater template → ∀ ys, xs ≠ [.list ys]) :
      Positional template xs (Argument.allInMessage xs)

/-- The message of a template with the texts of its positions and the name of the field in place. A
position that the arguments do not reach and a missing name have the empty text. -/
def Rendered (template : List Char) (arguments : List Argument) (field : Option String)
    (message : String) : Prop :=
  ∃ pieces positions, Reads template pieces ∧ Positional template arguments positions ∧
    message = String.join (pieces.map (Segment.text positions (field.getD "")))

/-- A template places its arguments in one way only. -/
theorem Positional.unique {template : List Char} {arguments : List Argument}
    {ts ts' : List String} (h : Positional template arguments ts)
    (h' : Positional template arguments ts') : ts = ts' := by
  cases h with
  | spread hlater =>
    cases h' with
    | spread => rfl
    | each heach => exact absurd rfl (heach hlater _)
  | each heach =>
    cases h' with
    | spread hlater => exact absurd rfl (heach hlater _)
    | each => rfl

/-- A template has one rendering at most. -/
theorem Rendered.unique {template : String} {arguments : List Argument} {field : Option String}
    {m m' : String} (h : Rendered template.toList arguments field m)
    (h' : Rendered template.toList arguments field m') : m = m' := by
  obtain ⟨ps, ts, hps, hts, rfl⟩ := h
  obtain ⟨ps', ts', hps', hts', rfl⟩ := h'
  obtain rfl : ps = ps' := (reads_iff.mp hps).symm.trans (reads_iff.mp hps')
  rw [hts.unique hts']

/-! ## The positions of a template -/

/-- A template is legible if no number in braces has too many digits. -/
theorem legible_iff {template : String} : Legible template ↔
    ∀ w digits, Placeholder w (.position digits) → w <:+: template.toList →
      digits.length ≤ maxDigits := by
  have hreads : Reads template.toList (segments template) := reads_iff.mpr rfl
  constructor
  · intro h w digits hw hinside
    exact h _ (hreads.mem_of_occurs hw hinside)
  · intro h s hs
    cases s with
    | position digits =>
      rcases hreads.occurs_of_mem hs with ⟨w, hw, hinside⟩ | ⟨c, hc⟩
      · exact h w digits hw hinside
      · cases hc
    | char c => trivial
    | field => trivial

/-- A template uses later positions if one of its placeholders has a later number. -/
theorem usesLater_iff {template : List Char} {ps : List Segment} (h : Reads template ps) :
    (ps.filterMap Segment.number?).any (1 ≤ ·) = true ↔ UsesLater template := by
  rw [List.any_eq_true]
  constructor
  · rintro ⟨n, hn, hlater⟩
    obtain ⟨p, hp, hnumber⟩ := List.mem_filterMap.mp hn
    cases p with
    | position digits =>
      obtain rfl := Option.some.inj hnumber
      rcases h.occurs_of_mem hp with ⟨w, hw, hinside⟩ | ⟨c, hc⟩
      · exact ⟨w, digits, hw, hinside, of_decide_eq_true hlater⟩
      · cases hc
    | char c => cases hnumber
    | field => cases hnumber
  · rintro ⟨w, digits, hw, hinside, hlater⟩
    have hmem := h.mem_of_occurs hw hinside
    exact ⟨_, List.mem_filterMap.mpr ⟨_, hmem, rfl⟩, decide_eq_true hlater⟩

/-- A single list is spread over the positions, if later ones are used. -/
theorem positions_spread {ss : List Segment} {used : List Nat} (hused : indexes ss = .ok used)
    (hlater : used.any (1 ≤ ·) = true) (xs : List Value) :
    positions ss [.list xs] = Value.allInMessage xs := by
  rw [positions, hused]
  exact if_pos hlater

/-- All other parameters stand each at its own position. -/
theorem positions_each {ss : List Segment} {used : List Nat} (hused : indexes ss = .ok used)
    {parameters : List Value} (h : used.any (1 ≤ ·) = true → ∀ xs, parameters ≠ [.list xs]) :
    positions ss parameters = Value.allInMessage parameters := by
  unfold positions
  rw [hused]
  split
  · next xs => exact if_neg fun hlater => h hlater xs rfl
  · rfl

/-- The texts of the positions that a legible template has. -/
theorem exists_positional {template : String} (h : Legible template) (arguments : List Argument) :
    ∃ ts, positions (segments template) (Argument.toValues arguments) = .ok ts ∧
      Positional template.toList arguments ts := by
  have hlater := usesLater_iff (reads_iff.mpr rfl : Reads template.toList (segments template))
  have hused := indexes_eq_ok h
  by_cases hspread : UsesLater template.toList ∧ ∃ xs, arguments = [.list xs]
  · obtain ⟨huses, xs, rfl⟩ := hspread
    refine ⟨_, ?_, .spread huses⟩
    rw [← Argument.allInMessage_toValues]
    exact positions_spread hused (hlater.mpr huses) _
  · refine ⟨_, ?_, .each fun huses ys harguments => hspread ⟨huses, ys, harguments⟩⟩
    rw [← Argument.allInMessage_toValues]
    refine positions_each hused fun hany xs hparameters => hspread ⟨hlater.mp hany, ?_⟩
    match arguments with
    | [.list ys] => exact ⟨ys, rfl⟩

theorem asFieldName_elim (field : Option String) :
    (field.elim Value.null Value.text).asFieldName = .ok (field.getD "") := by
  cases field with
  | none => rfl
  | some name =>
    unfold Value.asFieldName
    by_cases h : name = "" <;> simp [Value.truth, h]

/-- A legible template gives its one rendering. -/
theorem compose_rendered {template : String} (h : Legible template) (arguments : List Argument)
    (field : Option String) : ∃ message,
      compose template (Argument.toValues arguments) (field.elim .null .text) = .ok message ∧
        ∀ m, Rendered template.toList arguments field m ↔ m = message := by
  obtain ⟨ts, hts, hpositional⟩ := exists_positional h arguments
  have hrendered : Rendered template.toList arguments field
      (String.join ((segments template).map (Segment.text ts (field.getD "")))) :=
    ⟨_, ts, reads_iff.mpr rfl, hpositional, rfl⟩
  refine ⟨_, compose_eq_join h hts (asFieldName_elim field),
    fun m => ⟨fun hm => hm.unique hrendered, ?_⟩⟩
  rintro rfl
  exact hrendered

end Template

/-- **A message is the rendering of the template in force**, of which there is just one. -/
theorem Composer.compose_renders {c : Composer} {method template : String} {form : Value}
    (htemplate : c.templateFor method form = .ok (some template))
    (hdigits : ∀ w digits, Placeholder w (.position digits) → w <:+: template.toList →
      digits.length ≤ maxDigits)
    (arguments : List Argument) (field : Option String) : ∃ message,
      c.compose method (Argument.toValues arguments) form (field.elim .null .text) =
        ([], .ok message) ∧
        ∀ m, Template.Rendered template.toList arguments field m ↔ m = message := by
  obtain ⟨message, hmessage, hrendered⟩ :=
    Template.compose_rendered (Template.legible_iff.mpr hdigits) arguments field
  refine ⟨message, ?_, hrendered⟩
  unfold Composer.compose
  rw [htemplate]
  exact congrArg (Prod.mk []) hmessage

namespace BracedTexts

/-- Placeholders among other braces; the digit after the name of the field is an Arabic one. -/
def template : String :=
  "\x7b\x7b1\x7d\x7d of \x7bfield\x7d: \x7b\u0660\x7d, \x7b02\x7d, \x7b9\x7d\x7bx\x7d"

/-- Texts that look like placeholders themselves, in a list that is the only argument. -/
def arguments : List Argument :=
  [.list [.text "\x7b1\x7d", .list [.bool true, .text "\x7b"], .text "c"]]

/-- What is put in is not read again, and other braces stay. -/
theorem braces_stay : ∃ c : Composer, c.templateFor "odd" .null = .ok (some template) ∧
    (∀ w digits, Placeholder w (.position digits) → w <:+: template.toList →
      digits.length ≤ maxDigits) ∧
    Template.Rendered template.toList arguments (some "\x7b0\x7d")
      "\x7btrue, \x7b\x7d of \x7b0\x7d: \x7b1\x7d, c, \x7bx\x7d" := by
  let c := (Composer.standard.add (.map [(.text "odd", .text template)])).1
  have htemplate : c.templateFor "odd" .null = .ok (some template) := rfl
  have hdigits := Template.legible_iff.mp
    (Template.legible_of_size_le (show template.utf8ByteSize ≤ maxDigits by decide +kernel))
  obtain ⟨message, hmessage, hrendered⟩ :=
    Composer.compose_renders htemplate hdigits arguments (some "\x7b0\x7d")
  refine ⟨c, htemplate, hdigits, (hrendered _).mpr ?_⟩
  have hcompose : (c.compose "odd" (Argument.toValues arguments) .null (.text "\x7b0\x7d")).2 =
    .ok "\x7btrue, \x7b\x7d of \x7b0\x7d: \x7b1\x7d, c, \x7bx\x7d" := by decide +kernel
  exact Except.ok.inj (hcompose.symm.trans (congrArg Prod.snd hmessage))

end BracedTexts

end FormRules
