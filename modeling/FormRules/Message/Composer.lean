import FormRules.Journal
import FormRules.Message.Standard
import FormRules.Message.Template

/-!
# Composers

A composer holds the templates in force: general ones, by the name of a predicate, and others that
hold for one form only and go before them. Overrides are applied entry by entry, each replacing what
was there before.
-/

namespace FormRules

/-- The templates of one scope. -/
abbrev Templates : Type := Table Value String

/-- The general templates, and those of single forms. -/
structure Composer where
  general : Templates
  ofForm : Table Value Templates

namespace Composer

/-- The composer with the standard templates. -/
def standard : Composer :=
  ⟨⟨Template.standard.map fun e => (.text e.1, e.2)⟩, ∅⟩

instance : Inhabited Composer := ⟨standard⟩

/-- Templates given by a mapping. -/
def readTemplates : List (Value × Value) → Attempt (List (Value × String))
  | [] => .ok []
  | (name, template) :: es => do
    let s ← template.toText
    return (name, s) :: (← readTemplates es)

/-- One override: a mapping is for the form that its key names, all else is a general template. The
composer is returned in any case; a form whose templates cannot be read is known from then on,
without templates. -/
def override (c : Composer) (key : Value) : Value → Composer × Attempt Unit
  | .map es =>
    let old := (c.ofForm.get? key).getD ∅
    match readTemplates es with
    | .ok templates => ({ c with ofForm := c.ofForm.set key (old.setAll templates) }, .ok ())
    | .error fault => ({ c with ofForm := c.ofForm.set key old }, .error fault)
  | v =>
    match v.toText with
    | .ok template => ({ c with general := c.general.set key template }, .ok ())
    | .error fault => (c, .error fault)

/-- The overrides of a list in order, up to the first that fails. -/
def overrideAll (c : Composer) : List (Value × Value) → Composer × Attempt Unit
  | [] => (c, .ok ())
  | (key, v) :: es =>
    match c.override key v with
    | (c, .ok ()) => overrideAll c es
    | (c, .error fault) => (c, .error fault)

/-- The overrides of a mapping; nothing else has entries to apply. -/
def add (c : Composer) : Value → Composer × Attempt Unit
  | .map es => c.overrideAll es
  | _ => (c, .error .notAMapping)

/-- The overrides of a value that is left alone when it is false. -/
def addGiven (c : Composer) (messages : Value) : Composer × Attempt Unit :=
  if messages.truth then c.add messages else (c, .ok ())

/-- A new composer with overrides. -/
def new (messages : Value) : Attempt Composer :=
  match standard.addGiven messages with
  | (c, .ok ()) => .ok c
  | (_, .error fault) => .error fault

/-- The templates of a form; no form has none. -/
def templatesOf (c : Composer) : Value → Attempt Templates
  | .null => .ok ∅
  | form => do return (c.ofForm.get? (← form.asKey)).getD ∅

/-- The template in force for a predicate on a form: that of the form, or else the general one. -/
def templateFor (c : Composer) (method : String) (form : Value) : Attempt (Option String) := do
  match (← c.templatesOf form).get? (.text method) with
  | some template => return some template
  | none => return c.general.get? (.text method)

/-- The message of a failed rule, and what is to be recorded along with it. -/
def compose (c : Composer) (method : String) (parameters : List Value) (form field : Value) :
    List Record × Attempt String :=
  match c.templateFor method form with
  | .ok (some template) => ([], Template.compose template parameters field)
  | .ok none =>
    ([.noTemplate method], Template.compose (Template.fallback method) parameters field)
  | .error fault => ([], .error fault)

end Composer

end FormRules
