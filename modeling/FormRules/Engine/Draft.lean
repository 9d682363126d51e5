import FormRules.Predicate.Builtin
import FormRules.RuleFile.Load

/-!
# Setting up engines

An engine works with an accessor, a catalog and a composer. Each of them is either taken from the
world, and then shared with whoever else holds it, or made for the engine. A `Draft` is an engine
that is not part of the world yet: what was made for it appears only when it is placed, so a set-up
that fails leaves nothing behind except the overrides that a shared composer took before the
failure.
-/

namespace FormRules

/-- Where a new engine gets its field values. -/
inductive ValueSource where
  /-- from the accessor with a name -/
  | named (name : String)
  /-- from a value -/
  | given (values : Value)

/-- What a new engine is set up with. What is not named is made for it. -/
structure Setup where
  config : Config := {}
  values : ValueSource := .given .null
  catalog : Option String := none
  composer : Option String := none

/-- An object in use: one of the world, or one that is not part of it yet. -/
inductive Slot (α : Type) where
  | shared (r : Ref)
  | fresh (a : α)

/-- An engine that is not part of the world yet. -/
structure Draft where
  config : Config
  rules : RuleSet
  accessor : Slot Accessor
  catalog : Slot Catalog
  composer : Slot Composer

/-- The names of a set-up looked up. -/
structure Parts where
  config : Config
  values : Ref ⊕ Value
  catalog : Slot Catalog
  composer : Slot Composer

namespace Setup

/-- The object that a name stands for, or a new one where there is no name. -/
def part {α : Type} (shelf : Shelf α) (new : α) : Option String → Attempt (Slot α)
  | some name => do return .shared (← shelf.find name)
  | none => .ok (.fresh new)

/-- Look up the names of a set-up. -/
def parts (s : Setup) : Run Parts := do
  let w ← Run.world
  let values ← match s.values with
    | .named name => do pure (Sum.inl (← w.accessors.find name))
    | .given v => pure (Sum.inr v)
  return ⟨s.config, values, ← part w.catalogs .builtins s.catalog,
    ← part w.composers .standard s.composer⟩

end Setup

namespace Parts

/-- The accessor of a new engine. -/
def accessor : Ref ⊕ Value → Attempt (Slot Accessor)
  | .inl r => .ok (.shared r)
  | .inr v => do return .fresh (← Accessor.ofValue v)

/-- The draft with the given declarations. -/
def draft (p : Parts) (rules : Value) : Attempt Draft := do
  let accessor ← accessor p.values
  let rules ← p.config.normalize rules
  return ⟨p.config, rules, accessor, p.catalog, p.composer⟩

end Parts

namespace Draft

/-- The draft after its composer took overrides; a false value has none. -/
def override (d : Draft) (messages : Value) : Run Draft := do
  match d.composer with
  | .fresh c =>
    let (c, done) := c.addGiven messages
    done
    return { d with composer := .fresh c }
  | .shared r =>
    let (c, done) := (← Run.composer r).addGiven messages
    Run.modify fun w => { w with composers := w.composers.put r c }
    done
    return d

/-- The reference of an object that is placed under a name, and the shelf with it. -/
def settle {α : Type} (shelf : Shelf α) (name : String) : Slot α → Ref × Shelf α
  | .shared r => (r, shelf.bind name r)
  | .fresh a => (shelf.fresh name, shelf.add name a)

/-- The name of the objects that an engine works with. -/
def partName (engine : String) : String := "@" ++ engine

/-- The world with the engine in it, and with the objects it works with under a name of their
own. -/
def placed (d : Draft) (name : String) (w : World) : World :=
  let (accessor, accessors) := settle w.accessors (partName name) d.accessor
  let (catalog, catalogs) := settle w.catalogs (partName name) d.catalog
  let (composer, composers) := settle w.composers (partName name) d.composer
  let e : Engine := ⟨d.config, d.rules, accessor, catalog, composer, none, none⟩
  { w with
    accessors := accessors
    catalogs := catalogs
    composers := composers
    engines := w.engines.set name e }

end Draft

namespace Run

/-- Make an engine from declarations and message overrides. -/
def newEngine (name : String) (s : Setup) (rules messages : Value) : Run Unit := do
  let draft ← (← s.parts).draft rules
  let draft ← draft.override messages
  modify (draft.placed name)

/-- Make an engine from a rule file. The overrides of the file come before the others. -/
def newEngineFromFile (tools : Tools) (name : String) (s : Setup) (file : RuleFile)
    (messages : Value) : Run Unit := do
  let parts ← s.parts
  let document ← file.load tools
  let draft ← parts.draft document.formsValue
  let draft ← draft.override document.messagesValue
  let draft ← draft.override messages
  modify (draft.placed name)

end Run

end FormRules
