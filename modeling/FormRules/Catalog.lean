import FormRules.Check

/-!
# Catalogs

A catalog names predicates. Registering a name again replaces its definition; a catalog is a plain
value, so changing a copy leaves the other one alone.
-/

namespace FormRules

/-- A named predicate. -/
structure Definition where
  /-- the name used in rules -/
  name : String
  /-- the predicate -/
  body : Predicate
  /-- the predicate is called with the context of the run -/
  takesContext : Bool := false
  /-- a line for readers -/
  description : String := ""

/-- The definition called: the truth value of what its predicate returns. -/
def Definition.call (d : Definition) (value : Value) (parameters : List Value)
    (context : Option Context) : Check Bool := do
  return (← d.body value parameters (if d.takesContext then context else none)).truth

/-- The description of a definition: what is given, or else the first line of the documentation. -/
def Definition.describe (given documentation : String) : String :=
  if given.isEmpty then String.ofList (Text.firstLine (Text.trim documentation.toList)) else given

/-- Definitions by name. -/
abbrev Catalog : Type := Table String Definition

namespace Catalog

/-- The catalog with a definition under its own name. -/
def register (c : Catalog) (d : Definition) : Catalog := c.set d.name d

/-- The definition of a name, if there is one. -/
def resolve (c : Catalog) (name : String) : Option Definition := c.get? name

/-- The definition of a name. -/
def lookUp (c : Catalog) (name : String) : Attempt Definition :=
  match c.resolve name with
  | some d => .ok d
  | none => .error (.unknownValidation name)

/-- The name has a definition. -/
def isRegistered (c : Catalog) (name : String) : Bool := c.has name

/-- The names in the order of their code points. -/
def names (c : Catalog) : List String := c.keys.mergeSort fun a b => decide (a ≤ b)

/-- The catalog of a list of definitions. -/
def ofList (ds : List Definition) : Catalog := ds.foldl register ∅

theorem resolve_register_self (c : Catalog) (d : Definition) :
    (c.register d).resolve d.name = some d :=
  Table.get?_set_self c d.name d

theorem resolve_register_of_ne (c : Catalog) (d : Definition) {name : String} (h : d.name ≠ name) :
    (c.register d).resolve name = c.resolve name :=
  Table.get?_set_of_ne c (by simpa using h) d

theorem lookUp_eq_ok_iff (c : Catalog) (name : String) (d : Definition) :
    c.lookUp name = .ok d ↔ c.resolve name = some d := by
  unfold lookUp
  cases c.resolve name <;> simp

end Catalog

end FormRules
