import FormRules.Predicate.Builtin

/-!
# Families of built-in predicates

Many built-in predicates differ in a bound, a pattern or a comparison only. `Catalog.BuiltIn` lists
the built-in predicates by families, with the names that occur in each, so a fact about all of them
has one case for each family. What a predicate needs of its parameters is told by its name
(`Catalog.need`), and with it how many parameters it takes.
-/

namespace FormRules

/-- What a built-in predicate needs of its parameters. -/
inductive Need where
  /-- nothing; there are no parameters -/
  | nothing
  /-- a number -/
  | number
  /-- two numbers, as two parameters or in a list -/
  | range
  /-- a day -/
  | day
  /-- the name of another field -/
  | field
  /-- the name of another field and what is expected of it -/
  | condition
  /-- at least one option -/
  | options
deriving DecidableEq

namespace Need

/-- The greatest number of parameters, if there is one. -/
def arity? : Need → Option Nat
  | nothing => some 0
  | number | day | field => some 1
  | condition => some 2
  | range | options => none

/-- There are not too many parameters. -/
def Admits (n : Need) (parameters : List Value) : Prop := ∀ k ∈ n.arity?, parameters.length ≤ k

instance (n : Need) (parameters : List Value) : Decidable (n.Admits parameters) :=
  inferInstanceAs (Decidable (∀ k ∈ n.arity?, parameters.length ≤ k))

end Need

namespace Catalog

/-- What the built-in predicate with a name needs. -/
def need : String → Need
  | "min" | "max" | "digitsLength" | "minLength" | "maxLength" => .number
  | "between" | "digitsLengthBetween" | "betweenLength" => .range
  | "dateBefore" | "dateAfter" => .day
  | "same" | "different" => .field
  | "requiredIf" | "requiredIfNot" => .condition
  | "contains" | "notIn" => .options
  | _ => .nothing

/-- The families of the built-in predicates. -/
inductive BuiltIn : Definition → Prop
  | required (description : String) : BuiltIn (plain "required" Predicate.required description)
  | requiredWhen (name description : String) (h : name ∈ ["requiredIf", "requiredIfNot"]) :
      BuiltIn (crossField name (Predicate.requiredWhen name (name == "requiredIfNot")) description)
  | accepted (description : String) : BuiltIn (plain "accepted" Predicate.accepted description)
  | ofPattern (name : String) (pattern : List Piece) (description : String)
      (h : name ∈ ["alpha", "alphaDash", "alphaNum", "alphaDashNum", "email", "url"]) :
      BuiltIn (plain name (Predicate.ofPattern pattern) description)
  | ipvFour (description : String) : BuiltIn (plain "ipvFour" Predicate.ipvFour description)
  | number (description : String) : BuiltIn (plain "number" Predicate.number description)
  | comparedNumber (name : String) (holds : Double → Double → Bool) (description : String)
      (h : name ∈ ["min", "max"]) :
      BuiltIn (plain name (Predicate.comparedNumber name holds) description)
  | between (description : String) : BuiltIn (plain "between" Predicate.between description)
  | digitsLength (description : String) :
      BuiltIn (plain "digitsLength" Predicate.digitsLength description)
  | digitsLengthBetween (description : String) :
      BuiltIn (plain "digitsLengthBetween" Predicate.digitsLengthBetween description)
  | comparedLength (name : String) (holds : Double → Double → Bool) (description : String)
      (h : name ∈ ["minLength", "maxLength"]) :
      BuiltIn (plain name (Predicate.comparedLength name holds) description)
  | betweenLength (description : String) :
      BuiltIn (plain "betweenLength" Predicate.betweenLength description)
  | contains (description : String) : BuiltIn (plain "contains" Predicate.contains description)
  | notIn (description : String) : BuiltIn (plain "notIn" Predicate.notIn description)
  | comparedDay (name : String) (holds : Date → Date → Bool) (description : String)
      (h : name ∈ ["dateBefore", "dateAfter"]) :
      BuiltIn (plain name (Predicate.comparedDay name holds) description)
  | compareSibling (name description : String) (h : name ∈ ["same", "different"]) :
      BuiltIn (crossField name (Predicate.compareSibling name (name == "same")) description)

/-- What all names of a list need is what each of them needs. -/
theorem need_of_mem {names : List String} {n : Need} (h : ∀ name ∈ names, need name = n)
    {name : String} (hname : name ∈ names) : need name = n :=
  h name hname

/-- Every built-in predicate is of one of the families. -/
theorem builtIn_of_mem {d : Definition} (hd : d ∈ builtinDefinitions) : BuiltIn d := by
  unfold builtinDefinitions at hd
  simp only [List.mem_cons, List.not_mem_nil, or_false] at hd
  -- in the order of the list
  rcases hd with rfl | rfl | rfl | rfl | rfl | rfl | rfl | rfl | rfl | rfl | rfl | rfl | rfl | rfl |
    rfl | rfl | rfl | rfl | rfl | rfl | rfl | rfl | rfl | rfl | rfl | rfl
  · exact .required _
  · exact .requiredWhen "requiredIf" _ (by decide)
  · exact .requiredWhen "requiredIfNot" _ (by decide)
  · exact .accepted _
  · exact .ofPattern _ _ _ (by decide)
  · exact .ofPattern _ _ _ (by decide)
  · exact .ofPattern _ _ _ (by decide)
  · exact .ofPattern _ _ _ (by decide)
  · exact .number _
  · exact .comparedNumber _ _ _ (by decide)
  · exact .comparedNumber _ _ _ (by decide)
  · exact .between _
  · exact .digitsLength _
  · exact .digitsLengthBetween _
  · exact .comparedLength _ _ _ (by decide)
  · exact .comparedLength _ _ _ (by decide)
  · exact .betweenLength _
  · exact .contains _
  · exact .notIn _
  · exact .comparedDay _ _ _ (by decide)
  · exact .comparedDay _ _ _ (by decide)
  · exact .compareSibling "same" _ (by decide)
  · exact .compareSibling "different" _ (by decide)
  · exact .ofPattern _ _ _ (by decide)
  · exact .ofPattern _ _ _ (by decide)
  · exact .ipvFour _

/-- What the catalog of a list has under a name was in the list with that name. -/
theorem mem_of_resolve_ofList {ds : List Definition} {name : String} {d : Definition}
    (h : (ofList ds).resolve name = some d) : d ∈ ds ∧ d.name = name := by
  have hfold (ds : List Definition) (c : Catalog)
      (h : (ds.foldl register c).resolve name = some d) :
      (d ∈ ds ∧ d.name = name) ∨ c.resolve name = some d := by
    induction ds generalizing c with
    | nil => exact .inr h
    | cons d' ds ih =>
      rcases ih _ h with ⟨hmem, hname⟩ | hregister
      · exact .inl ⟨List.mem_cons_of_mem _ hmem, hname⟩
      · by_cases hname : d'.name = name
        · subst hname
          rw [resolve_register_self] at hregister
          obtain rfl := Option.some.inj hregister
          exact .inl ⟨List.mem_cons_self, rfl⟩
        · rw [resolve_register_of_ne _ _ hname] at hregister
          exact .inr hregister
  exact (hfold ds ∅ h).resolve_right fun h => nomatch h

end Catalog

end FormRules
