import FormRules.Proofs.Predicate.Aborts

/-!
# Tokens in a list and tokens by themselves

A range may be given as two parameters or as a list of two, and options in the same way. To the
predicates that take them (`Catalog.spreading`) a list of tokens and the tokens by themselves are
the same, also where there are too few tokens, too many, or none that can be used: the two calls are
one and the same check (`Catalog.call_list`).
-/

namespace FormRules

open Text

/-- The predicates that take a list of tokens for the tokens. -/
def Catalog.spreading : List String :=
  ["between", "betweenLength", "digitsLengthBetween", "contains", "notIn"]

namespace Predicate

section

variable {xs : List Value} (hxs : ∀ x ∈ xs, x.IsToken)

include hxs

/-- Tokens are not spread, for none of them is a list. -/
theorem spread_of_tokens : spread xs = xs := by
  unfold spread
  split
  · cases hxs _ List.mem_cons_self
  · rfl

/-- A list of ends is read as the ends themselves. -/
theorem bounds_list (validation : String) :
    bounds validation [.list xs] = bounds validation xs := by
  unfold bounds
  extract_lets given given'
  have hgiven : given' = given := spread_of_tokens hxs
  rw [hgiven]

/-- Tokens are options by their texts. -/
theorem options_of_tokens : options xs = plainTexts xs := by
  induction xs with
  | nil => rfl
  | cons x xs ih =>
    have hcons : options (x :: xs) = do return (← x.plainText) :: (← options xs) := by
      cases hxs x List.mem_cons_self <;> rfl
    rw [hcons, ih fun y hy => hxs y (List.mem_cons_of_mem x hy)]
    rfl

/-- So is a list of them. -/
theorem options_list : options [.list xs] = options xs := by
  rw [options_of_tokens hxs, options]
  rcases plainTexts xs with fault | texts
  · rfl
  · exact congrArg Except.ok (List.append_nil texts)

end

/-! ## Parameters that are no range -/

variable {answer : (q : Request) → Attempt q.Reply} {value : Value} {parameters : List Value}

/-- Several parameters are not spread. -/
theorem spread_of_lt_length (h : 1 < parameters.length) : spread parameters = parameters := by
  unfold spread
  split
  · simp at h
  · rfl

/-- More than two parameters are no range. -/
theorem unmet_range_of_length (h : 2 < parameters.length) : Need.range.Unmet parameters := by
  have hspread : spread parameters = parameters := spread_of_lt_length (by omega)
  refine .inl ?_
  rw [hspread]
  omega

/-- A list is no end of a range. -/
theorem unmet_range_of_list (hlength : 1 < parameters.length) {xs : List Value}
    (hxs : .list xs ∈ parameters) : Need.range.Unmet parameters := by
  refine .inr ⟨.list xs, ?_, rfl⟩
  rwa [spread_of_lt_length hlength]

/-- Without a range no value passes but an empty one. -/
theorem between_fst_of_unmet (hparameters : ∀ p ∈ parameters, p.IsParameter)
    (hunmet : Need.range.Unmet parameters) : ((between value parameters).outcome answer).1 =
      if value.isEmpty then .ok true else value.toNumber.map fun _ => false := by
  cases hvalue : value.isEmpty with
  | true =>
    rw [between_of_isEmpty hvalue]
    rfl
  | false =>
    obtain ⟨range, hrange, hnone⟩ := rangeOf_eq_ok hparameters
    obtain rfl := hnone.mpr hunmet
    rw [outcome_between hvalue, hrange]
    rcases value.toNumber with fault | d <;> rfl

end Predicate

namespace Catalog

/-- **A list of tokens is to a predicate what the tokens are.** -/
theorem call_list {name : String} (hname : name ∈ spreading) {d : Definition}
    (hd : builtins.resolve name = some d) {xs : List Value} (hxs : ∀ x ∈ xs, x.IsToken)
    (value : Value)
    (context : Option Context) : d.call value [.list xs] context = d.call value xs context := by
  have hplain {f : Value → List Value → Check Bool} {description : String}
      (hresolve : builtins.resolve name = some (plain name f description))
      (hf : f value [.list xs] = f value xs) :
      d.call value [.list xs] context = d.call value xs context := by
    obtain rfl := Option.some.inj (hresolve.symm.trans hd)
    rw [call_plain, call_plain, hf]
  simp only [spreading, List.mem_cons, List.not_mem_nil, or_false] at hname
  rcases hname with rfl | rfl | rfl | rfl | rfl
  · refine hplain rfl ?_
    rw [Predicate.between, Predicate.between, Predicate.bounds_list hxs]
  · refine hplain rfl ?_
    rw [Predicate.betweenLength, Predicate.betweenLength, Predicate.bounds_list hxs]
  · refine hplain rfl ?_
    rw [Predicate.digitsLengthBetween, Predicate.digitsLengthBetween, Predicate.bounds_list hxs]
  · refine hplain rfl ?_
    rw [Predicate.contains, Predicate.contains, Predicate.isOption, Predicate.isOption,
      Predicate.options_list hxs]
  · refine hplain rfl ?_
    rw [Predicate.notIn, Predicate.notIn, Predicate.isOption, Predicate.isOption,
      Predicate.options_list hxs]

end Catalog

end FormRules
