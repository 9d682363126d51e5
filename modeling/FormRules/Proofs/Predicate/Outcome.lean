import FormRules.Proofs.Predicate.Asks

/-!
# What a check comes to

A check whose requests have fixed answers comes to a result and leaves some records, whatever world
it happens in (`Check.outcome`, `Check.Asks.run_eq`). For each family of built-in predicates there
is one equation that gives both: the result as an attempt, and the records of the parameters that
could not be used. Everything that is said about the built-in predicates starts from these
equations.
-/

namespace FormRules

variable {α β : Type}

/-- What a check comes to if its requests are answered in the given way, and the records that it
writes on the way. -/
def Check.outcome (answer : (q : Request) → Attempt q.Reply) : Check α → Attempt α × List Record
  | .result r => (r, [])
  | .log r next => ((next.outcome answer).1, r :: (next.outcome answer).2)
  | .note _ next => next.outcome answer
  | .ask q next => (next (answer q)).outcome answer

namespace Check

variable {answer : (q : Request) → Attempt q.Reply}

@[simp] theorem outcome_pure (a : α) : (pure a : Check α).outcome answer = (.ok a, []) := rfl

/-- An attempt comes to its result, and writes nothing. -/
@[simp] theorem outcome_lift (a : Attempt α) : (liftM a : Check α).outcome answer = (a, []) := rfl

/-- A compound check comes to what its parts come to, one after the other. -/
theorem outcome_bind (c : Check α) (f : α → Check β) :
    (c >>= f).outcome answer = match c.outcome answer with
      | (.ok a, rs) => (((f a).outcome answer).1, rs ++ ((f a).outcome answer).2)
      | (.error fault, rs) => (.error fault, rs) := by
  change (c.bind f).outcome answer = _
  induction c with
  | result r => cases r <;> rfl
  | log r next ih =>
    simp only [Check.bind, outcome, ih]
    rcases next.outcome answer with ⟨_ | _, _⟩ <;> rfl
  | note entry next ih => exact ih
  | ask q next ih => exact ih _

/-- What follows an attempt begins with its result, or does not begin. -/
@[simp] theorem outcome_lift_bind (x : Attempt α) (f : α → Check β) :
    ((liftM x : Check α) >>= f).outcome answer = match x with
      | .ok a => (f a).outcome answer
      | .error fault => (.error fault, []) := by
  cases x <;> rfl

/-- The records come from the first part if the second writes none. -/
theorem outcome_bind_eq {c : Check α} {x : Attempt α} {rs : List Record}
    (hc : c.outcome answer = (x, rs)) {f : α → Check β} {g : α → Attempt β}
    (hf : ∀ a, (f a).outcome answer = (g a, [])) : (c >>= f).outcome answer = (x >>= g, rs) := by
  rw [outcome_bind, hc]
  rcases x with fault | a
  · rfl
  · simp [hf, bind, Except.bind]

/-- A check that makes requests of a kind comes to its outcome in every world where the requests of
that kind have the given answers and change nothing. Nothing changes but the journal and the
notes. -/
theorem Asks.run_eq {A : Request → Prop} {c : Check α} (hc : c.Asks A)
    {respond : (q : Request) → Run q.Reply} {accessors : Shelf Accessor}
    (hrespond : ∀ q, A q → ∀ v : World, v.accessors = accessors → respond q v = (answer q, v))
    {w : World} (hw : w.accessors = accessors) :
    ∃ notes, c.run respond w = ((c.outcome answer).1,
      { w with journal := w.journal ++ (c.outcome answer).2, notes := notes }) := by
  induction hc generalizing w with
  | result r => exact ⟨w.notes, by simp [Check.run, outcome]⟩
  | log r h ih =>
    obtain ⟨notes, hrun⟩ := ih (w := { w with journal := w.journal ++ [r] }) hw
    refine ⟨notes, Eq.trans hrun ?_⟩
    simp [outcome]
  | note entry h ih =>
    obtain ⟨notes, hrun⟩ := ih (w := { w with notes := w.notes ++ [entry] }) hw
    exact ⟨notes, hrun⟩
  | @ask q f hq h ih =>
    obtain ⟨notes, hrun⟩ := ih (answer q) hw
    refine ⟨notes, Eq.trans ?_ hrun⟩
    simp only [Check.run, hrespond q hq w hw]

end Check

/-- The answers to requests for siblings of a form, whose values an accessor holds in a world. What
else is asked for is not known without running it. -/
def answersIn (w : World) (r : Ref) (form : Value) : (q : Request) → Attempt q.Reply
  | .sibling field => (Run.readField r form field w).1
  | .passes .. | .observe .. | .assign .. | .declare .. => .error .noContext

/-- A field is read from the accessor, if that is known, and nothing changes. -/
theorem Run.readField_apply (r : Ref) (form field : Value) (w : World) :
    readField r form field w =
      ((known r.name (w.accessors.get? r)).bind fun a => a.get form field, w) := by
  unfold readField
  rw [bind_apply, accessor_apply]
  rcases known r.name (w.accessors.get? r) with _ | a <;> rfl

/-- A built-in predicate, called in a run, comes to its outcome. Nothing changes but the journal and
the notes. -/
theorem Definition.AsksSiblings.run_call {d : Definition} (hd : d.AsksSiblings) (r : Ref)
    (w : World)
    (passes : String → Value → Run Bool) (form value : Value) (parameters : List Value)
    (context : Option Context) :
    ∃ notes, (d.call value parameters context).run (Run.respond (Run.readField r form) passes) w =
      (((d.call value parameters context).outcome (answersIn w r form)).1,
        { w with
          journal := w.journal ++ ((d.call value parameters context).outcome (answersIn w r form)).2
          notes := notes }) := by
  refine (Definition.asks_call hd value parameters context).run_eq (fun q hq v hv => ?_) rfl
  cases q with
  | sibling field =>
    change Run.readField r form field v = ((Run.readField r form field w).1, v)
    rw [Run.readField_apply, Run.readField_apply, hv]
  | _ => exact hq.elim

/-- A built-in predicate without context decides as its function does. -/
theorem Catalog.call_plain (name : String) (f : Value → List Value → Check Bool)
    (description : String)
    (value : Value) (parameters : List Value) (context : Option Context) :
    (plain name f description).call value parameters context = f value parameters := by
  simp [Definition.call, plain, Predicate.ofDecision, Check.bind_assoc, Value.truth,
    Check.bind_pure]

/-- A predicate that sees the form decides by the value, the parameters and the context. -/
theorem Catalog.call_crossField (name : String)
    (f : Value → List Value → Option Context → Check Bool) (description : String) (value : Value)
    (parameters : List Value) (context : Option Context) :
    (crossField name f description).call value parameters context = f value parameters context := by
  simp [Definition.call, crossField, Predicate.ofContextDecision, Check.bind_assoc, Value.truth,
    Check.bind_pure]

/-- A built-in predicate, called by its name. -/
def Catalog.callBuiltin (name : String) (value : Value) (parameters : List Value)
    (context : Option Context) : Check Bool := do
  (← builtins.lookUp name).call value parameters context

/-- A built-in predicate is called by its definition. -/
theorem Catalog.callBuiltin_eq {name : String} {d : Definition} (h : builtins.resolve name = some d)
    (value : Value) (parameters : List Value) (context : Option Context) :
    callBuiltin name value parameters context = d.call value parameters context := by
  rw [callBuiltin, (lookUp_eq_ok_iff _ _ _).mpr h]
  rfl

theorem Catalog.callBuiltin_plain {name description : String} {f : Value → List Value → Check Bool}
    (h : builtins.resolve name = some (plain name f description)) (value : Value)
    (parameters : List Value) (context : Option Context) :
    callBuiltin name value parameters context = f value parameters := by
  rw [callBuiltin_eq h, call_plain]

namespace Predicate

variable {answer : (q : Request) → Attempt q.Reply} {value : Value} {parameters : List Value}

/-! ## The families of built-in predicates -/

/-- The report of a parameter that should be a number and is none. -/
def notNumeric (validation : String) (parameter : Value) : List Record :=
  match parameter.toNumber with
  | .ok none => [.malformed validation parameter]
  | _ => []

/-- The items of a range: two parameters, or the two items of a list. -/
def spread : List Value → List Value
  | [.list xs] => xs
  | ps => ps

/-- The two numbers of a range, if there are just two and both are numbers. -/
def rangeOf (parameters : List Value) : Attempt (Option (Double × Double)) :=
  match spread parameters with
  | [p, q] => do
    let low ← p.toNumber
    let high ← q.toNumber
    match low, high with
    | some low, some high => return some (low, high)
    | _, _ => return none
  | _ => .ok none

/-- The report of parameters that should be a range and are none. -/
def notRange (validation : String) (parameters : List Value) : List Record :=
  match spread parameters with
  | [p, q] => notNumeric validation p ++
    match p.toNumber with
    | .ok _ => notNumeric validation q
    | .error _ => []
  | ps => [.malformed validation (.list ps)]

/-- A parameter is read as a number, and one that is none is reported. -/
theorem outcome_numericParameter (validation : String) (parameter : Value) :
    (numericParameter validation parameter).outcome answer =
      (parameter.toNumber, notNumeric validation parameter) := by
  unfold numericParameter notNumeric
  rw [Check.outcome_lift_bind]
  rcases parameter.toNumber with _ | _ | _ <;> rfl

/-- Parameters are read as a range, and reported if they are none. -/
theorem outcome_bounds (validation : String) (parameters : List Value) :
    (bounds validation parameters).outcome answer =
      (rangeOf parameters, notRange validation parameters) := by
  unfold bounds rangeOf notRange
  extract_lets given
  have hgiven : given = spread parameters := rfl
  clear_value given
  subst hgiven
  rcases spread parameters with _ | ⟨p, _ | ⟨q, _ | ⟨_, _⟩⟩⟩
  · rfl
  · rfl
  · simp only [Check.outcome_bind, outcome_numericParameter]
    rcases p.toNumber with _ | _ | low <;> rcases q.toNumber with _ | _ | high <;>
      simp [Check.outcome, bind, Except.bind, pure, Except.pure]
  · rfl

section

variable (hvalue : value.isEmpty = false)
include hvalue

/-- A pattern decides by the text of the value. -/
theorem outcome_ofPattern (pattern : List Piece) :
    (ofPattern pattern value []).outcome answer =
      (value.plainText.map fun s => Pattern.fits pattern s.toList, []) := by
  simp only [ofPattern, hvalue, Bool.false_eq_true, if_false, Check.outcome_lift_bind]
  rcases value.plainText with _ | s <;> rfl

/-- Unlike other patterns this one holds or not of a value without text. -/
theorem outcome_ipvFour :
    (ipvFour value []).outcome answer =
      (.ok (value.plainText.toOption.any fun s => isIpv4 (Text.trim s.toList)), []) := by
  simp only [ipvFour, hvalue, Bool.false_eq_true, if_false]
  rcases value.plainText with _ | s <;> rfl

theorem outcome_number :
    (number value []).outcome answer = (value.toNumber.map Option.isSome, []) := by
  simp only [number, hvalue, Bool.false_eq_true, if_false, Check.outcome_lift_bind]
  rcases value.toNumber with _ | d <;> rfl

variable {limit : Value} (hlimit : upToOne parameters = .ok limit)
include hlimit

/-- A limit on numbers reads the limit and then the value. -/
theorem outcome_comparedNumber (validation : String) (holds : Double → Double → Bool) :
    (comparedNumber validation holds value parameters).outcome answer =
      (do
        let bound ← limit.toNumber
        let d ← value.toNumber
        match bound, d with
        | some bound, some d => return holds d bound
        | _, _ => return false,
      notNumeric validation limit) := by
  simp only [comparedNumber, hlimit, hvalue, Bool.false_eq_true, if_false, Check.outcome_lift_bind]
  refine Check.outcome_bind_eq (outcome_numericParameter _ _) fun bound => ?_
  refine Check.outcome_bind_eq (Check.outcome_lift _) fun d => ?_
  cases bound <;> cases d <;> rfl

/-- A limit on lengths measures the value only if there is a limit. -/
theorem outcome_comparedLength (validation : String) (holds : Double → Double → Bool) :
    (comparedLength validation holds value parameters).outcome answer =
      (do
        match ← limit.toNumber with
        | some bound => return holds (.exactly (← value.length)) bound
        | none => return false,
      notNumeric validation limit) := by
  simp only [comparedLength, hlimit, hvalue, Bool.false_eq_true, if_false, Check.outcome_lift_bind]
  refine Check.outcome_bind_eq (outcome_numericParameter _ _) fun bound => ?_
  cases bound with
  | none => rfl
  | some bound => exact Check.outcome_bind_eq (Check.outcome_lift _) fun _ => rfl

/-- An exact length reads the limit, the value, and then the whole part of the limit. -/
theorem outcome_digitsLength :
    (digitsLength value parameters).outcome answer =
      (do
        let expected ← limit.toNumber
        let text ← trimmedText value
        match expected with
        | none => return false
        | some d =>
          if Text.isDigits text then return (text.length : Int) == (← d.wholePart)
            else return false,
      notNumeric "digitsLength" limit) := by
  simp only [digitsLength, hlimit, hvalue, Bool.false_eq_true, if_false, Check.outcome_lift_bind]
  refine Check.outcome_bind_eq (outcome_numericParameter _ _) fun expected => ?_
  refine Check.outcome_bind_eq (Check.outcome_lift _) fun text => ?_
  cases expected with
  | none => rfl
  | some d =>
    dsimp only
    split
    · exact Check.outcome_bind_eq (Check.outcome_lift _) fun _ => rfl
    · rfl

theorem outcome_comparedDay (validation : String) (holds : Date → Date → Bool) :
    (comparedDay validation holds value parameters).outcome answer =
      match limit.toDay with
      | none => (.ok false, [.malformed validation limit])
      | some boundary => (.ok (value.toDay.any fun day => holds day boundary), []) := by
  simp only [comparedDay, hlimit, hvalue, Bool.false_eq_true, if_false, Check.outcome_lift_bind]
  rcases limit.toDay with _ | boundary
  · rfl
  · rcases value.toDay with _ | day <;> rfl

end

section

variable (hvalue : value.isEmpty = false) (parameters : List Value)
include hvalue

/-- A range reads both ends, and then the value. -/
theorem outcome_between :
    (between value parameters).outcome answer =
      (do
        let range ← rangeOf parameters
        let d ← value.toNumber
        match range, d with
        | some (low, high), some d => return low.le d && d.le high
        | _, _ => return false,
      notRange "between" parameters) := by
  simp only [between, hvalue, Bool.false_eq_true, if_false]
  refine Check.outcome_bind_eq (outcome_bounds _ _) fun range => ?_
  refine Check.outcome_bind_eq (Check.outcome_lift _) fun d => ?_
  cases range <;> cases d <;> rfl

theorem outcome_digitsLengthBetween :
    (digitsLengthBetween value parameters).outcome answer =
      (do
        match ← rangeOf parameters with
        | none => return false
        | some range =>
          let text ← trimmedText value
          return Text.isDigits text && inRange range text.length,
      notRange "digitsLengthBetween" parameters) := by
  simp only [digitsLengthBetween, hvalue, Bool.false_eq_true, if_false]
  refine Check.outcome_bind_eq (outcome_bounds _ _) fun range => ?_
  cases range with
  | none => rfl
  | some range => exact Check.outcome_bind_eq (Check.outcome_lift _) fun _ => rfl

theorem outcome_betweenLength :
    (betweenLength value parameters).outcome answer =
      (do
        match ← rangeOf parameters with
        | none => return false
        | some range => return inRange range (← value.length),
      notRange "betweenLength" parameters) := by
  simp only [betweenLength, hvalue, Bool.false_eq_true, if_false]
  refine Check.outcome_bind_eq (outcome_bounds _ _) fun range => ?_
  cases range with
  | none => rfl
  | some range => exact Check.outcome_bind_eq (Check.outcome_lift _) fun _ => rfl

theorem outcome_contains :
    (contains value parameters).outcome answer = (isOption value parameters, []) := by
  simp only [contains, hvalue, Bool.false_eq_true, if_false]
  rfl

theorem outcome_notIn :
    (notIn value parameters).outcome answer = ((isOption value parameters).map (!·), []) := by
  simp only [notIn, hvalue, Bool.false_eq_true, if_false, Check.outcome_lift_bind]
  rcases isOption value parameters with _ | b <;> rfl

end

/-- The value of a sibling, which only a context gives access to. -/
def siblingIn (answer : (q : Request) → Attempt q.Reply) : Option Context → Value → Attempt Value
  | some _, field => answer (.sibling field)
  | none, _ => .error .noContext

/-- A sibling is read in the form of the context. -/
theorem outcome_siblingValue (context : Option Context) (field : Value) :
    (siblingValue context field).outcome answer = (siblingIn answer context field, []) := by
  cases context <;> rfl

/-- The comparison with another field; a parameter that names no field is reported. -/
theorem outcome_compareSibling {other : Value} (hother : upToOne parameters = .ok other)
    (validation : String) (equal : Bool) (context : Option Context) :
    (compareSibling validation equal value parameters context).outcome answer =
      match fieldName? other with
      | .error fault => (.error fault, [])
      | .ok none => (.ok false, [.malformed validation other])
      | .ok (some name) =>
        (do return value.same (← siblingIn answer context (.text name)) == equal, []) := by
  have hsingle : (compareSibling validation equal value [other] context).outcome answer =
      match fieldName? other with
      | .error fault => (.error fault, [])
      | .ok none => (.ok false, [.malformed validation other])
      | .ok (some name) =>
        (do return value.same (← siblingIn answer context (.text name)) == equal, []) := by
    simp only [compareSibling, List.headD_cons, Check.outcome_lift_bind]
    rcases fieldName? other with _ | _ | name
    · rfl
    · rfl
    · exact Check.outcome_bind_eq (outcome_siblingValue _ _) fun _ => rfl
  rcases parameters with _ | ⟨p, _ | ⟨_, _⟩⟩
  · obtain rfl := Except.ok.inj hother
    exact hsingle
  · obtain rfl := Except.ok.inj hother
    exact hsingle
  · cases hother

/-- The requirement under a condition; a condition without a field or an expectation is reported. -/
theorem outcome_requiredWhen {other expected : Value} (validation : String) (unlessMet : Bool)
    (context : Option Context) : upToTwo parameters = .ok (other, expected) →
    (requiredWhen validation unlessMet value parameters context).outcome answer =
      match fieldName? other, expected with
      | .error fault, _ => (.error fault, [])
      | .ok none, _ => (.ok false, [.malformed validation (.list [other, expected])])
      | .ok (some _), .null => (.ok false, [.malformed validation (.list [other, expected])])
      | .ok (some name), expected =>
        (do
          let sibling ← siblingIn answer context (.text name)
          let met ← meets sibling expected
          return met == unlessMet || !value.isEmpty, []) := by
  intro hcondition
  simp only [requiredWhen, hcondition, Check.outcome_lift_bind]
  rcases fieldName? other with _ | _ | name
  · rfl
  · rfl
  · have hmet (expected : Value) : (siblingValue context (.text name) >>= fun sibling =>
        (liftM (meets sibling expected) : Check Bool) >>= fun met =>
          (pure (met == unlessMet || !value.isEmpty) : Check Bool)).outcome answer =
        (siblingIn answer context (.text name) >>= fun sibling => meets sibling expected >>=
          fun met =>
          pure (met == unlessMet || !value.isEmpty), []) :=
      Check.outcome_bind_eq (outcome_siblingValue _ _) fun sibling =>
        Check.outcome_bind_eq (Check.outcome_lift _) fun met => rfl
    cases expected with
    | null => rfl
    | _ => exact hmet _

end Predicate

end FormRules
