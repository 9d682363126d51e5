import FormRules.Proofs.Report
import FormRules.Proofs.Run.Mirror
import FormRules.Predicate.Probe
import FormRules.Session.Perform

/-!
# The reference walk

What a run comes to, said without its table of errors, its journal and its publication: `Run.walk`
fetches the value of each field and collects the verdicts of the field's rules, and the report has
the fields for which there is a message. A fault anywhere ends the walk, so the first one decides.

A run comes to what the walk comes to (`Run.validate_eq_walk`). The run looks catalog and composer
up for every rule anew, and the walk is given them once: no predicate can change either. The two are
run side by side, in worlds that have the same objects (`World.Same`).
-/

namespace FormRules

variable {α β : Type}

/-- A rule text read, and the definition that a catalog has for it. -/
def Engine.readRule (e : Engine) (c : Catalog) (text : String) :
    Attempt (PreparedRule × Definition) := do
  let prepared ← e.config.prepare text
  return (prepared, ← c.lookUp prepared.method)

namespace Run

/-- What a rule comes to: nothing if it passes, or else its message. -/
def verdict (respond : (q : Request) → Run q.Reply) (e : Engine) (c : Catalog) (m : Composer)
    (here : Context) (value : Value) (text : String) : Run (Option String) := do
  let (prepared, definition) ← e.readRule c text
  let context := if definition.takesContext then some here else none
  let result ← (definition.body value prepared.parameters context).run respond
  if result.truth then
    return none
  else
    return some (← (m.compose prepared.method prepared.parameters here.form here.field).2)

/-- A field with the messages of its rules. -/
def walkField (respond : (q : Request) → Run q.Reply) (name : String) (e : Engine) (c : Catalog)
    (m : Composer) (form : Value) (f : Value × List String) : Run (Value × List String) := do
  modify (setCursor name (some ⟨form, f.1⟩))
  let value ← readField e.accessor form f.1
  let verdicts ← f.2.mapM (verdict respond e c m ⟨form, f.1⟩ value)
  return (f.1, verdicts.reduceOption)

/-- The walk through the fields of a form. -/
def walk (respond : (q : Request) → Run q.Reply) (name : String) (e : Engine) (c : Catalog)
    (m : Composer) (form : Value) : Run Report := do
  let declared ← e.fieldsOf form
  modify (setCursor name (some ⟨form, .null⟩))
  let found ← declared.entries.mapM (walkField respond name e c m form)
  return ⟨form, ⟨found.filter fun f => !f.2.isEmpty⟩⟩

/-- What the walk comes to in a world, if so many runs may be nested in it. -/
def walked (depth : Nat) (name : String) (e : Engine) (c : Catalog) (m : Composer) (form : Value)
    (w : World) : Attempt Report :=
  (walk (respond (readField e.accessor form) (passes depth)) name e c m form w).1

end Run

/-! ## Worlds with the same objects -/

/-- The two worlds have the same objects, among them the given catalogs and composers. -/
structure World.Same (cs : Shelf Catalog) (ms : Shelf Composer) (w v : World) : Prop where
  alike : World.Alike (fun _ e => e) w v
  catalogs : w.catalogs = cs
  composers : w.composers = ms

/-- The run comes to the same and leaves the same objects behind, whatever stands in the journal and
the notes. -/
abbrev Run.Blind (cs : Shelf Catalog) (ms : Shelf Composer) (r : Run α) : Prop :=
  Run.InStep (World.Same cs ms) (Matching Eq) (World.Same cs ms) r r

namespace World.Same

open Run

variable {cs : Shelf Catalog} {ms : Shelf Composer} {w v : World}

theorem refl (w : World) : Same w.catalogs w.composers w w := ⟨.refl w, rfl, rfl⟩

theorem engines (h : Same cs ms w v) (n : String) : w.engines.get? n = v.engines.get? n := by
  simpa using h.alike.engines n

theorem tandem : Tandem (Same cs ms) where
  quiet js js' ns ns' h := ⟨tandem_alike.quiet js js' ns ns' h.alike, h.catalogs, h.composers⟩
  accessors h := h.alike.accessors
  catalogs h := h.alike.catalogs
  composers h := h.alike.composers

theorem updateEngine (h : Same cs ms w v) (name : String) (f : Engine → Engine) :
    Same cs ms (w.updateEngine name f) (v.updateEngine name f) := by
  refine ⟨h.alike.updateEngine (fun _ _ => rfl) fun _ _ he => congrArg f he, ?_, ?_⟩
  · rw [catalogs_updateEngine, h.catalogs]
  · rw [composers_updateEngine, h.composers]

theorem engine (name : String) : Blind cs ms (Run.engine name) := by
  refine InStep.reads (reads_engine name) (reads_engine name) fun w v hwv => Matching.of_eq ?_
  rw [engine_apply, engine_apply, hwv.engines name]

theorem writeField (r : Ref) (form field v : Value) :
    Blind cs ms (Run.writeField r form field v) := by
  refine (tandem.accessor r).bind_eq fun a => InStep.bind_eq ?_ fun _ => InStep.lift _
  refine InStep.modify fun w v h => ⟨⟨?_, h.alike.catalogs, h.alike.composers, h.alike.engines⟩,
    h.catalogs, h.composers⟩
  change w.accessors.put r _ = v.accessors.put r _
  rw [h.alike.accessors]

/-- All requests of predicates are answered alike, if nested runs are. -/
theorem respond {sibling : Value → Run Value} {passes : String → Value → Run Bool}
    (hsibling : ∀ field, Blind cs ms (sibling field))
    (hpasses : ∀ name form, Blind cs ms (passes name form)) (q : Request) :
    Blind cs ms (Run.respond sibling passes q) := by
  cases q with
  | sibling field => exact hsibling field
  | passes name form => exact hpasses name form
  | observe name => exact (engine name).bind_eq fun _ => InStep.pure rfl
  | assign name form field v => exact (engine name).bind_eq fun e => writeField _ _ _ _
  | declare name rules =>
    exact (engine name).bind_eq fun e => (InStep.lift _).bind_eq fun rules =>
      InStep.modify fun _ _ h => h.updateEngine name _

theorem check {respond : (q : Request) → Run q.Reply}
    (hrespond : ∀ q, Blind cs ms (respond q)) (c : Check α) : Blind cs ms (c.run respond) :=
  Check.Parallel.inStep tandem (fun q _ => hrespond q) (.refl (fun _ _ _ h => h.eq) c)

theorem validateBy {passes : String → Value → Run Bool}
    (hpasses : ∀ name form, Blind cs ms (passes name form)) (name : String) (form : Value) :
    Blind cs ms (Run.validateBy passes name form) := by
  refine inStep_validateBy (inStep_reportBy tandem fun w v hwv => ?_) fun report w v h =>
    h.updateEngine name _
  rw [hwv.engines name]
  rcases v.engines.get? name with _ | e
  · exact .error _
  · refine .ok ⟨⟨e.cursor, e.lastReport, rfl⟩, fun declared _ => ?_⟩
    refine inStep_collect (K := Same cs ms) (R := fun _ => Same cs ms) ⟨e.cursor, e.lastReport, rfl⟩
      (fun _ => tandem) (fun _ _ h => h.updateEngine name _) (fun _ _ _ h => h.updateEngine name _)
      (fun _ _ _ h => h) (fun _ _ h => h.updateEngine name _) declared fun _ _ _ _ _ _ _ c _ _ => ?_
    exact check (respond (fun _ => tandem.readField _ _ _) hpasses) c

/-- What stands in the journal and the notes of a world does not matter to a run. -/
theorem validate (depth : Nat) (name : String) (form : Value) :
    Blind cs ms (Run.validate depth name form) := by
  induction depth generalizing name form with
  | zero => exact fun _ _ h => ⟨.error _, h⟩
  | succ depth ih =>
    exact validateBy (fun other form => (ih other form).bind_eq fun _ => InStep.pure rfl) name form

end World.Same

/-! ## The run beside the walk -/

namespace Run

section

variable {cs : Shelf Catalog} {ms : Shelf Composer} {e : Engine} {c : Catalog} {m : Composer}
  {respond : (q : Request) → Run q.Reply}

theorem resolve_inStep (hc : cs.get? e.catalog = some c) (text : String) :
    InStep (World.Same cs ms) (Matching Eq) (World.Same cs ms) (resolve e text)
      (liftM (e.readRule c text)) := by
  refine InStep.reads (reads_resolve e text) (reads_lift _) fun w v hwv => Matching.of_eq ?_
  have hcatalog : catalog e.catalog w = (.ok c, w) := by
    change (known e.catalog.name (w.catalogs.get? e.catalog), w) = _
    rw [hwv.catalogs, hc]
    rfl
  unfold resolve Engine.readRule
  rcases e.config.prepare text with fault | prepared
  · rfl
  · refine (congrArg Prod.fst (bind_of_ok hcatalog)).trans ?_
    rcases hd : c.lookUp prepared.method with fault | definition <;>
      simp only [bind, Except.bind, hd] <;> rfl

/-- A rule that fails adds its message. -/
theorem reject_inStep (hm : ms.get? e.composer = some m) (here : Context) (text : String)
    (prepared : PreparedRule) (errors : Errors) :
    InStep (World.Same cs ms)
      (Matching fun errors' (verdict : Option String) =>
        errors' = errors.addAll (errorKey here.field) verdict.toList)
      (World.Same cs ms) (reject e here text prepared errors)
      (do return some (← (m.compose prepared.method prepared.parameters here.form
        here.field).2)) := by
  intro w v hwv
  have hcomposer : composer e.composer w = (.ok m, w) := by
    change (known e.composer.name (w.composers.get? e.composer), w) = _
    rw [hwv.composers, hm]
    rfl
  unfold reject
  rw [bind_of_ok hcomposer]
  refine World.Same.tandem.logAll_left ((InStep.lift _).bind_eq fun message => ?_) _ w v hwv
  exact World.Same.tandem.logAll_left (fun _ _ h => ⟨.ok rfl, h⟩) _

/-- A rule adds its message, if there is one. -/
theorem rule_inStep (hc : cs.get? e.catalog = some c) (hm : ms.get? e.composer = some m)
    (hrespond : ∀ q, Blind cs ms (respond q))
    (here : Context) (value : Value) (text : String) (errors : Errors) :
    InStep (World.Same cs ms)
      (Matching fun errors' (verdict : Option String) =>
        errors' = errors.addAll (errorKey here.field) verdict.toList)
      (World.Same cs ms) (rule respond e here value text errors)
      (verdict respond e c m here value text) := by
  refine (resolve_inStep hc text).bind_eq fun ⟨prepared, definition⟩ => ?_
  have hcall : (definition.call value prepared.parameters (some here)).run respond =
      (definition.body value prepared.parameters
        (if definition.takesContext then some here else none)).run respond >>= fun result =>
          pure result.truth :=
    Check.run_bind respond _ _
  -- the truth of the result is taken in the check there, and after it here
  simp only [hcall, bind_assoc, pure_bind]
  refine (World.Same.check hrespond _).bind_eq fun result => ?_
  cases result.truth
  · exact reject_inStep hm here text prepared errors
  · exact InStep.pure rfl

/-- The rules of a field add their messages, in order. -/
theorem rules_inStep (hc : cs.get? e.catalog = some c) (hm : ms.get? e.composer = some m)
    (hrespond : ∀ q, Blind cs ms (respond q))
    (here : Context) (value : Value) (texts : List String) (errors : Errors) :
    InStep (World.Same cs ms)
      (Matching fun errors' (verdicts : List (Option String)) =>
        errors' = errors.addAll (errorKey here.field) verdicts.reduceOption)
      (World.Same cs ms) (rules respond e here value texts errors)
      (texts.mapM (verdict respond e c m here value)) := by
  induction texts generalizing errors with
  | nil => exact InStep.pure rfl
  | cons text texts ih =>
    rw [List.mapM_cons]
    refine InStep.bind (rule_inStep hc hm hrespond here value text errors) ?_ fun _ _ h => h
    rintro errors' verdict rfl
    refine (ih _).map_right ?_
    rintro errors' verdicts rfl
    rcases verdict with _ | message
    · rfl
    · exact (Errors.addAll_append errors _ [message] verdicts.reduceOption).symm

/-- The fields of a form add their messages, in order. -/
theorem fields_inStep (hc : cs.get? e.catalog = some c) (hm : ms.get? e.composer = some m)
    (hrespond : ∀ q, Blind cs ms (respond q))
    (name : String) (form : Value) (declared : List (Value × List String)) (errors : Errors) :
    InStep (World.Same cs ms)
      (Matching fun errors' (found : List (Value × List String)) =>
        errors' = errors.ofFields found ∧ found.map Prod.fst = declared.map Prod.fst)
      (World.Same cs ms) (fields respond name e form declared errors)
      (declared.mapM (walkField respond name e c m form)) := by
  induction declared generalizing errors with
  | nil => exact InStep.pure ⟨rfl, rfl⟩
  | cons entry rest ih =>
    obtain ⟨field, texts⟩ := entry
    rw [List.mapM_cons]
    simp only [walkField, bind_assoc, pure_bind]
    refine InStep.bind (InStep.modify fun _ _ h => h.updateEngine name _) (fun _ _ _ => ?_)
      fun _ _ h => h
    refine (World.Same.tandem.readField _ _ _).bind_eq fun value => ?_
    refine InStep.bind (rules_inStep hc hm hrespond ⟨form, field⟩ value texts errors) ?_
      fun _ _ h => h
    rintro errors' verdicts rfl
    refine (ih _).map_right ?_
    rintro errors' found ⟨rfl, hfound⟩
    exact ⟨rfl, congrArg (field :: ·) hfound⟩

theorem collect_inStep (hc : cs.get? e.catalog = some c) (hm : ms.get? e.composer = some m)
    {passes : String → Value → Run Bool} (hpasses : ∀ name form, Blind cs ms (passes name form))
    (name : String) (form : Value) (declared : FieldRules) :
    InStep (World.Same cs ms)
      (Matching fun errors (found : List (Value × List String)) =>
        errors = Errors.ofFields ∅ found ∧ found.map Prod.fst = declared.entries.map Prod.fst)
      (fun _ _ => True) (collect passes name e form declared)
      (do
        modify (setCursor name (some ⟨form, .null⟩))
        declared.entries.mapM
          (walkField (Run.respond (readField e.accessor form) passes) name e c m form)) := by
  intro w v hwv
  have hrespond := World.Same.respond
    (fun field => World.Same.tandem.readField e.accessor form field) hpasses
  have hwv' := hwv.updateEngine name fun e => { e with cursor := some ⟨form, .null⟩ }
  exact ⟨(fields_inStep hc hm hrespond name form declared.entries ∅ _ _ hwv').1, trivial⟩

/-- A run comes to what the walk comes to, if the runs nested in it are blind to the journal. -/
theorem validateBy_inStep (hc : cs.get? e.catalog = some c) (hm : ms.get? e.composer = some m)
    {passes : String → Value → Run Bool} (hpasses : ∀ name form, Blind cs ms (passes name form))
    (name : String) (form : Value)
    (hnamed : ∀ declared, e.fieldsOf form = .ok declared → Named declared.entries) :
    InStep (fun w v => World.Same cs ms w v ∧ w.engines.get? name = some e) (Matching Eq)
      (fun _ _ => True) (validateBy passes name form)
      (walk (Run.respond (readField e.accessor form) passes) name e c m form) := by
  rintro w v ⟨hwv, he⟩
  have hengine : engine name w = (.ok e, w) := by
    rw [engine_apply, he]
    rfl
  simp only [validateBy, reportBy, walk, bind_assoc, pure_bind]
  rw [bind_of_ok hengine]
  rcases hdeclared : e.fieldsOf form with fault | declared
  · exact ⟨.error fault, trivial⟩
  · have hcollect := collect_inStep hc hm hpasses name form declared
    rw [bind_of_ok (lift_apply (.ok declared) w), bind_of_ok (lift_apply (.ok declared) v)]
    refine (?_ : InStep (World.Same cs ms) (Matching Eq) (fun _ _ => True) _ _) w v hwv
    refine World.Same.tandem.logAll_left ?_ _
    rw [← bind_assoc (modify _)]
    refine InStep.bind hcollect ?_ fun _ _ h => h
    rintro errors found ⟨rfl, hfound⟩ w v -
    have hfields := (hnamed declared hdeclared).of_map_fst hfound
    refine ⟨.ok ?_, trivial⟩
    have hfields' : Named ([] ++ found) := hfields
    exact congrArg (Report.mk form) (Errors.ofFields_eq hfields')

end

theorem validate_eq_walked {w : World} {name : String} {e : Engine} {c : Catalog} {m : Composer}
    (he : w.engines.get? name = some e) (hc : w.catalogs.get? e.catalog = some c)
    (hm : w.composers.get? e.composer = some m) {form : Value}
    (hnamed : ∀ declared, e.fieldsOf form = .ok declared → Named declared.entries) (depth : Nat) :
    (validate (depth + 1) name form w).1 = walked depth name e c m form w := by
  have hpasses (other : String) (form : Value) :
      Blind w.catalogs w.composers (passes depth other form) :=
    (World.Same.validate depth other form).bind_eq fun _ => InStep.pure rfl
  exact (validateBy_inStep hc hm hpasses name form hnamed w w ⟨.refl w, he⟩).1.eq

/-- **A run comes to what the reference walk comes to**: the fault that the walk meets first, or the
report on all fields with a failed rule, in order, with the messages of their failed rules. Whether
a form passes or fails is read off that report. Predicates may do to the engines and accessors of
the world what they like. -/
theorem run_eq_walk {w : World} {name : String} {e : Engine} {c : Catalog} {m : Composer}
    (he : w.engines.get? name = some e) (hc : w.catalogs.get? e.catalog = some c)
    (hm : w.composers.get? e.composer = some m) {form : Value}
    (hnamed : ∀ declared, e.fieldsOf form = .ok declared → Named declared.entries) :
    (∀ depth, (validate (depth + 1) name form w).1 = walked depth name e c m form w ∧
      (passes (depth + 1) name form w).1 = (walked depth name e c m form w).map Report.valid) ∧
    ((EngineStep.fails form).perform name w).1 =
      (walked (nestingLimit - 1) name e c m form w).map fun report => .truth !report.valid := by
  have hvalidate := validate_eq_walked he hc hm hnamed
  have hpasses (depth : Nat) : (passes (depth + 1) name form w).1 =
      (walked depth name e c m form w).map Report.valid := by
    rw [passes_apply, hvalidate]
  have hfails : (EngineStep.fails form).perform name w =
      ((passes nestingLimit name form w).1.map fun passed => .truth !passed,
        (passes nestingLimit name form w).2) := bind_pure_apply _ _ w
  refine ⟨fun depth => ⟨hvalidate depth, hpasses depth⟩, ?_⟩
  have hlimit : (passes nestingLimit name form w).1 =
      (walked (nestingLimit - 1) name e c m form w).map Report.valid := hpasses (nestingLimit - 1)
  simp only [hfails, hlimit]
  rcases walked (nestingLimit - 1) name e c m form w with fault | report <;> rfl

end Run

/-! ## A form with two fields -/

namespace Signup

def engine : Engine where
  config := {}
  rules := ⟨[(.text "signup", ⟨[(.text "name", ["never", "always"]), (.text "mail", ["always"])]⟩)]⟩
  accessor := ⟨"values", 0⟩
  catalog := ⟨"catalog", 0⟩
  composer := ⟨"composer", 0⟩

def catalog : Catalog :=
  .ofList [{ name := "always", body := Probe.always.predicate "signup" },
    { name := "never", body := Probe.never.predicate "signup" }]

def composer : Composer := ⟨⟨[(.text "never", "No.")]⟩, ∅⟩

def world : World where
  accessors := Shelf.put ∅ ⟨"values", 0⟩ (.computed fun _ field => .ok field)
  catalogs := Shelf.put ∅ ⟨"catalog", 0⟩ catalog
  composers := Shelf.put ∅ ⟨"composer", 0⟩ composer
  engines := Table.set ∅ "signup" engine
  journal := []
  notes := []

theorem named {declared : FieldRules} (h : engine.fieldsOf (.text "signup") = .ok declared) :
    Named declared.entries := by
  obtain rfl := Except.ok.inj h
  refine ⟨fun f hf => ?_, ?_⟩
  · rcases List.mem_pair.1 hf with rfl | rfl
    · exact ⟨"name", rfl⟩
    · exact ⟨"mail", rfl⟩
  · refine List.pairwise_pair.2 fun h => ?_
    exact absurd (Value.text.inj h) (by decide)

theorem run_signup_eq_walk :
    (Run.validate 1 "signup" (.text "signup") world).1 =
        Run.walked 0 "signup" engine catalog composer (.text "signup") world ∧
      Run.walked 0 "signup" engine catalog composer (.text "signup") world =
        .ok ⟨.text "signup", ⟨[(.text "name", ["No."])]⟩⟩ :=
  ⟨((Run.run_eq_walk rfl rfl rfl fun _ => named).1 0).1, rfl⟩

end Signup

end FormRules
