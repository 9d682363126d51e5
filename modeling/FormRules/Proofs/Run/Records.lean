import FormRules.Proofs.Predicate.Candid
import FormRules.Proofs.Walk

/-!
# What the journal tells of a run

The journal of a run says when the run begins and when it is complete, and in between it has
something about each rule that failed and nothing about those that passed. So what failed can be
read off the journal, and the messages of the report are those of the failed rules, one for one and
in order (`Run.journal_tells_report`). A run that raises is never said to be complete.

The reference is again a walk through the fields, which now collects the failures (`Run.failures`).
It writes nothing to the journal of the world: each predicate is called with a journal of its own
(`Run.offRecord`), from which its warnings are taken. The run and the walk are compared in worlds
with different journals (`Run.Tells`); nobody reads the journal, so this makes no difference to what
they come to.
-/

namespace FormRules

variable {α β γ δ : Type}

/-! ## Runs with a journal of their own -/

/-- The world with another journal. -/
def World.withJournal (w : World) (journal : List Record) : World := { w with journal := journal }

/-- The record says that a run is complete. -/
def Record.IsFinished : Record → Prop
  | finished _ _ => True
  | _ => False

theorem Record.Reports.not_finished {validation : String} {r : Record} (h : r.Reports validation) :
    ¬r.IsFinished := by
  obtain ⟨parameter, rfl⟩ := h
  exact id

namespace Run

/-- The run with a journal of its own, which it hands over in the end. -/
def offRecord (r : Run α) : Run (α × List Record) := fun w =>
  match r (w.withJournal []) with
  | (.ok a, v) => (.ok (a, v.journal), v.withJournal w.journal)
  | (.error fault, v) => (.error fault, v.withJournal w.journal)

/-- The run does not read the journal and does not write to it. -/
def Mute (r : Run α) : Prop :=
  ∀ (w : World) (journal : List Record),
    r (w.withJournal journal) = ((r w).1, (r w).2.withJournal journal)

/-- The run does not read the journal, and what it writes goes to the end. -/
def Appends (r : Run α) : Prop :=
  ∀ (w : World) (journal : List Record), r (w.withJournal journal) = ((r (w.withJournal [])).1,
    (r (w.withJournal [])).2.withJournal (journal ++ (r (w.withJournal [])).2.journal))

theorem Mute.bind {r : Run α} {f : α → Run β} (hr : Mute r) (hf : ∀ a, Mute (f a)) :
    Mute (r >>= f) := by
  intro w journal
  rw [bind_apply, bind_apply, hr w journal]
  rcases r w with ⟨fault | a, v⟩
  · rfl
  · exact hf a v journal

theorem mute_lift (a : Attempt α) : Mute (liftM a : Run α) := fun _ _ => rfl

theorem mute_pure (a : α) : Mute (pure a : Run α) := fun _ _ => rfl

theorem mute_engine (name : String) : Mute (engine name) := fun _ _ => rfl

theorem mute_accessor (r : Ref) : Mute (accessor r) := fun _ _ => rfl

theorem mute_readField (r : Ref) (form field : Value) : Mute (readField r form field) :=
  (mute_accessor r).bind fun _ => mute_lift _

theorem mute_writeField (r : Ref) (form field v : Value) : Mute (writeField r form field v) := by
  refine (mute_accessor r).bind fun a => Mute.bind (r := modify _) ?_ fun _ => mute_lift _
  exact fun _ _ => rfl

theorem mute_updateEngine (name : String) (f : Engine → Engine) :
    Mute (modify fun w => w.updateEngine name f) := by
  intro w journal
  change (Except.ok (), (w.withJournal journal).updateEngine name f) = _
  have hengines : (w.withJournal journal).engines = w.engines := rfl
  rw [World.updateEngine, hengines, modify_apply, World.updateEngine]
  rcases w.engines.get? name with _ | e <;> rfl

theorem mute_declare (name : String) (rules : Value) : Mute (declare name rules) :=
  (mute_engine name).bind fun _ => (mute_lift _).bind fun _ => mute_updateEngine name _

theorem Mute.fixes_journal {r : Run α} (hr : Mute r) : Fixes World.journal r := by
  intro w
  have hw := congrArg (fun x => x.2.journal) (hr w w.journal)
  exact hw

end Run

/-! ## Checks that write nothing -/

/-- To answer the request, another form is run. -/
def Request.StartsRun : Request → Prop
  | passes _ _ => True
  | _ => False

theorem Run.mute_respond {sibling : Value → Run Value} (hsibling : ∀ field, Mute (sibling field))
    (passes : String → Value → Run Bool) {q : Request} (hq : ¬q.StartsRun) :
    Mute (respond sibling passes q) := by
  cases q with
  | sibling field => exact hsibling field
  | passes name form => exact (hq trivial).elim
  | observe name => exact (mute_engine name).bind fun _ => mute_pure _
  | assign name form field v => exact (mute_engine name).bind fun _ => mute_writeField _ _ _ _
  | declare name rules => exact mute_declare name rules

theorem Run.fixes_shelves {sibling : Value → Run Value} (hsibling : ∀ field, Reads (sibling field))
    (passes : String → Value → Run Bool) {q : Request} (hq : ¬q.StartsRun) :
    Fixes (fun w => (w.catalogs, w.composers)) (respond sibling passes q) := by
  cases q with
  | sibling field => exact (hsibling field).fixes
  | passes name form => exact (hq trivial).elim
  | observe name => exact (reads_engine name).fixes.bind fun _ => (reads_pure _).fixes
  | assign name form field v =>
    exact (reads_engine name).fixes.bind fun _ => fixes_writeField (fun _ _ _ => rfl) _ _ _ _
  | declare name rules => exact fixes_declare (fun _ _ _ => by simp) name rules

namespace Check

open Run

/-- The check writes nothing to the journal and starts no other run. -/
inductive Discreet : Check α → Prop where
  | result (r : Attempt α) : Discreet (.result r)
  | note (entry : Value) {c : Check α} (h : Discreet c) : Discreet (.note entry c)
  | ask (q : Request) {f : Attempt q.Reply → Check α} (hq : ¬q.StartsRun)
    (h : ∀ a, Discreet (f a)) :
    Discreet (.ask q f)

variable {respond : (q : Request) → Run q.Reply} {c : Check α}

theorem Discreet.bind {f : α → Check β} (hc : c.Discreet) (hf : ∀ a, (f a).Discreet) :
    (c >>= f).Discreet := by
  change (c.bind f).Discreet
  induction hc with
  | result r =>
    rcases r with fault | a
    · exact .result _
    · exact hf a
  | note entry h ih => exact .note entry ih
  | ask q hq h ih => exact .ask q hq ih

theorem Discreet.asks (hc : c.Discreet) : c.Asks fun q => ¬q.StartsRun := by
  induction hc with
  | result r => exact .result r
  | note entry h ih => exact .note entry ih
  | ask q hq h ih => exact .ask q hq ih

theorem Discreet.fixes_journal (hc : c.Discreet) (hrespond : ∀ q, ¬q.StartsRun → Mute (respond q)) :
    Fixes World.journal (c.run respond) := by
  induction hc with
  | result r => exact fun _ => rfl
  | note entry h ih => exact fun w => ih { w with notes := w.notes ++ [entry] }
  | ask q hq h ih =>
    intro w
    exact (ih (respond q w).1 (respond q w).2).trans ((hrespond q hq).fixes_journal w)

theorem Asks.appends {A : Request → Prop} (hc : c.Asks A) (hrespond : ∀ q, A q → Mute (respond q)) :
    Appends (c.run respond) := by
  induction hc with
  | result r =>
    intro w journal
    change (r, w.withJournal journal) = (r, w.withJournal (journal ++ []))
    rw [List.append_nil]
  | @log r next h ih =>
    intro w journal
    have hlog (journal : List Record) : (Check.log r next).run respond (w.withJournal journal) =
        next.run respond (w.withJournal (journal ++ [r])) := rfl
    have hrest := ih w (journal ++ [r])
    have hfirst := ih w ([] ++ [r])
    rw [hlog, hlog, hrest, hfirst]
    simp [World.withJournal]
  | note entry h ih => exact fun w => ih { w with notes := w.notes ++ [entry] }
  | @ask q f hq h ih =>
    intro w journal
    have hask (journal : List Record) : (Check.ask q f).run respond (w.withJournal journal) =
        (f (respond q w).1).run respond ((respond q w).2.withJournal journal) := by
      change (f (respond q (w.withJournal journal)).1).run respond
        (respond q (w.withJournal journal)).2 = _
      rw [hrespond q hq w journal]
    rw [hask, hask]
    exact ih _ _ _

theorem Asks.fixes {A : Request → Prop} {part : World → γ} (hc : c.Asks A)
    (hrespond : ∀ q, A q → Fixes part (respond q))
    (hquiet : ∀ w journal notes, part { w with journal := journal, notes := notes } = part w) :
    Fixes part (c.run respond) := by
  induction hc with
  | result r => exact fun _ => rfl
  | log r h ih => exact fun w => (ih _).trans (hquiet w _ w.notes)
  | note entry h ih => exact fun w => (ih _).trans (hquiet w w.journal _)
  | ask q hq h ih => exact fun w => (ih _ _).trans (hrespond q hq w)

end Check

/-- The predicate writes nothing to the journal and starts no other run. -/
def Definition.Discreet (d : Definition) : Prop :=
  ∀ value parameters context, (d.body value parameters context).Discreet

/-- The predicates of the catalog are built in, or discreet. -/
def Catalog.Discreet (c : Catalog) : Prop :=
  ∀ method d, c.resolve method = some d → d ∈ builtinDefinitions ∨ d.Discreet

/-! ## Failures -/

/-- What came of a rule that failed. -/
structure Failure where
  /-- the field -/
  field : Value
  /-- the text of the rule -/
  rule : String
  /-- the name of the predicate -/
  method : String
  /-- what the predicate wrote to the journal -/
  warnings : List Record
  /-- the message -/
  message : String

namespace Failure

/-- What the journal tells of a failure: the warnings of the predicate, the missing template if
there is none, and the failed rule. -/
def records (m : Composer) (form : Value) (f : Failure) : List Record :=
  f.warnings ++ (if m.templateFor f.method form = .ok none then [.noTemplate f.method] else []) ++
    [.ruleFailed f.rule form f.field]

/-- The warnings are reports of parameters by the predicate that the rule names. -/
def Warned (c : Catalog) (f : Failure) : Prop :=
  ∃ d, c.resolve f.method = some d ∧ ∀ r ∈ f.warnings, r.Reports d.name

end Failure

namespace Run

/-- What a rule comes to: nothing if it passes, or else its failure. -/
def judgeRule (respond : (q : Request) → Run q.Reply) (e : Engine) (c : Catalog) (m : Composer)
    (here : Context) (value : Value) (text : String) : Run (Option Failure) := do
  let (prepared, definition) ← e.readRule c text
  let (passed, warnings) ←
    ((definition.call value prepared.parameters (some here)).run respond).offRecord
  if passed then
    return none
  else
    let message ← (m.compose prepared.method prepared.parameters here.form here.field).2
    return some ⟨here.field, text, prepared.method, warnings, message⟩

/-- A field with the failures of its rules. -/
def judgeField (respond : (q : Request) → Run q.Reply) (name : String) (e : Engine) (c : Catalog)
    (m : Composer) (form : Value) (f : Value × List String) : Run (Value × List Failure) := do
  modify (setCursor name (some ⟨form, f.1⟩))
  let value ← readField e.accessor form f.1
  let verdicts ← f.2.mapM (judgeRule respond e c m ⟨form, f.1⟩ value)
  return (f.1, verdicts.reduceOption)

/-- The fields that are declared for a form, each with the failures of its rules. -/
def failures (respond : (q : Request) → Run q.Reply) (name : String) (e : Engine) (c : Catalog)
    (m : Composer) (form : Value) (declared : FieldRules) : Run (List (Value × List Failure)) := do
  modify (setCursor name (some ⟨form, .null⟩))
  declared.entries.mapM (judgeField respond name e c m form)

end Run

/-! ## The run beside the walk -/

/-- The catalog and the composer of the engine. -/
structure Engine.Equipped (e : Engine) (c : Catalog) (m : Composer) (w : World) : Prop where
  catalog : w.catalogs.get? e.catalog = some c
  composer : w.composers.get? e.composer = some m

namespace Engine.Equipped

variable {e : Engine} {c : Catalog} {m : Composer} {w v : World}

theorem congr (h : e.Equipped c m w) (hv : (v.catalogs, v.composers) = (w.catalogs, w.composers)) :
    e.Equipped c m v := by
  obtain ⟨hcatalogs, hcomposers⟩ := Prod.mk.inj hv
  exact ⟨hcatalogs ▸ h.catalog, hcomposers ▸ h.composer⟩

theorem updateEngine (h : e.Equipped c m w) (name : String) (f : Engine → Engine) :
    e.Equipped c m (w.updateEngine name f) :=
  h.congr (by simp)

end Engine.Equipped

namespace Run

/-- Begun with any journal, the run comes to the same as the reference, in the same world but for
the journal. To this the run has added records, none of which says that a run is complete, and
result and records are what the result of the reference tells. -/
def Tells (At : World → Prop) (T : α → List Record → β → Prop) (r : Run α) (s : Run β) : Prop :=
  ∀ w journal, At w → ∃ records, (∀ x ∈ records, ¬x.IsFinished) ∧
    match s w with
    | (.ok b, v) =>
      At v ∧ ∃ a, r (w.withJournal journal) = (.ok a, v.withJournal (journal ++ records)) ∧
        T a records b
    | (.error fault, _) => ∃ u, r (w.withJournal journal) = (.error fault, u) ∧
        u.journal = journal ++ records

/-- The result is that of the reference, and there are no records. -/
def Silently (a : α) (records : List Record) (b : α) : Prop := a = b ∧ records = []

variable {At : World → Prop}

theorem Tells.pure {T : α → List Record → β → Prop} {a : α} {b : β} (h : T a [] b) :
    Tells At T (Pure.pure a : Run α) (Pure.pure b : Run β) := by
  intro w journal hw
  refine ⟨[], by simp, hw, a, ?_, h⟩
  rw [List.append_nil]
  rfl

theorem Tells.imp {T T' : α → List Record → β → Prop} {r : Run α} {s : Run β} (h : Tells At T r s)
    (hT : ∀ a records b, T a records b → T' a records b) : Tells At T' r s := by
  intro w journal hw
  obtain ⟨records, hrecords, hrun⟩ := h w journal hw
  refine ⟨records, hrecords, ?_⟩
  rcases hs : s w with ⟨fault | b, v⟩ <;> rw [hs] at hrun
  · exact hrun
  · obtain ⟨hv, a, hr, ha⟩ := hrun
    exact ⟨hv, a, hr, hT a records b ha⟩

theorem Tells.bind {T : α → List Record → β → Prop} {T' : γ → List Record → δ → Prop} {r : Run α}
    {s : Run β} {f : α → Run γ} {g : β → Run δ} (hrs : Tells At T r s)
    (hfg : ∀ a records b, T a records b →
      Tells At (fun c later d => T' c (records ++ later) d) (f a) (g b)) :
    Tells At T' (r >>= f) (s >>= g) := by
  intro w journal hw
  obtain ⟨records, hrecords, h⟩ := hrs w journal hw
  rcases hs : s w with ⟨fault | b, v⟩ <;> rw [hs] at h
  · obtain ⟨u, hr, hu⟩ := h
    refine ⟨records, hrecords, ?_⟩
    rw [bind_of_error hs]
    exact ⟨u, bind_of_error hr, hu⟩
  · obtain ⟨hv, a, hr, ha⟩ := h
    obtain ⟨later, hlater, h⟩ := hfg a records b ha v (journal ++ records) hv
    refine ⟨records ++ later, fun x hx => (List.mem_append.mp hx).elim (hrecords x) (hlater x), ?_⟩
    rw [bind_of_ok hs, bind_of_ok hr, ← List.append_assoc]
    exact h

/-- Both begin with the same run, which has nothing to do with the journal. -/
theorem Tells.after {T : γ → List Record → δ → Prop} {r : Run α} {f : α → Run γ} {g : α → Run δ}
    (hr : Tells At Silently r r) (hfg : ∀ a, Tells At T (f a) (g a)) :
    Tells At T (r >>= f) (r >>= g) := by
  refine hr.bind ?_
  rintro a records _ ⟨rfl, rfl⟩
  exact hfg a

theorem tells_of_mute {r : Run α} (hr : Mute r) (hAt : ∀ w, At w → At (r w).2) :
    Tells At Silently r r := by
  intro w journal hw
  refine ⟨[], by simp, ?_⟩
  have hw' := hr w journal
  have hAt' := hAt w hw
  rcases hrun : r w with ⟨fault | a, v⟩ <;> rw [hrun] at hw' hAt'
  · exact ⟨_, hw', (List.append_nil journal).symm⟩
  · refine ⟨hAt', a, ?_, rfl, rfl⟩
    rw [List.append_nil]
    exact hw'

/-- A change of the world afterwards that has nothing to do with the journal. -/
theorem Tells.andThen {T : α → List Record → β → Prop} {r : Run α} {s : Run β} {f : World → World}
    (hrs : Tells At T r s) (hf : Mute (modify f)) (hAt : ∀ w, At w → At (f w)) :
    Tells At T (r.andThen f) (s.andThen f) := by
  have hf' (w : World) (journal : List Record) :
      f (w.withJournal journal) = (f w).withJournal journal :=
    congrArg Prod.snd (hf w journal)
  have hjournal (w : World) : (f w).journal = w.journal := hf.fixes_journal w
  intro w journal hw
  obtain ⟨records, hrecords, h⟩ := hrs w journal hw
  refine ⟨records, hrecords, ?_⟩
  unfold Run.andThen
  rcases hs : s w with ⟨fault | b, v⟩ <;> rw [hs] at h
  · obtain ⟨u, hr, hu⟩ := h
    refine ⟨f u, by rw [hr], ?_⟩
    rw [hjournal, hu]
  · obtain ⟨hv, a, hr, ha⟩ := h
    refine ⟨hAt v hv, a, ?_, ha⟩
    rw [hr]
    exact congrArg (Prod.mk (Except.ok a)) (hf' v _)

/-- A record before everything else. -/
theorem Tells.log {T : α → List Record → β → Prop} {r : Run α} {s : Run β} {record : Record}
    (hrecord : ¬record.IsFinished) (hrs : Tells At (fun a later b => T a (record :: later) b) r s) :
    Tells At T (Run.log record >>= fun _ => r) s := by
  intro w journal hw
  obtain ⟨later, hlater, h⟩ := hrs w (journal ++ [record]) hw
  rw [List.append_assoc] at h
  exact ⟨record :: later, List.forall_mem_cons.mpr ⟨hrecord, hlater⟩, h⟩

section

variable {e : Engine} {c : Catalog} {m : Composer} {respond : (q : Request) → Run q.Reply}

/-- Requests are answered as in a run of an engine. -/
def Customary (respond : (q : Request) → Run q.Reply) : Prop :=
  ∃ r form passes, respond = Run.respond (readField r form) passes

/-- Requests that start no run have nothing to do with the journal. -/
theorem Customary.mute (h : Customary respond) {q : Request} (hq : ¬q.StartsRun) :
    Mute (respond q) := by
  obtain ⟨r, form, passes, rfl⟩ := h
  exact mute_respond (fun field => mute_readField r form field) passes hq

/-- They change neither catalogs nor composers. -/
theorem Customary.fixes (h : Customary respond) {q : Request} (hq : ¬q.StartsRun) :
    Fixes (fun w => (w.catalogs, w.composers)) (respond q) := by
  obtain ⟨r, form, passes, rfl⟩ := h
  exact fixes_shelves (fun field => reads_readField r form field) passes hq

/-- What a predicate writes to a journal of its own are its reports, and nothing if it passes. -/
theorem reports_of_call (hrespond : Customary respond) {d : Definition}
    (hd : d ∈ Catalog.builtinDefinitions ∨ d.Discreet) (value : Value) (parameters : List Value)
    (here : Context) {w v : World} {result : Attempt Bool}
    (h : (d.call value parameters (some here)).run respond (w.withJournal []) = (result, v)) :
    (∀ r ∈ v.journal, r.Reports d.name) ∧ (result = .ok true → v.journal = []) := by
  rcases hd with hd | hd
  · obtain ⟨r, form, passes, rfl⟩ := hrespond
    obtain ⟨notes, hrun⟩ :=
      (Catalog.asks_builtin hd).run_call r (w.withJournal []) passes form value parameters
        (some here)
    obtain ⟨rfl, rfl⟩ := Prod.mk.inj (h.symm.trans hrun)
    exact Catalog.candid_builtin hd value parameters (some here) _
  · have hcall : (d.call value parameters (some here)).Discreet :=
      (hd _ _ _).bind fun _ => .result _
    have hjournal := hcall.fixes_journal (fun _ hq => hrespond.mute hq) (w.withJournal [])
    rw [h] at hjournal
    have hnil : v.journal = [] := hjournal
    rw [hnil]
    exact ⟨by simp, fun _ => rfl⟩

theorem tells_call (hrespond : Customary respond) {d : Definition}
    (hd : d ∈ Catalog.builtinDefinitions ∨ d.Discreet) (value : Value) (parameters : List Value)
    (here : Context) :
    Tells (e.Equipped c m)
      (fun passed records found => found = (passed, records) ∧ (∀ r ∈ records, r.Reports d.name) ∧
        (passed = true → records = []))
      ((d.call value parameters (some here)).run respond)
      ((d.call value parameters (some here)).run respond).offRecord := by
  intro w journal hw
  have hasks : (d.call value parameters (some here)).Asks fun q => ¬q.StartsRun := by
    refine Definition.asks_call (fun value parameters context => ?_) value parameters _
    rcases hd with hd | hd
    · refine (Catalog.asks_builtin hd value parameters context).mono fun q hq hruns => ?_
      cases q with
      | passes name form => exact hq
      | _ => exact hruns
    · exact (hd value parameters context).asks
  have happends := hasks.appends (fun _ hq => hrespond.mute hq) w journal
  have hfixes := hasks.fixes (fun _ hq => hrespond.fixes hq) (fun _ _ _ => rfl) (w.withJournal [])
  have hreports := @reports_of_call _ hrespond d hd value parameters here w
  unfold offRecord
  rcases hcall : (d.call value parameters (some here)).run respond (w.withJournal [])
    with ⟨fault | passed, v⟩
  · rw [hcall] at happends
    obtain ⟨hjournal, -⟩ := hreports hcall
    exact ⟨v.journal, fun x hx => (hjournal x hx).not_finished, _, happends, rfl⟩
  · rw [hcall] at happends hfixes
    obtain ⟨hjournal, hpassed⟩ := hreports hcall
    exact ⟨v.journal, fun x hx => (hjournal x hx).not_finished, hw.congr hfixes, passed, happends,
      rfl, hjournal, fun h => hpassed (by rw [h])⟩

/-- The name and the parameters of a rule are read alike. -/
theorem tells_resolve (text : String) :
    Tells (e.Equipped c m) (fun a records b => Silently a records b ∧
      c.resolve a.1.method = some a.2)
      (resolve e text) (liftM (e.readRule c text)) := by
  intro w journal hw
  refine ⟨[], by simp, ?_⟩
  have hresolve : resolve e text (w.withJournal journal) =
      (e.readRule c text, w.withJournal journal) := by
    refine Prod.ext ?_ (reads_resolve e text _)
    have hcatalog : (w.withJournal journal).catalogs.get? e.catalog = some c := hw.catalog
    rw [resolve_fst, hcatalog]
    rfl
  have hread : (liftM (e.readRule c text) : Run (PreparedRule × Definition)) w =
      (e.readRule c text, w) := rfl
  rw [hread, hresolve, List.append_nil]
  rcases hrule : e.readRule c text with fault | ⟨prepared, d⟩
  · exact ⟨_, rfl, rfl⟩
  · obtain ⟨prepared', -, hrule⟩ := eq_ok_of_bind hrule
    obtain ⟨d', hd, hrule⟩ := eq_ok_of_bind hrule
    obtain ⟨rfl, rfl⟩ := Prod.mk.inj (Except.ok.inj hrule)
    exact ⟨hw, _, rfl, ⟨rfl, rfl⟩, (c.lookUp_eq_ok_iff _ _).mp hd⟩

/-- The template is looked for, and its absence is recorded. -/
theorem compose_fst {method : String} {form : Value} {parameters : List Value} {field : Value}
    {message : String} (h : (m.compose method parameters form field).2 = .ok message) :
    (m.compose method parameters form field).1 =
      if m.templateFor method form = .ok none then [.noTemplate method] else [] := by
  unfold Composer.compose at h ⊢
  rcases htemplate : m.templateFor method form with fault | _ | template
  · simp only [htemplate] at h
    cases h
  · rfl
  · rfl

/-- A rule that fails adds its message, and is recorded together with a missing template. -/
theorem tells_reject (here : Context) (text : String) (prepared : PreparedRule)
    (warnings : List Record)
    (errors : Errors) :
    Tells (e.Equipped c m)
      (fun errors' records (found : Option Failure) => ∃ f, found = some f ∧
        f.method = prepared.method ∧
        f.warnings = warnings ∧ errors' = errors.addAll (errorKey here.field) [f.message] ∧
        warnings ++ records = f.records m here.form)
      (reject e here text prepared errors)
      (do
        let message ← (m.compose prepared.method prepared.parameters here.form here.field).2
        return some ⟨here.field, text, prepared.method, warnings, message⟩) := by
  intro w journal hw
  have hcomposer : composer e.composer (w.withJournal journal) =
      (.ok m, w.withJournal journal) := by
    change (known e.composer.name (w.composers.get? e.composer), _) = _
    rw [hw.composer]
    rfl
  unfold reject
  rw [bind_of_ok hcomposer]
  have hfirst (r : Record)
      (hr : r ∈ (m.compose prepared.method prepared.parameters here.form here.field).1) :
      ¬r.IsFinished := by
    unfold Composer.compose at hr
    split at hr
    · cases hr
    · obtain rfl := List.mem_singleton.mp hr
      exact id
    · cases hr
  rcases hmessage : (m.compose prepared.method prepared.parameters here.form here.field).2
    with fault | message
  · refine ⟨_, hfirst, w.withJournal (journal ++ _), ?_, rfl⟩
    simp only [bind_apply, logAll, modify_apply, hmessage]
    rfl
  · refine ⟨(m.compose prepared.method prepared.parameters here.form here.field).1 ++
      [.ruleFailed text here.form here.field], ?_, hw, _, ?_, _, rfl, rfl, rfl, rfl, ?_⟩
    · intro r hr
      rcases List.mem_append.mp hr with hr | hr
      · exact hfirst r hr
      · obtain rfl := List.mem_singleton.mp hr
        exact id
    · simp only [bind_apply, logAll, log, modify_apply, hmessage]
      rw [← List.append_assoc]
      rfl
    · rw [compose_fst hmessage, Failure.records, List.append_assoc]

/-- What the verdicts on some rules of a field tell: the messages that are added to the errors, and
the records. -/
def Told (c : Catalog) (m : Composer) (form field : Value) (errors errors' : Errors)
    (records : List Record)
    (failed : List Failure) : Prop :=
  errors' = errors.addAll (errorKey field) (failed.map Failure.message) ∧
    records = failed.flatMap (Failure.records m form) ∧ ∀ f ∈ failed, f.Warned c

/-- A rule that passes leaves no record, and one that fails those of its failure. -/
theorem tells_rule (hc : c.Discreet) (hrespond : Customary respond) (here : Context) (value : Value)
    (text : String) (errors : Errors) :
    Tells (e.Equipped c m)
      (fun errors' records verdict =>
        Told c m here.form here.field errors errors' records verdict.toList)
      (rule respond e here value text errors) (judgeRule respond e c m here value text) := by
  refine (tells_resolve text).bind ?_
  rintro ⟨prepared, d⟩ records _ ⟨⟨rfl, rfl⟩, hd⟩
  refine (tells_call hrespond (hc _ d hd) value prepared.parameters here).bind ?_
  rintro passed warnings _ ⟨rfl, hwarnings, hpassed⟩
  cases passed with
  | true =>
    obtain rfl := hpassed rfl
    exact Tells.pure ⟨rfl, rfl, by simp⟩
  | false =>
    refine (tells_reject here text prepared warnings errors).imp ?_
    rintro errors' records _ ⟨f, rfl, hmethod, rfl, rfl, hf⟩
    refine ⟨rfl, ?_, ?_⟩
    · simpa using hf
    · simpa using ⟨d, hmethod ▸ hd, hwarnings⟩

theorem Told.append {form field : Value} {errors errors' errors'' : Errors}
    {records later : List Record}
    {failed more : List Failure} (h : Told c m form field errors errors' records failed)
    (h' : Told c m form field errors' errors'' later more) :
    Told c m form field errors errors'' (records ++ later) (failed ++ more) := by
  obtain ⟨rfl, rfl, hwarned⟩ := h
  obtain ⟨rfl, rfl, hwarned'⟩ := h'
  refine ⟨?_, List.flatMap_append.symm,
    fun f hf => (List.mem_append.mp hf).elim (hwarned f) (hwarned' f)⟩
  rw [List.map_append, Errors.addAll_append]

/-- The rules of a field leave the records of their failures, in order. -/
theorem tells_rules (hc : c.Discreet) (hrespond : Customary respond) (here : Context)
    (value : Value)
    (texts : List String) (errors : Errors) :
    Tells (e.Equipped c m)
      (fun errors' records verdicts =>
        Told c m here.form here.field errors errors' records verdicts.reduceOption)
      (rules respond e here value texts errors)
        (texts.mapM (judgeRule respond e c m here value)) := by
  induction texts generalizing errors with
  | nil => exact Tells.pure ⟨rfl, rfl, nofun⟩
  | cons text texts ih =>
    rw [List.mapM_cons]
    refine (tells_rule hc hrespond here value text errors).bind
      fun errors' records verdict hfirst => ?_
    rw [← bind_pure (rules respond e here value texts errors')]
    refine (ih errors').bind fun errors'' later verdicts hrest => Tells.pure ?_
    rw [List.append_nil]
    have hall := hfirst.append hrest
    rwa [show verdict.toList ++ verdicts.reduceOption = (verdict :: verdicts).reduceOption by
      cases verdict <;> rfl] at hall

/-- The fields of a form with their failures tell the errors and the records. -/
def ToldFields (c : Catalog) (m : Composer) (form : Value) (declared : List (Value × List String))
    (errors errors' : Errors) (records : List Record) (found : List (Value × List Failure)) :
    Prop :=
  errors' = errors.ofFields (found.map fun f => (f.1, f.2.map Failure.message)) ∧
    records = (found.flatMap Prod.snd).flatMap (Failure.records m form) ∧
    found.map Prod.fst = declared.map Prod.fst ∧ ∀ f ∈ found.flatMap Prod.snd, f.Warned c

/-- The fields of a form leave the records of their failures, in order. -/
theorem tells_fields (hc : c.Discreet) (hrespond : Customary respond) (name : String) (form : Value)
    (declared : List (Value × List String)) (errors : Errors) :
    Tells (e.Equipped c m) (ToldFields c m form declared errors)
      (fields respond name e form declared errors)
      (declared.mapM (judgeField respond name e c m form)) := by
  induction declared generalizing errors with
  | nil => exact Tells.pure ⟨rfl, rfl, rfl, by simp⟩
  | cons entry rest ih =>
    obtain ⟨field, texts⟩ := entry
    rw [List.mapM_cons]
    simp only [judgeField, bind_assoc, pure_bind]
    refine Tells.after (tells_of_mute (mute_updateEngine name _) fun w hw =>
      hw.updateEngine name _) fun _ => ?_
    have hread (w : World) : (readField e.accessor form field w).2 = w := reads_readField _ _ _ w
    refine Tells.after (tells_of_mute (mute_readField e.accessor form field) fun w hw =>
      ?_) fun value => ?_
    · rw [hread]
      exact hw
    refine (tells_rules hc hrespond ⟨form, field⟩ value texts errors).bind ?_
    rintro errors' records verdicts ⟨rfl, rfl, hwarned⟩
    rw [← bind_pure (fields respond name e form rest _)]
    refine (ih _).bind ?_
    rintro errors'' later found ⟨rfl, rfl, hfields, hfound⟩
    refine Tells.pure ⟨rfl, ?_, congrArg (field :: ·) hfields, ?_⟩
    · simp
    · simpa [or_imp, forall_and] using ⟨hwarned, by simpa using hfound⟩

/-- The beginning of a run and what is found. -/
theorem tells_begun (hc : c.Discreet) (depth : Nat) (name : String) (form : Value)
    (declared : FieldRules) :
    Tells (e.Equipped c m)
      (fun errors records found => ∃ later, records = .started form declared.size :: later ∧
        ToldFields c m form declared.entries ∅ errors later found)
      (do
        log (.started form declared.size)
        collect (passes depth) name e form declared)
      ((failures (Run.respond (readField e.accessor form) (passes depth)) name e c m form
        declared).andThen
        (setCursor name e.cursor)) := by
  have hcursor (cursor : Option Context) : Mute (modify (setCursor name cursor)) :=
    mute_updateEngine name _
  have hequipped (cursor : Option Context) (w : World) (hw : e.Equipped c m w) :
      e.Equipped c m (setCursor name cursor w) :=
    hw.updateEngine name _
  refine Tells.log id ?_
  refine Tells.andThen (Tells.after (tells_of_mute (hcursor _) (hequipped _)) fun _ => ?_)
    (hcursor _)
    (hequipped _)
  refine (tells_fields hc ⟨_, _, _, rfl⟩ name form declared.entries ∅).imp ?_
  exact fun errors later found h => ⟨later, rfl, h⟩

end

theorem journal_updateEngine (w : World) (name : String) (f : Engine → Engine) :
    (w.updateEngine name f).journal = w.journal :=
  (mute_updateEngine name f).fixes_journal w

/-- The messages of named fields, one field after the other. -/
theorem messages_ofFields {found : List (Value × List Failure)}
    {declared : List (Value × List String)}
    (hnamed : Named declared) (hfields : found.map Prod.fst = declared.map Prod.fst) :
    (Errors.ofFields ∅ (found.map fun f => (f.1, f.2.map Failure.message))).entries.flatMap
      Prod.snd =
      (found.flatMap Prod.snd).map Failure.message := by
  have hfound : Named ([] ++ found.map fun f => (f.1, f.2.map Failure.message)) := by
    refine hnamed.of_map_fst ?_
    rw [List.nil_append, List.map_map]
    exact hfields
  have hnonempty (fields : List (Value × List String)) :
      (fields.filter fun f => !f.2.isEmpty).flatMap Prod.snd = fields.flatMap Prod.snd := by
    induction fields with
    | nil => rfl
    | cons f fields ih =>
      obtain ⟨field, _ | ⟨message, messages⟩⟩ := f
      · exact ih
      · exact congrArg ((message :: messages) ++ ·) ih
  rw [show (∅ : Errors) = ⟨[]⟩ from rfl, Errors.ofFields_eq hfound, List.nil_append, hnonempty,
    List.flatMap_map, List.map_flatMap]

/-- **The journal tells the report.** Let the predicates of an engine be built in, or write nothing
to the journal and start no other run. If a run is complete, the journal has gained the beginning of
the run with the number of its fields, the records of each rule that failed, in order, and the end
with the number of fields that have errors. The rules that failed are those of the walk, each with
what its predicate reported; their messages are what the errors are made of, and, where the fields
have names, the messages of the report in order. If the run raises, the journal does not say that it
is complete. -/
theorem journal_tells_report {w : World} {name : String} {e : Engine} {c : Catalog} {m : Composer}
    (he : w.engines.get? name = some e) (hequipped : e.Equipped c m w) (hc : c.Discreet)
    (depth : Nat)
    (form : Value) :
    (∀ report w', validate (depth + 1) name form w = (.ok report, w') →
      ∃ declared found, e.fieldsOf form = .ok declared ∧
        (failures (respond (readField e.accessor form) (passes depth)) name e c m form declared
          w).1 =
          .ok found ∧
        w'.journal = w.journal ++ .started form declared.size ::
          (found.flatMap Prod.snd).flatMap (Failure.records m form) ++
            [.finished form report.errors.size] ∧
        (∀ f ∈ found.flatMap Prod.snd, f.Warned c) ∧
        report.errors = Errors.ofFields ∅ (found.map fun f => (f.1, f.2.map Failure.message)) ∧
        (Named declared.entries →
          report.errors.entries.flatMap Prod.snd = (found.flatMap Prod.snd).map Failure.message)) ∧
    (∀ fault w', validate (depth + 1) name form w = (.error fault, w') →
      ∃ records, w'.journal = w.journal ++ records ∧ ∀ r ∈ records, ¬r.IsFinished) := by
  have hengine : engine name w = (.ok e, w) := by
    rw [engine_apply, he]
    rfl
  have hvalidate : validate (depth + 1) name form w =
      (reportBy (passes depth) name form >>= fun report => modify (publish name report) >>= fun _ =>
        pure report) w := rfl
  rw [hvalidate]
  cases hdeclared : e.fieldsOf form with
  | error fault =>
    have hreport : reportBy (passes depth) name form w = (.error fault, w) := by
      unfold reportBy
      rw [bind_of_ok hengine, hdeclared]
      rfl
    rw [bind_of_error hreport]
    refine ⟨nofun, fun fault' w' h => ⟨[], ?_, by simp⟩⟩
    rw [← (Prod.mk.inj h).2, List.append_nil]
  | ok declared =>
    obtain ⟨records, hrecords, h⟩ :=
      tells_begun (e := e) (m := m) hc depth name form declared w w.journal
      hequipped
    have hreport : reportBy (passes depth) name form w =
        ((log (.started form declared.size) >>= fun _ =>
          collect (passes depth) name e form declared) >>=
          fun errors => log (.finished form errors.size) >>= fun _ => pure ⟨form, errors⟩) w := by
      unfold reportBy
      rw [bind_of_ok hengine, hdeclared]
      rfl
    unfold Run.andThen at h
    rcases hfailures : failures
      (respond (readField e.accessor form) (passes depth)) name e c m form declared w
      with ⟨fault | found, v⟩ <;> rw [hfailures] at h
    · obtain ⟨u, hrun, hjournal⟩ := h
      rw [bind_of_error (hreport.trans (bind_of_error hrun))]
      refine ⟨nofun, fun fault' w' h => ⟨records, ?_, hrecords⟩⟩
      rw [← (Prod.mk.inj h).2, hjournal]
    · obtain ⟨-, errors, hrun, later, rfl, rfl, rfl, hfields, hwarned⟩ := h
      rw [bind_of_ok (hreport.trans (bind_of_ok hrun))]
      refine ⟨fun report w' h => ?_, nofun⟩
      obtain ⟨hresult, rfl⟩ := Prod.mk.inj h
      obtain rfl := Except.ok.inj hresult
      refine ⟨declared, found, rfl, congrArg Prod.fst hfailures, ?_, hwarned, rfl, fun hnamed =>
        messages_ofFields hnamed hfields⟩
      exact journal_updateEngine _ name _

end Run

namespace Logged

open Run

/-- A limit is missing, a predicate has no template, and one form raises after its first rule has
failed. -/
def engine : Engine where
  config := {}
  rules := ⟨[(.text "signup",
    ⟨[(.text "age", ["min", "never"]), (.text "mail", ["required", "always"])]⟩),
    (.text "broken", ⟨[(.text "age", ["never", "boom"])]⟩)]⟩
  accessor := ⟨"values", 0⟩
  catalog := ⟨"catalog", 0⟩
  composer := ⟨"composer", 0⟩

def catalog : Catalog := .ofList (Catalog.builtinDefinitions ++
  [{ name := "always", body := Probe.always.predicate "e" },
    { name := "never", body := Probe.never.predicate "e" },
    { name := "boom", body := Probe.boom.predicate "e" }])

def composer : Composer := ⟨⟨[(.text "min", "Too small."), (.text "required", "Needed.")]⟩, ∅⟩

def values : Accessor :=
  .table ⟨[(.text "signup", ⟨[(.text "age", .bool true), (.text "mail", .text "")]⟩),
    (.text "broken", ⟨[(.text "age", .bool true)]⟩)]⟩

def world : World where
  accessors := Shelf.put ∅ ⟨"values", 0⟩ values
  catalogs := Shelf.put ∅ ⟨"catalog", 0⟩ catalog
  composers := Shelf.put ∅ ⟨"composer", 0⟩ composer
  engines := Table.set ∅ "e" engine
  journal := []
  notes := []

theorem discreet : catalog.Discreet := by
  intro method d hd
  have hmem := (Catalog.mem_of_resolve_ofList hd).1
  simp only [List.mem_append, List.mem_cons, List.not_mem_nil, or_false] at hmem
  rcases hmem with hbuiltin | rfl | rfl | rfl
  · exact .inl hbuiltin
  · exact .inr fun _ _ _ => .result _
  · exact .inr fun _ _ _ => .result _
  · exact .inr fun _ _ _ => .result _

/-- The run on the one form is complete, and its journal tells of three rules; the run on the other
raises. -/
theorem tells_signup :
    (∃ report w', validate 1 "e" (.text "signup") world = (.ok report, w') ∧
      w'.journal = [.started (.text "signup") 2,
        .malformed "min" .null, .ruleFailed "min" (.text "signup") (.text "age"),
        .noTemplate "never", .ruleFailed "never" (.text "signup") (.text "age"),
        .ruleFailed "required" (.text "signup") (.text "mail"),
        .finished (.text "signup") 2] ∧
      report.errors.entries.flatMap Prod.snd =
        ["Too small.", "This field failed the never validation.", "Needed."]) ∧
    ∃ w' records, validate 1 "e" (.text "broken") world = (.error .raised, w') ∧
      w'.journal = [] ++ records ∧ ∀ r ∈ records, ¬r.IsFinished := by
  have hequipped : engine.Equipped catalog composer world := ⟨rfl, rfl⟩
  have hsignup : (validate 1 "e" (.text "signup") world).1 = .ok ⟨.text "signup",
      ⟨[(.text "age", ["Too small.", "This field failed the never validation."]),
        (.text "mail", ["Needed."])]⟩⟩ := rfl
  have hbroken : (validate 1 "e" (.text "broken") world).1 = .error .raised := rfl
  constructor
  · obtain ⟨declared, found, hdeclared, hfound, hjournal, -⟩ :=
      (journal_tells_report (e := engine) rfl hequipped discreet 0 (.text "signup")).1 _ _
        (Prod.ext hsignup rfl)
    obtain rfl := Except.ok.inj hdeclared
    have hfailures : (failures
        (respond (readField engine.accessor (.text "signup")) (passes 0)) "e" engine
        catalog composer (.text "signup")
        ⟨[(.text "age", ["min", "never"]), (.text "mail", ["required", "always"])]⟩ world).1 =
        .ok [(.text "age", [⟨.text "age", "min", "min", [.malformed "min" .null], "Too small."⟩,
            ⟨.text "age", "never", "never", [], "This field failed the never validation."⟩]),
          (.text "mail", [⟨.text "mail", "required", "required", [], "Needed."⟩])] := rfl
    obtain rfl := Except.ok.inj (hfound.symm.trans hfailures)
    exact ⟨_, _, Prod.ext hsignup rfl, hjournal.trans rfl, rfl⟩
  · obtain ⟨records, hjournal, hrecords⟩ :=
      (journal_tells_report (e := engine) rfl hequipped discreet 0 (.text "broken")).2 _ _
        (Prod.ext hbroken rfl)
    exact ⟨_, records, Prod.ext hbroken rfl, hjournal, hrecords⟩

end Logged

end FormRules
