import FormRules.Predicate.Probe
import FormRules.Proofs.Predicate.Asks
import FormRules.Proofs.Run.Mirror
import Mathlib.Data.Finset.Card
import Mathlib.Logic.Relation

/-!
# Nested runs

A predicate may validate another form of the engine that called it. The runs share the engine: its
cursor, and the report that it shows. None of this leaks into the outer run, as long as the
predicates do not let their decision depend on the reports that the engine shows: a run comes to
what it would come to if every nested run were made on a fresh engine of its own, and only its
outcome were handed back (`Run.validate_eq_composed`). If the forms do not validate each other in a
circle, that outcome is reached.

The worlds that such runs meet differ in two things only. Around a run they differ in where the
engine says it is and in its last report (`World.fresh`), and inside of it, where the cursor is
known, in the last report alone.
-/

namespace FormRules

open Run

variable {α : Type}

/-! ## What predicates see of nested runs -/

/-- The engine as it is before its first run. -/
def Engine.renewed (e : Engine) : Engine := { e with cursor := none, lastReport := none }

/-- The engine without its last report. -/
def Engine.unreported (e : Engine) : Engine := { e with lastReport := none }

/-- The world with an engine as it is before its first run. -/
def World.fresh (w : World) (name : String) : World := w.updateEngine name Engine.renewed

namespace World

/-- The worlds differ at most in where the engine is in its run and in its last report. -/
abbrev AlikeAround (name : String) : World → World → Prop :=
  Alike fun n e => if n = name then e.renewed else e

/-- The worlds differ at most in the last report of the engine. -/
abbrev AlikeInside (name : String) : World → World → Prop :=
  Alike fun n e => if n = name then e.unreported else e

end World

/-- A predicate may make the request without changing anything: it reads, or has the engine validate
a form. -/
def Request.Harmless (name : String) : Request → Prop
  | .sibling _ => True
  | .passes other _ => other = name
  | .observe _ => True
  | .assign .. => False
  | .declare _ _ => False

/-- Two answers that a predicate may get for a request while its engine is on a field: whatever
nested runs there were before, they have left no trace except for the last report of the engine. -/
def Glimpse (w : World) (name : String) (e : Engine) (here : Context) :
    (q : Request) → Attempt q.Reply → Attempt q.Reply → Prop
  | .passes _ _, a, b => a = b
  | q, a, b => ∃ u v, World.AlikeInside name (setCursor name (some here) w) u ∧
      World.AlikeInside name (setCursor name (some here) w) v ∧
      a = (respond (readField e.accessor here.form) (fun _ _ => pure true) q u).1 ∧
      b = (respond (readField e.accessor here.form) (fun _ _ => pure true) q v).1

/-- A field of the form is read as it is. -/
theorem glimpse_sibling {w : World} {name : String} {e : Engine} {here : Context} {field : Value}
    {a b : Attempt Value} (h : Glimpse w name e here (.sibling field) a b) : a = b := by
  obtain ⟨u, v, hu, hv, rfl, rfl⟩ := h
  exact (tandem_alike.readField e.accessor here.form field u v (hu.symm.trans hv)).1.eq

/-- Two sightings that a predicate may get show the same form and field. -/
theorem glimpse_observe {w : World} {name : String} {e : Engine} {here : Context} {n : String}
    {a b : Attempt Sighting} (h : Glimpse w name e here (.observe n) a b) :
    Matching (fun s s' => s.form = s'.form ∧ s.field = s'.field) a b := by
  obtain ⟨u, v, hu, hv, rfl, rfl⟩ := h
  have hmask := (hu.symm.trans hv).engines n
  change Matching _ ((engine n >>= fun e => pure e.sighting : Run Sighting) u).1
    ((engine n >>= fun e => pure e.sighting : Run Sighting) v).1
  rw [bind_apply, bind_apply, engine_apply, engine_apply]
  rcases hd : u.engines.get? n with _ | d <;> rcases hd' : v.engines.get? n with _ | d' <;>
    rw [hd, hd'] at hmask
  · exact .error _
  · cases hmask
  · cases hmask
  · have hcursor : d.cursor = d'.cursor := by
      have := congrArg Engine.cursor (Option.some.inj hmask)
      split at this
      · exact this
      · exact this
    refine .ok ⟨?_, ?_⟩
    · simp only [Engine.sighting, Engine.currentForm, hcursor]
    · simp only [Engine.sighting, Engine.currentField, hcursor]

/-- The check may make the request, if its earlier requests get answers that they can get. -/
inductive Check.MayAsk (Rep : (q : Request) → Attempt q.Reply → Attempt q.Reply → Prop)
    (q : Request) : Check α → Prop where
  | here {next : Attempt q.Reply → Check α} : MayAsk Rep q (.ask q next)
  | log {r : Record} {c : Check α} (h : MayAsk Rep q c) : MayAsk Rep q (.log r c)
  | note {entry : Value} {c : Check α} (h : MayAsk Rep q c) : MayAsk Rep q (.note entry c)
  | after {q' : Request} {next : Attempt q'.Reply → Check α} {a b : Attempt q'.Reply}
    (hab : Rep q' a b) (h : MayAsk Rep q (next a)) : MayAsk Rep q (.ask q' next)

/-- Parallel checks only make requests that the first of them may make. -/
theorem Check.Parallel.mayAsk {A : Request → Prop}
    {Rep : (q : Request) → Attempt q.Reply → Attempt q.Reply → Prop} {c d : Check α}
    (h : Parallel A Rep c d) : Parallel (fun q => A q ∧ c.MayAsk Rep q) Rep c d := by
  induction h with
  | result r => exact .result r
  | logLeft r h ih => exact .logLeft r (ih.mono fun q hq => ⟨hq.1, .log hq.2⟩)
  | logRight r h ih => exact .logRight r ih
  | noteLeft x h ih => exact .noteLeft x (ih.mono fun q hq => ⟨hq.1, .note hq.2⟩)
  | noteRight x h ih => exact .noteRight x ih
  | ask q hq h ih =>
    refine .ask q ⟨hq, .here⟩ fun a b hab => (ih a b hab).mono fun q' hq' => ?_
    exact ⟨hq'.1, .after hab hq'.2⟩

/-- Probes are harmless, but for those that write fields and withdraw declarations. -/
theorem Probe.harmless {w : World} {name : String} {e : Engine} {here : Context} {p : Probe}
    (hset : p ≠ .set) (hundeclare : p ≠ .undeclare) (value : Value) (parameters : List Value)
    (context : Option Context) :
    (p.predicate name value parameters context).Parallel (Request.Harmless name)
      (Glimpse w name e here) (p.predicate name value parameters context) := by
  cases p with
  | always => exact .result _
  | never => exact .result _
  | truthy => exact .result _
  | spy => exact .note _ _ (.result _)
  | cursor =>
    refine .ask _ trivial fun a b hab => ?_
    cases glimpse_observe hab with
    | ok h => exact .note _ _ (.result _)
    | error fault => exact .result _
  | nested =>
    refine Check.Parallel.bind (.result _) fun form => .ask _ rfl fun a b hab => ?_
    obtain rfl : a = b := hab
    rcases a with fault | passed
    · exact .result _
    · refine .ask _ trivial fun a b hab => ?_
      cases glimpse_observe hab with
      | ok h => exact .note _ _ (.result _)
      | error fault => exact .result _
  | sibling =>
    rcases context with _ | here'
    · exact .result _
    · refine Check.Parallel.bind (.result _) fun field => .ask _ trivial fun a b hab => ?_
      obtain rfl := glimpse_sibling hab
      rcases a with fault | found
      · exact .result _
      · exact .note _ _ (.result _)
  | set => exact absurd rfl hset
  | undeclare => exact absurd rfl hundeclare
  | boom => exact .result _

/-! ## Forms that validate each other -/

namespace Engine

/-- A check that a run of the engine on a form may call for a field. -/
def MayCall (e : Engine) (w : World) (here : Context) (c : Check Bool) : Prop :=
  ∃ declared texts value, e.fieldsOf here.form = .ok declared ∧
    (here.field, texts) ∈ declared.entries ∧
    (readField e.accessor here.form here.field w).1 = .ok value ∧ e.Calls w here value texts c

/-- A rule of the first form may validate the second one. -/
def Validates (e : Engine) (w : World) (name : String) (form other : Value) : Prop :=
  ∃ field c, e.MayCall w ⟨form, field⟩ c ∧
    c.MayAsk (Glimpse w name e ⟨form, field⟩) (.passes name other)

/-- The place at which the engine declares a form; all others have the place behind the last. -/
def place (e : Engine) (form : Value) : Nat := e.rules.entries.findIdx fun entry => entry.1 == form

/-- A form at the first place may validate a form at the second. -/
def Nests (e : Engine) (w : World) (name : String) (i j : Nat) : Prop :=
  ∃ form other, e.place form = i ∧ e.place other = j ∧ e.Validates w name form other

end Engine

/-! ## Nested runs that leave no trace -/

section

variable {w : World} {name : String} {e : Engine}

namespace World

/-- Worlds that are alike inside of a run are so around it. -/
theorem alikeAround_of_inside {u v : World} (h : AlikeInside name u v) : AlikeAround name u v := by
  refine h.weaken fun n e e' hmask => ?_
  by_cases hn : n = name
  · rw [if_pos hn, if_pos hn] at hmask ⊢
    exact congrArg (fun e : Engine => { e with cursor := none }) hmask
  · rwa [if_neg hn, if_neg hn] at hmask ⊢

/-- Once the cursor is known, the worlds differ in the last report alone. -/
theorem alikeInside_setCursor {u v : World} (h : AlikeAround name u v) (cursor : Option Context) :
    AlikeInside name (setCursor name cursor u) (setCursor name cursor v) := by
  refine h.updateEngine (fun n hn => ?_) fun e e' hmask => ?_
  · funext e
    rw [if_neg hn, if_neg hn]
  · rw [if_pos rfl, if_pos rfl] at hmask ⊢
    exact congrArg (fun e : Engine => { e with cursor := cursor }) hmask

/-- Around a run it does not matter where the engine says it is. -/
theorem alikeAround_setCursor (w : World) (cursor : Option Context) :
    AlikeAround name w (setCursor name cursor w) := by
  refine Alike.updateEngine_right w fun e _ => ?_
  rw [if_pos rfl, if_pos rfl]
  rfl

/-- A report that is published can be seen in the last report only. -/
theorem alikeInside_publish (w : World) (report : Report) :
    AlikeInside name w (publish name report w) := by
  refine Alike.updateEngine_right w fun e _ => ?_
  rw [if_pos rfl, if_pos rfl]
  rfl

/-- An engine that has been in use is like a fresh one around its runs. -/
theorem alikeAround_fresh (w : World) : AlikeAround name w (w.fresh name) := by
  refine Alike.updateEngine_right w fun e _ => ?_
  rw [if_pos rfl, if_pos rfl]
  rfl

/-- Putting a cursor back where it was. -/
theorem alikeInside_back {u v : World} (h : AlikeAround name u v)
    (he : u.engines.get? name = some e) : AlikeInside name u (setCursor name e.cursor v) := by
  have hself : AlikeInside name u (setCursor name e.cursor u) := by
    refine Alike.updateEngine_right u fun e' he' => ?_
    rw [he] at he'
    rw [Option.some.inj he']
  exact hself.trans (alikeInside_setCursor h e.cursor)

/-- Alike worlds have kindred engines. -/
theorem kin_of_alikeAround {u v : World} (h : AlikeAround name u v)
    (he : u.engines.get? name = some e) : ∃ e', v.engines.get? name = some e' ∧ e.Kin e' := by
  have hmask := h.engines name
  rw [he] at hmask
  rcases he' : v.engines.get? name with _ | e' <;> rw [he'] at hmask
  · cases hmask
  · refine ⟨e', rfl, e'.cursor, e'.lastReport, ?_⟩
    have hrenewed : e.renewed = e'.renewed := by
      simpa using Option.some.inj hmask
    exact (congrArg (fun renewed : Engine =>
      { renewed with cursor := e'.cursor, lastReport := e'.lastReport }) hrenewed).symm

end World

/-- A form validated in this way comes to the given outcome, and leaves no trace. -/
def Answers (w : World) (name : String) (passes : String → Value → Run Bool) (other : Value)
    (outcome : Attempt Bool) : Prop :=
  ∀ u, World.AlikeAround name w u →
    (passes name other u).1 = outcome ∧ World.AlikeInside name u (passes name other u).2

/-- Both worlds look like the one in which the engine is on a field. -/
def Inside (w : World) (name : String) (here : Context) (u v : World) : Prop :=
  World.AlikeInside name (setCursor name (some here) w) u ∧
    World.AlikeInside name (setCursor name (some here) w) v

/-- Worlds inside of the same run are a tandem. -/
theorem tandem_inside (w : World) (name : String) (here : Context) : Tandem (Inside w name here) :=
  tandem_of_alike (World.Alike.refl _ : World.Alike (fun _ e => e) _ _)

/-- Both worlds are like the one that the run began in. -/
theorem Inside.around {here : Context} {u v : World} (h : Inside w name here u v) :
    World.AlikeAround name w u ∧ World.AlikeAround name w v :=
  ⟨(World.alikeAround_setCursor w _).trans (World.alikeAround_of_inside h.1),
    (World.alikeAround_setCursor w _).trans (World.alikeAround_of_inside h.2)⟩

variable {passes passes' : String → Value → Run Bool}

/-- Harmless requests are answered alike, if nested runs come to the same outcomes. -/
theorem inStep_respond {here : Context} {q : Request} (hq : q.Harmless name)
    (hpasses : ∀ other, q = .passes name other →
      ∃ outcome, Answers w name passes other outcome ∧ Answers w name passes' other outcome) :
    InStep (Inside w name here) (Glimpse w name e here q) (Inside w name here)
      (respond (readField e.accessor here.form) passes q)
      (respond (readField e.accessor here.form) passes' q) := by
  cases q with
  | sibling field =>
    exact InStep.reads (reads_readField _ _ _) (reads_readField _ _ _) fun u v h =>
      ⟨u, v, h.1, h.2, rfl, rfl⟩
  | observe n =>
    have hreads : Reads (do return (← engine n).sighting : Run Sighting) :=
      (reads_engine n).bind fun _ => reads_pure _
    exact InStep.reads hreads hreads fun u v h => ⟨u, v, h.1, h.2, rfl, rfl⟩
  | passes n other =>
    obtain rfl : n = name := hq
    obtain ⟨outcome, hleft, hright⟩ := hpasses other rfl
    rintro u v h
    obtain ⟨hresult, hafter⟩ := hleft u h.around.1
    obtain ⟨hresult', hafter'⟩ := hright v h.around.2
    exact ⟨hresult.trans hresult'.symm, h.1.trans hafter, h.2.trans hafter'⟩
  | assign n form field v => exact hq.elim
  | declare n rules => exact hq.elim

variable {form : Value}

/-- What a run of the engine calls in a world that looks like this one, it may call in this one. -/
theorem mayCall_of_calls {u v : World} (hu : World.AlikeAround name w u)
    (hv : World.AlikeAround name w v) {field value : Value} {texts : List String}
    {declared : FieldRules} {c : Check Bool} (hdeclared : e.fieldsOf form = .ok declared)
    (hmem : (field, texts) ∈ declared.entries)
    (hvalue : (readField e.accessor form field u).1 = .ok value)
    (hcalls : e.Calls v ⟨form, field⟩ value texts c) : e.MayCall w ⟨form, field⟩ c := by
  obtain ⟨htext, hresolve⟩ := hcalls
  refine ⟨declared, texts, value, hdeclared, hmem, ?_, .mk htext ?_⟩
  · exact (tandem_alike.readField e.accessor form field w u hu).1.eq.trans hvalue
  · exact (tandem_alike.resolve e _ w v hv).1.eq.trans hresolve

variable (he : w.engines.get? name = some e)
  (hharmless : ∀ here c, e.MayCall w here c →
    c.Parallel (Request.Harmless name) (Glimpse w name e here) c)
  (hpasses : ∀ other, e.Validates w name form other →
    ∃ outcome, Answers w name passes other outcome ∧ Answers w name passes' other outcome)

include hharmless hpasses in
/-- A check that the run may call does not notice which way forms are validated. -/
theorem inStep_check {field : Value} {c : Check Bool} (hc : e.MayCall w ⟨form, field⟩ c) :
    InStep (Inside w name ⟨form, field⟩) (Matching Eq) (Inside w name ⟨form, field⟩)
      (c.run (respond (readField e.accessor form) passes))
      (c.run (respond (readField e.accessor form) passes')) := by
  refine (hharmless _ c hc).mayAsk.inStep (tandem_inside w name _) fun q hq => ?_
  refine inStep_respond hq.1 fun other hother => hpasses other ⟨field, c, hc, ?_⟩
  rw [← hother]
  exact hq.2

include he hharmless hpasses in
/-- Two ways to have forms validated that come to the same outcomes make no difference to a run, and
the run leaves no trace either. -/
theorem validateBy_eq_of_answers {u v : World} (hu : World.AlikeAround name w u)
    (hv : World.AlikeAround name w v) :
    (validateBy passes name form u).1 = (validateBy passes' name form v).1 ∧
      World.AlikeInside name u (validateBy passes name form u).2 := by
  have h₀ : Tandem fun u' v' => World.AlikeInside name u u' ∧ World.AlikeInside name v v' :=
    tandem_of_alike (hu.symm.trans hv)
  have hstep : InStep (fun u' v' => World.AlikeInside name u u' ∧ World.AlikeInside name v v')
      (Matching Eq) (fun u' v' => World.AlikeInside name u u' ∧ World.AlikeInside name v v')
      (validateBy passes name form) (validateBy passes' name form) := by
    refine inStep_validateBy (inStep_reportBy h₀ ?_) fun report u' v' h =>
      ⟨h.1.trans (World.alikeInside_publish u' report),
        h.2.trans (World.alikeInside_publish v' report)⟩
    -- the engines that are looked up differ in cursor and report from the one of `w`
    rintro u' v' ⟨hu', hv'⟩
    have hau := hu.trans (World.alikeAround_of_inside hu')
    have hav := hv.trans (World.alikeAround_of_inside hv')
    obtain ⟨d, hd, cursor, last, rfl⟩ := World.kin_of_alikeAround hau he
    obtain ⟨d', hd', cursor', last', rfl⟩ := World.kin_of_alikeAround hav he
    rw [hd, hd']
    refine .ok ⟨⟨cursor', last', rfl⟩, fun declared hdeclared => ?_⟩
    refine inStep_collect
      (K := fun x y => World.AlikeAround name w x ∧ World.AlikeAround name w y)
      (R := fun field => Inside w name ⟨form, field⟩) ⟨cursor', last', rfl⟩
      (fun _ => tandem_inside w name _) ?_ ?_ (fun _ _ _ h => h.around) ?_ declared ?_
    · rintro x y ⟨hx, hy⟩
      exact ⟨(hu.trans (World.alikeAround_of_inside hx)).trans (World.alikeAround_setCursor x _),
        (hv.trans (World.alikeAround_of_inside hy)).trans (World.alikeAround_setCursor y _)⟩
    · rintro field x y ⟨hx, hy⟩
      exact ⟨World.alikeInside_setCursor hx _, World.alikeInside_setCursor hy _⟩
    · rintro x y ⟨hx, hy⟩
      exact ⟨hu'.trans (World.alikeInside_back (hau.symm.trans hx) hd),
        hv'.trans (World.alikeInside_back (hav.symm.trans hy) hd')⟩
    · rintro field texts value hmem ⟨x, _, hxy, hvalue⟩ x' y' c hxy' hcalls
      obtain ⟨htext, hresolve⟩ := hcalls
      exact inStep_check hharmless hpasses
        (mayCall_of_calls hxy.around.1 hxy'.around.1 hdeclared hmem
        hvalue (.mk htext hresolve))
  obtain ⟨hresult, hafter⟩ := hstep u v ⟨.refl u, .refl v⟩
  exact ⟨hresult.eq, hafter.1⟩

end

/-! ## Composing outcomes -/

namespace Run

/-- What a run on a fresh engine comes to, if each nested run is replaced by its outcome. -/
def composed (w : World) (name : String) (ref : Value → Attempt Report) (form : Value) :
    Attempt Report :=
  (validateBy (fun _ other => liftM ((ref other).map Report.valid)) name form (w.fresh name)).1

section

variable {w : World} {name : String} {e : Engine} (he : w.engines.get? name = some e)
  (hharmless : ∀ here c, e.MayCall w here c →
    c.Parallel (Request.Harmless name) (Glimpse w name e here) c)

theorem answers_known (ref : Value → Attempt Report) (other : Value) :
    Answers w name (fun _ other => liftM ((ref other).map Report.valid)) other
      ((ref other).map Report.valid) :=
  fun u _ => ⟨rfl, .refl u⟩

include he hharmless in
/-- Only the outcomes of forms that the form validates matter. -/
theorem composed_congr {ref ref' : Value → Attempt Report} {form : Value}
    (href : ∀ other, e.Validates w name form other → ref other = ref' other) :
    composed w name ref form = composed w name ref' form := by
  have hfresh : World.AlikeAround name w (w.fresh name) := World.alikeAround_fresh w
  refine (validateBy_eq_of_answers he hharmless (fun other hother => ?_) hfresh hfresh).1
  refine ⟨_, answers_known ref other, ?_⟩
  rw [href other hother]
  exact answers_known ref' other

/-- Forms that have outcomes are answered with them. -/
theorem answers_passes {depth : Nat} {ref : Value → Attempt Report}
    (href : ∀ other u, World.AlikeAround name w u →
      (validate depth name other u).1 = ref other ∧
        World.AlikeInside name u (validate depth name other u).2) (other : Value) :
    Answers w name (passes depth) other ((ref other).map Report.valid) := by
  intro u hu
  obtain ⟨hresult, hafter⟩ := href other u hu
  rw [passes_apply, hresult]
  exact ⟨rfl, hafter⟩

include he hharmless in
/-- A run comes to the same on an engine that has been in use as on a fresh one, and leaves nothing
behind but its report. -/
theorem validate_eq_fresh (depth : Nat) (form : Value) (u : World)
    (hu : World.AlikeAround name w u) :
    (validate depth name form u).1 = (validate depth name form (w.fresh name)).1 ∧
      World.AlikeInside name u (validate depth name form u).2 := by
  induction depth generalizing form u with
  | zero => exact ⟨rfl, .refl u⟩
  | succ depth ih =>
    refine validateBy_eq_of_answers he hharmless (fun other _ => ?_) hu (World.alikeAround_fresh w)
    exact ⟨_, answers_passes ih other, answers_passes ih other⟩

include he hharmless in
/-- One more run may be nested: its outcome is composed of those of the forms that it validates. -/
theorem validate_succ (depth : Nat) (form : Value) :
    (validate (depth + 1) name form (w.fresh name)).1 =
      composed w name (fun other => (validate depth name other (w.fresh name)).1) form := by
  have hfresh : World.AlikeAround name w (w.fresh name) := World.alikeAround_fresh w
  refine (validateBy_eq_of_answers he hharmless (fun other _ => ?_) hfresh hfresh).1
  exact ⟨_, answers_passes (validate_eq_fresh he hharmless depth) other, answers_known _ other⟩

include he hharmless in
/-- Outcomes that are composed of one another agree on a form, from the number of forms on that it
can lead to. -/
theorem eq_of_composed {rank : Nat → Nat}
    (hrank : ∀ i j, e.Nests w name i j → rank j < rank i) {F G : Nat → Value → Attempt Report}
    (hF : ∀ depth form, F (depth + 1) form = composed w name (F depth) form)
    (hG : ∀ depth form, G (depth + 1) form = composed w name (G depth) form) (depth : Nat)
    (form : Value) (hdepth : rank (e.place form) < depth) : F depth form = G depth form := by
  induction depth generalizing form with
  | zero => exact absurd hdepth (Nat.not_lt_zero _)
  | succ depth ih =>
    rw [hF, hG]
    refine composed_congr he hharmless fun other hother => ih other ?_
    have hlt := hrank _ _ ⟨form, other, rfl, rfl, hother⟩
    omega

end

/-- A relation on a range without circles has ranks that decrease along it, and that are no larger
than the range. -/
theorem exists_rank {R : Nat → Nat → Prop} {n : Nat} (hsource : ∀ i j, R i j → i ≤ n)
    (htarget : ∀ i j, R i j → j ≤ n) (hacyclic : ∀ i, ¬ Relation.TransGen R i i) :
    ∃ rank : Nat → Nat, (∀ i, rank i ≤ n) ∧ ∀ i j, R i j → rank j < rank i := by
  classical
  -- the rank of a number is how many others can be reached from it
  let reached (i : Nat) : Finset Nat := (Finset.range (n + 1)).filter (Relation.TransGen R i)
  refine ⟨fun i => (reached i).card, fun i => ?_, fun i j hij => ?_⟩
  · have hself : min i n ∉ reached i := by
      intro hmem
      have hpath := (Finset.mem_filter.1 hmem).2
      obtain ⟨j, hij, -⟩ := Relation.TransGen.head'_iff.1 hpath
      rw [Nat.min_eq_left (hsource i j hij)] at hpath
      exact hacyclic i hpath
    have hcard : (reached i).card < (Finset.range (n + 1)).card := by
      refine Finset.card_lt_card ⟨Finset.filter_subset _ _, fun hsub => hself (hsub ?_)⟩
      exact Finset.mem_range.2 (by omega)
    rw [Finset.card_range] at hcard
    exact Nat.le_of_lt_succ hcard
  · refine Finset.card_lt_card ⟨fun k hk => ?_, fun hsub => ?_⟩
    · obtain ⟨hrange, hpath⟩ := Finset.mem_filter.1 hk
      exact Finset.mem_filter.2 ⟨hrange, .head hij hpath⟩
    · have hj : j ∈ reached i :=
        Finset.mem_filter.2 ⟨Finset.mem_range.2 (Nat.lt_succ_of_le (htarget i j hij)), .single hij⟩
      exact hacyclic j (Finset.mem_filter.1 (hsub hj)).2

/-- **Nested runs do not disturb the outer run.** Let the predicates of an engine change nothing,
besides having the engine validate forms, and decide without regard to the reports that it shows;
and let no form lead back to itself. Then all forms have outcomes that are composed of one another:
each is that of a run on a fresh engine in which nested runs are replaced by their outcomes. Every
run comes to the outcome of its form, whatever the engine has done before, if only more runs may be
nested than the engine has forms. -/
theorem validate_eq_composed {w : World} {name : String} {e : Engine}
    (he : w.engines.get? name = some e)
    (hharmless : ∀ here c, e.MayCall w here c →
      c.Parallel (Request.Harmless name) (Glimpse w name e here) c)
    (hacyclic : ∀ i, ¬ Relation.TransGen (e.Nests w name) i i) :
    (∃ ref, ∀ form, ref form = composed w name ref form) ∧
      ∀ ref, (∀ form, ref form = composed w name ref form) →
        ∀ depth, e.rules.size < depth → ∀ form, (validate depth name form w).1 = ref form := by
  obtain ⟨rank, hle, hrank⟩ := exists_rank (n := e.rules.size)
    (by rintro i j ⟨form, _, rfl, -, -⟩; exact List.findIdx_le_length)
    (by rintro i j ⟨_, other, -, rfl, -⟩; exact List.findIdx_le_length) hacyclic
  have hsucc := validate_succ he hharmless
  -- the outcomes at the least depth that is enough are composed of one another
  refine ⟨⟨fun form => (validate (e.rules.size + 1) name form (w.fresh name)).1,
    fun form => ?_⟩, ?_⟩
  · have hnext := eq_of_composed he hharmless hrank
      (F := fun depth form => (validate depth name form (w.fresh name)).1)
      (G := fun depth form => (validate (depth + 1) name form (w.fresh name)).1) hsucc
      (fun depth => hsucc (depth + 1)) (e.rules.size + 1) form (Nat.lt_succ_of_le (hle _))
    exact hnext.trans (hsucc _ form)
  · intro ref href depth hdepth form
    rw [(validate_eq_fresh he hharmless depth form w (.refl w)).1]
    exact eq_of_composed he hharmless hrank
      (F := fun depth form => (validate depth name form (w.fresh name)).1) (G := fun _ => ref) hsucc
      (fun _ => href) depth form (lt_of_le_of_lt (hle _) hdepth)

end Run

/-! ## Two forms -/

namespace TwoForms

def never : Definition := { name := "never", body := Probe.never.predicate "e" }

/-- An engine whose form `outer` has a given rule, and whose form `inner` has a rule that fails. -/
def engine (rule : String) : Engine where
  config := {}
  rules := ⟨[(.text "outer", ⟨[(.text "a", [rule])]⟩), (.text "inner", ⟨[(.text "b", ["never"])]⟩)]⟩
  accessor := ⟨"values", 0⟩
  catalog := ⟨"catalog", 0⟩
  composer := ⟨"composer", 0⟩

/-- The world of this engine, with a predicate for its rule. -/
def world (rule : String) (d : Definition) : World where
  accessors := Shelf.put ∅ ⟨"values", 0⟩ (.table ⟨[(.text "outer", ⟨[(.text "a", .null)]⟩),
    (.text "inner", ⟨[(.text "b", .null)]⟩)]⟩)
  catalogs := Shelf.put ∅ ⟨"catalog", 0⟩ (.ofList [d, never])
  composers := Shelf.put ∅ ⟨"composer", 0⟩ ⟨∅, ∅⟩
  engines := (∅ : Table String Engine).set "e" (engine rule)
  journal := []
  notes := []

section

variable {rule : String} {d : Definition}

/-- The engine has rules for two forms. -/
theorem rules_get? (form : Value) : (engine rule).rules.get? form =
    if .text "outer" == form then some ⟨[(.text "a", [rule])]⟩
    else if .text "inner" == form then some ⟨[(.text "b", ["never"])]⟩ else none := rfl

/-- The rule is read as one of the predicate with the parameter `inner`. -/
def Reads (rule : String) (d : Definition) : Prop :=
  (resolve (engine rule) rule (world rule d)).1 = .ok (⟨d.name, [.text "inner"]⟩, d) ∧
    (resolve (engine rule) "never" (world rule d)).1 = .ok (⟨"never", []⟩, never)

variable (hreads : Reads rule d)
include hreads

/-- The outer form calls the given predicate for the inner form, and the inner form calls `never`.
-/
theorem calls {here : Context} {c : Check Bool}
    (hc : (engine rule).MayCall (world rule d) here c) :
    ((engine rule).place here.form = 0 ∧
        ∃ value, c = d.call value [.text "inner"] (some here)) ∨
      ∃ value, c = never.call value [] (some here) := by
  obtain ⟨declared, texts, value, hdeclared, hmem, -, htext, hresolve⟩ := hc
  rcases hkey : here.form.asKey with fault | key <;> rw [Engine.fieldsOf, hkey] at hdeclared
  · cases hdeclared
  obtain rfl : here.form = key := by
    unfold Value.asKey at hkey
    split at hkey
    · exact Except.ok.inj hkey
    · cases hkey
  obtain rfl := Except.ok.inj hdeclared
  rw [rules_get?] at hmem
  split at hmem
  · rename_i houter
    obtain rfl : texts = [rule] := congrArg Prod.snd (List.mem_singleton.1 hmem)
    obtain rfl := List.mem_singleton.1 htext
    cases hreads.1.symm.trans hresolve
    refine .inl ⟨?_, value, rfl⟩
    simp [Engine.place, engine, List.findIdx_cons, houter]
  · split at hmem
    · obtain rfl : texts = ["never"] := congrArg Prod.snd (List.mem_singleton.1 hmem)
      obtain rfl := List.mem_singleton.1 htext
      cases hreads.2.symm.trans hresolve
      exact .inr ⟨value, rfl⟩
    · cases hmem

/-- No form leads back to itself if the predicate has no form validated but `inner`. -/
theorem acyclic (hasks : ∀ (here : Context) (value other : Value),
      (d.call value [.text "inner"] (some here)).MayAsk
        (Glimpse (world rule d) "e" (engine rule) here) (.passes "e" other) →
      other = .text "inner") (i : Nat) :
    ¬ Relation.TransGen ((engine rule).Nests (world rule d) "e") i i := by
  have hends : ∀ i j, (engine rule).Nests (world rule d) "e" i j → i = 0 ∧ j = 1 := by
    rintro _ _ ⟨form, other, rfl, rfl, field, c, hc, hask⟩
    rcases calls hreads hc with ⟨hplace, value, rfl⟩ | ⟨value, rfl⟩
    · obtain rfl := hasks _ _ _ hask
      exact ⟨hplace, rfl⟩
    · cases hask
  intro hpath
  obtain ⟨j, hfirst, -⟩ := Relation.TransGen.head'_iff.1 hpath
  obtain ⟨k, -, hlast⟩ := Relation.TransGen.tail'_iff.1 hpath
  have hi := (hends _ _ hfirst).1
  have hi' := (hends _ _ hlast).2
  omega

end

/-! ### A predicate that tells what the nested run came to -/

def nested : Definition := { name := "nested", body := Probe.nested.predicate "e" }

theorem reads_nested : Reads "nested:inner" nested := ⟨rfl, rfl⟩

/-- The predicate pays no regard to what the engine shows. -/
theorem harmless_nested (here : Context) (c : Check Bool)
    (hc : (engine "nested:inner").MayCall (world "nested:inner" nested) here c) :
    c.Parallel (Request.Harmless "e")
      (Glimpse (world "nested:inner" nested) "e" (engine "nested:inner") here) c := by
  rcases calls reads_nested hc with ⟨-, value, rfl⟩ | ⟨value, rfl⟩
  · have h : Check.Parallel (Request.Harmless "e")
        (Glimpse (world "nested:inner" nested) "e" (engine "nested:inner") here)
        (Probe.nested.predicate "e" value [.text "inner"] none)
        (Probe.nested.predicate "e" value [.text "inner"] none) :=
      Probe.harmless (by decide) (by decide) value [.text "inner"] none
    exact h.bind fun _ => .result _
  · exact .result _

/-- It has no other form validated. -/
theorem asks_nested {here : Context} {value other : Value}
    {Rep : (q : Request) → Attempt q.Reply → Attempt q.Reply → Prop}
    (h : (nested.call value [.text "inner"] (some here)).MayAsk Rep (.passes "e" other)) :
    other = .text "inner" := by
  cases h with
  | here => rfl
  | @after _ _ a _ _ hask =>
    rcases a with fault | passed
    · cases hask
    · cases hask with
      | @after _ _ seen _ _ hask =>
        rcases seen with fault | seen
        · cases hask
        · cases hask with
          | note hask => cases hask

/-- The outer report has the message of its own rule, and none of the inner form. -/
theorem comes_to_composed :
    (engine "nested:inner").Validates (world "nested:inner" nested) "e" (.text "outer")
        (.text "inner") ∧
      ∃ ref, (∀ form, ref form = composed (world "nested:inner" nested) "e" ref form) ∧
        (∀ depth, 2 < depth → ∀ form,
          (validate depth "e" form (world "nested:inner" nested)).1 = ref form) ∧
        (ref (.text "outer")).toOption.map (fun report => report.errors.get? (.text "a")) =
          some (some ["This field failed the nested validation."]) ∧
        (ref (.text "outer")).toOption.map (fun report => report.errors.size) = some 1 ∧
        (ref (.text "inner")).toOption.map (fun report => report.errors.get? (.text "b")) =
          some (some ["This field failed the never validation."]) := by
  refine ⟨⟨.text "a", _, ⟨_, ["nested:inner"], .null, rfl, List.mem_singleton_self _, rfl,
    .mk (List.mem_singleton_self _) reads_nested.1⟩, .here⟩, ?_⟩
  have he : (world "nested:inner" nested).engines.get? "e" = some (engine "nested:inner") := rfl
  obtain ⟨⟨ref, href⟩, hvalidate⟩ :=
    validate_eq_composed he harmless_nested (acyclic reads_nested fun _ _ _ => asks_nested)
  obtain rfl : (fun form => (validate 3 "e" form (world "nested:inner" nested)).1) = ref :=
    funext (hvalidate ref href 3 (by decide))
  exact ⟨_, href, fun depth hdepth form => hvalidate _ href depth hdepth form,
    by decide +kernel, by decide +kernel, by decide +kernel⟩

/-! ### A predicate that heeds what the engine shows -/

/-- A predicate that has a form validated, and then decides by the errors that the engine shows. -/
def heeding : Definition where
  name := "heeding"
  body := fun _ parameters _ => do
    let form ← Probe.parameter parameters 0
    let _ : Bool ← Check.request (.passes "e" form)
    let seen : Sighting ← Check.request (.observe "e")
    return .bool (seen.errors.size == 0)

theorem reads_heeding : Reads "heeding:inner" heeding := ⟨rfl, rfl⟩

/-- The predicate changes nothing itself. -/
theorem harmless_heeding (here : Context) (c : Check Bool)
    (hc : (engine "heeding:inner").MayCall (world "heeding:inner" heeding) here c) :
    c.Asks (Request.Harmless "e") := by
  rcases calls reads_heeding hc with ⟨-, value, rfl⟩ | ⟨value, rfl⟩
  · refine .ask _ rfl fun a => ?_
    rcases a with fault | passed
    · exact .result _
    · refine .ask _ trivial fun a => ?_
      rcases a with fault | seen <;> exact .result _
  · exact .result _

/-- It has no other form validated either. -/
theorem asks_heeding {here : Context} {value other : Value}
    {Rep : (q : Request) → Attempt q.Reply → Attempt q.Reply → Prop}
    (h : (heeding.call value [.text "inner"] (some here)).MayAsk Rep (.passes "e" other)) :
    other = .text "inner" := by
  cases h with
  | here => rfl
  | @after _ _ a _ _ hask =>
    rcases a with fault | passed
    · cases hask
    · cases hask with
      | @after _ _ seen _ _ hask =>
        rcases seen with fault | seen <;> cases hask

/-- **That predicates disregard the reports is needed.** The engine shows the report of the nested
run, so the predicate fails in the outer run; where the nested run is replaced by its outcome, the
fresh engine shows no errors, and the predicate passes. -/
theorem report_heeded :
    (¬∀ (w : World) (name : String) (e : Engine), w.engines.get? name = some e →
      (∀ here c, e.MayCall w here c → c.Asks (Request.Harmless name)) →
      (∀ i, ¬ Relation.TransGen (e.Nests w name) i i) →
        (∃ ref, ∀ form, ref form = composed w name ref form) ∧
          ∀ ref, (∀ form, ref form = composed w name ref form) →
            ∀ depth, e.rules.size < depth → ∀ form, (validate depth name form w).1 = ref form) ∧
      (validate 3 "e" (.text "outer") (world "heeding:inner" heeding)).1.toOption.map
          (fun report => report.errors.get? (.text "a")) =
        some (some ["This field failed the heeding validation."]) := by
  refine ⟨fun h => ?_, by decide +kernel⟩
  obtain ⟨⟨ref, href⟩, hvalidate⟩ := h (world "heeding:inner" heeding) "e"
    (engine "heeding:inner") rfl harmless_heeding (acyclic reads_heeding fun _ _ _ => asks_heeding)
  obtain rfl : (fun form => (validate 3 "e" form (world "heeding:inner" heeding)).1) = ref :=
    funext (hvalidate ref href 3 (by decide))
  -- the run counts the errors of the inner form, its composed counterpart counts none
  have hsize := congrArg (fun outcome => outcome.toOption.map fun report => report.errors.size)
    (href (.text "outer"))
  exact absurd hsize (by decide +kernel)

end TwoForms

end FormRules
