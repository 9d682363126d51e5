import FormRules.Predicate.Probe
import FormRules.Proofs.Predicate.Families
import FormRules.Proofs.Run.Mirror

/-!
# What predicates ask for

A check asks for requests of a kind if it makes no others, whatever replies it gets (`Check.Asks`).
The built-in predicates ask for nothing but siblings (`Catalog.asks_builtin`), and those without
context ask for nothing at all (`Catalog.asks_nothing`). Where the requests that a check can make
are answered alike, it comes to the same (`Check.Asks.mirrors`).
-/

namespace FormRules

variable {α β : Type}

/-- The check makes requests of the given kind only. -/
inductive Check.Asks (A : Request → Prop) : Check α → Prop where
  | result (r : Attempt α) : Asks A (.result r)
  | log (r : Record) {c : Check α} (h : Asks A c) : Asks A (.log r c)
  | note (entry : Value) {c : Check α} (h : Asks A c) : Asks A (.note entry c)
  | ask (q : Request) {f : Attempt q.Reply → Check α} (hq : A q) (h : ∀ a, Asks A (f a)) :
    Asks A (.ask q f)

namespace Check.Asks

variable {A A' : Request → Prop}

/-- A check that asks for little asks for no more. -/
theorem mono (hA : ∀ q, A q → A' q) {c : Check α} (hc : c.Asks A) : c.Asks A' := by
  induction hc with
  | result r => exact .result r
  | log r h ih => exact .log r ih
  | note entry h ih => exact .note entry ih
  | ask q hq h ih => exact .ask q (hA q hq) ih

/-- Two checks one after the other ask for what either asks for. -/
theorem bind {c : Check α} {f : α → Check β} (hc : c.Asks A) (hf : ∀ a, (f a).Asks A) :
    (c >>= f).Asks A := by
  change (c.bind f).Asks A
  induction hc with
  | result r =>
    rcases r with fault | a
    · exact .result _
    · exact hf a
  | log r h ih => exact .log r ih
  | note entry h ih => exact .note entry ih
  | ask q hq h ih => exact .ask q hq ih

theorem pure (a : α) : (Pure.pure a : Check α).Asks A := .result _

theorem fail (fault : Fault) : (Check.fail fault : Check α).Asks A := .result _

/-- What an attempt comes to. -/
theorem lift (a : Attempt α) {f : α → Check β} (hf : ∀ a, (f a).Asks A) :
    ((liftM a : Check α) >>= f).Asks A :=
  bind (.result a) hf

theorem record (r : Record) : (Check.record r).Asks A := .log r (.result _)

/-- A single request asks for just that. -/
theorem request {q : Request} (hq : A q) : (Check.request q).Asks A := .ask q hq fun _ => .result _

/-- A choice of checks asks for what either asks for. -/
theorem ite {b : Prop} [Decidable b] {c d : Check α} (hc : c.Asks A) (hd : d.Asks A) :
    (if b then c else d).Asks A := by
  split
  · exact hc
  · exact hd

/-- A check comes to the same in two worlds if the requests that it makes do. -/
theorem mirrors {Off : List Scene → Scene → Prop} {R : List Scene → World → World → Prop}
    {caller : Option Caller} {respond : (q : Request) → Traced q.Reply}
    {respond' : (q : Request) → Run q.Reply}
    (hlog : ∀ {h w v} (rs : List Record), R h w v →
      R h { w with journal := w.journal ++ rs } { v with journal := v.journal ++ rs })
    (hnote : ∀ {h w v} (entry : Value), R h w v →
      R h { w with notes := w.notes ++ [entry] } { v with notes := v.notes ++ [entry] })
    (hexchange : ∀ q, A q → Traced.Mirrors Off R (Matching Eq) R (Traced.exchange caller respond q)
      (respond' q).attempt) {c : Check α} (hc : c.Asks A) :
    Traced.Mirrors Off R (Matching Eq) R (c.traced caller respond) (c.run respond') := by
  induction hc with
  | result r => exact Traced.Mirrors.silent fun _ _ _ hwv => ⟨Matching.of_eq rfl, hwv⟩
  | log r h ih => exact (Traced.mirrors_log hlog _).bind_eq fun _ => ih
  | note entry h ih => exact (Traced.mirrors_note hnote _).bind_eq fun _ => ih
  | ask q hq h ih =>
    rw [Check.run_ask]
    exact (hexchange q hq).bind_eq ih

end Check.Asks

/-- A predicate that is called asks for what its body asks for. -/
theorem Definition.asks_call {A : Request → Prop} {d : Definition}
    (hd : ∀ value parameters context, (d.body value parameters context).Asks A) (value : Value)
    (parameters : List Value) (context : Option Context) :
    (d.call value parameters context).Asks A :=
  (hd value parameters _).bind fun _ => .pure _

/-- The request is for another field of the form. -/
def Request.IsSibling : Request → Prop
  | .sibling _ => True
  | _ => False

/-- A predicate that asks for nothing but siblings: its result depends on the value, the parameters,
the context and the siblings alone. -/
def Definition.AsksSiblings (d : Definition) : Prop :=
  ∀ value parameters context, (d.body value parameters context).Asks Request.IsSibling

namespace Predicate

open Check

variable {A : Request → Prop}

theorem asks_malformed (validation : String) (parameter : Value) :
    (malformed validation parameter).Asks A :=
  (Asks.record _).bind fun _ => .pure _

/-- Reading a sibling asks for a sibling, and for nothing else. -/
theorem asks_siblingValue (context : Option Context) (field : Value) :
    (siblingValue context field).Asks Request.IsSibling := by
  cases context with
  | none => exact .fail _
  | some _ => exact .request trivial

/-! ## Presence -/

/-- An unconditional requirement asks for nothing. -/
theorem asks_required (value : Value) (parameters : List Value) :
    (required value parameters).Asks A := by
  cases parameters with
  | nil => exact .pure _
  | cons => exact .fail _

/-- A requirement under a condition asks for the sibling of the condition. -/
theorem asks_requiredWhen (validation : String) (unlessMet : Bool) (value : Value)
    (parameters : List Value) (context : Option Context) :
    (requiredWhen validation unlessMet value parameters context).Asks Request.IsSibling := by
  refine .lift _ fun ⟨other, expected⟩ => .lift _ fun name => ?_
  cases name with
  | none => exact asks_malformed _ _
  | some name =>
    have hmet (expected : Value) := (asks_siblingValue context (.text name)).bind fun sibling =>
      Asks.lift (meets sibling expected) fun met =>
        Asks.pure (A := Request.IsSibling) (met == unlessMet || !value.isEmpty)
    cases expected with
    | null => exact asks_malformed _ _
    | _ => exact hmet _

theorem asks_accepted (value : Value) (parameters : List Value) :
    (accepted value parameters).Asks A := by
  cases parameters with
  | nil => cases value <;> first | exact .pure _ | exact .lift _ fun _ => .pure _
  | cons => exact .fail _

/-! ## Patterns -/

/-- A pattern asks for nothing. -/
theorem asks_ofPattern (pattern : List Piece) (value : Value) (parameters : List Value) :
    (ofPattern pattern value parameters).Asks A := by
  cases parameters with
  | nil => exact .ite (.pure _) (.lift _ fun _ => .pure _)
  | cons => exact .fail _

theorem asks_ipvFour (value : Value) (parameters : List Value) :
    (ipvFour value parameters).Asks A := by
  cases parameters with
  | nil =>
    refine .ite (.pure _) ?_
    cases value.plainText <;> exact .pure _
  | cons => exact .fail _

/-! ## Numbers and lengths -/

/-- Reading a number from a parameter asks for nothing. -/
theorem asks_numericParameter (validation : String) (parameter : Value) :
    (numericParameter validation parameter).Asks A := by
  refine .lift _ fun number => ?_
  cases number with
  | none => exact (asks_malformed _ _).bind fun _ => .pure _
  | some d => exact .pure _

/-- Reading the ends of a range asks for nothing. -/
theorem asks_bounds (validation : String) (parameters : List Value) :
    (bounds validation parameters).Asks A := by
  unfold bounds
  extract_lets given
  clear_value given
  split
  · refine (asks_numericParameter _ _).bind fun low =>
      (asks_numericParameter _ _).bind fun high => ?_
    cases low <;> cases high <;> exact .pure _
  · exact (asks_malformed _ _).bind fun _ => .pure _

theorem asks_number (value : Value) (parameters : List Value) :
    (number value parameters).Asks A := by
  cases parameters with
  | nil => exact .ite (.pure _) (.lift _ fun _ => .pure _)
  | cons => exact .fail _

/-- A limit on numbers asks for nothing. -/
theorem asks_comparedNumber (validation : String) (holds : Double → Double → Bool) (value : Value)
    (parameters : List Value) : (comparedNumber validation holds value parameters).Asks A := by
  refine .lift _ fun limit => .ite (.pure _) ?_
  refine (asks_numericParameter _ _).bind fun bound => .lift _ fun number => ?_
  cases bound <;> cases number <;> exact .pure _

/-- A limit on lengths asks for nothing. -/
theorem asks_comparedLength (validation : String) (holds : Double → Double → Bool) (value : Value)
    (parameters : List Value) : (comparedLength validation holds value parameters).Asks A := by
  refine .lift _ fun limit => .ite (.pure _) ?_
  refine (asks_numericParameter _ _).bind fun bound => ?_
  cases bound with
  | none => exact .pure _
  | some bound => exact .lift _ fun _ => .pure _

theorem asks_between (value : Value) (parameters : List Value) :
    (between value parameters).Asks A := by
  refine .ite (.pure _) ((asks_bounds _ _).bind fun range => .lift _ fun number => ?_)
  cases range <;> cases number <;> exact .pure _

theorem asks_digitsLength (value : Value) (parameters : List Value) :
    (digitsLength value parameters).Asks A := by
  refine .lift _ fun limit => .ite (.pure _) ?_
  refine (asks_numericParameter _ _).bind fun expected => .lift _ fun text => ?_
  cases expected with
  | none => exact .pure _
  | some d => exact .ite (.lift _ fun _ => .pure _) (.pure _)

theorem asks_digitsLengthBetween (value : Value) (parameters : List Value) :
    (digitsLengthBetween value parameters).Asks A := by
  refine .ite (.pure _) ((asks_bounds _ _).bind fun range => ?_)
  cases range with
  | none => exact .pure _
  | some range => exact .lift _ fun _ => .pure _

theorem asks_betweenLength (value : Value) (parameters : List Value) :
    (betweenLength value parameters).Asks A := by
  refine .ite (.pure _) ((asks_bounds _ _).bind fun range => ?_)
  cases range with
  | none => exact .pure _
  | some range => exact .lift _ fun _ => .pure _

/-! ## Membership, other fields and dates -/

theorem asks_contains (value : Value) (parameters : List Value) :
    (contains value parameters).Asks A :=
  .ite (.pure _) (.result _)

theorem asks_notIn (value : Value) (parameters : List Value) :
    (notIn value parameters).Asks A :=
  .ite (.pure _) (.lift _ fun _ => .pure _)

/-- A comparison asks for the sibling that it compares with. -/
theorem asks_compareSibling (validation : String) (equal : Bool) (value : Value)
    (parameters : List Value) (context : Option Context) :
    (compareSibling validation equal value parameters context).Asks Request.IsSibling := by
  have hsingle (other : Value) :
      (compareSibling validation equal value [other] context).Asks Request.IsSibling := by
    refine .lift (fieldName? other) fun name => ?_
    cases name with
    | none => exact asks_malformed _ _
    | some name => exact (asks_siblingValue _ _).bind fun _ => .pure _
  rcases parameters with _ | ⟨other, _ | ⟨_, _⟩⟩
  · exact hsingle .null
  · exact hsingle other
  · exact .fail _

/-- A limit on days asks for nothing. -/
theorem asks_comparedDay (validation : String) (holds : Date → Date → Bool) (value : Value)
    (parameters : List Value) : (comparedDay validation holds value parameters).Asks A := by
  refine .lift _ fun limit => .ite (.pure _) ?_
  cases limit.toDay with
  | none => exact asks_malformed _ _
  | some boundary => cases value.toDay <;> exact .pure _

end Predicate

namespace Catalog

open Predicate

/-- A predicate that sees the value and the parameters only asks for nothing. -/
theorem asks_plain {A : Request → Prop} {f : Value → List Value → Check Bool}
    (hf : ∀ value parameters, (f value parameters).Asks A) (name description : String)
    (value : Value)
    (parameters : List Value) (context : Option Context) :
    ((plain name f description).body value parameters context).Asks A :=
  (hf value parameters).bind fun _ => .pure _

/-- A predicate that sees the form asks for siblings only. -/
theorem asks_crossField {f : Value → List Value → Option Context → Check Bool}
    (hf : ∀ value parameters context, (f value parameters context).Asks Request.IsSibling)
    (name description : String) : (crossField name f description).AsksSiblings :=
  fun value parameters context => (hf value parameters context).bind fun _ => .pure _

/-- The built-in predicates without context ask for nothing. -/
theorem asks_nothing {A : Request → Prop} {d : Definition} (hd : d ∈ builtinDefinitions)
    (hcontext : d.takesContext = false) :
    ∀ value parameters context, (d.body value parameters context).Asks A := by
  cases builtIn_of_mem hd with
  | required description => exact asks_plain asks_required _ _
  | accepted description => exact asks_plain asks_accepted _ _
  | ofPattern name pattern description => exact asks_plain (asks_ofPattern _) _ _
  | ipvFour description => exact asks_plain asks_ipvFour _ _
  | number description => exact asks_plain asks_number _ _
  | comparedNumber name holds description => exact asks_plain (asks_comparedNumber _ _) _ _
  | between description => exact asks_plain asks_between _ _
  | digitsLength description => exact asks_plain asks_digitsLength _ _
  | digitsLengthBetween description => exact asks_plain asks_digitsLengthBetween _ _
  | comparedLength name holds description => exact asks_plain (asks_comparedLength _ _) _ _
  | betweenLength description => exact asks_plain asks_betweenLength _ _
  | contains description => exact asks_plain asks_contains _ _
  | notIn description => exact asks_plain asks_notIn _ _
  | comparedDay name holds description => exact asks_plain (asks_comparedDay _ _) _ _
  | requiredWhen name description => cases hcontext
  | compareSibling name description => cases hcontext

/-- **The built-in predicates ask for nothing but siblings.** -/
theorem asks_builtin {d : Definition} (hd : d ∈ builtinDefinitions) : d.AsksSiblings := by
  cases builtIn_of_mem hd with
  | requiredWhen name description => exact asks_crossField (asks_requiredWhen _ _) _ _
  | compareSibling name description => exact asks_crossField (asks_compareSibling _ _) _ _
  | _ => exact asks_nothing hd rfl

end Catalog

/-- The request is for a sibling, or it is to one of the given engines. -/
def Request.Within (engines : String → Prop) : Request → Prop
  | .sibling _ => True
  | .passes name _ => engines name
  | .observe name => engines name
  | .assign name _ _ _ => engines name
  | .declare name _ => engines name

/-- A request within a group is within a larger one. -/
theorem Request.Within.mono {engines engines' : String → Prop}
    (h : ∀ name, engines name → engines' name) {q : Request} (hq : q.Within engines) :
    q.Within engines' := by
  cases q with
  | sibling field => trivial
  | _ => exact h _ hq

/-- A sibling is within every group. -/
theorem Request.IsSibling.within {engines : String → Prop} {q : Request} (hq : q.IsSibling) :
    q.Within engines := by
  cases q with
  | sibling field => trivial
  | _ => exact hq.elim

/-- A probe has dealings with its own engine only. -/
theorem Probe.asks_predicate (p : Probe) (engine : String) (value : Value) (parameters : List Value)
    (context : Option Context) :
    (p.predicate engine value parameters context).Asks (Request.Within (· = engine)) := by
  have hask (q : Request) (hq : q.Within (· = engine)) :
      (Check.request q).Asks (Request.Within (· = engine)) := .request hq
  cases p with
  | always => exact .result _
  | never => exact .result _
  | truthy => exact .result _
  | spy => exact .note _ (.result _)
  | cursor => exact (hask (.observe engine) rfl).bind fun _ => .note _ (.result _)
  | nested =>
    refine .lift _ fun form => (hask (.passes engine form) rfl).bind fun _ => ?_
    exact (hask (.observe engine) rfl).bind fun _ => .note _ (.result _)
  | sibling =>
    rcases context with _ | here
    · exact .fail _
    · refine .lift _ fun field => (hask (.sibling field) trivial).bind fun _ => ?_
      exact .note _ (.result _)
  | set =>
    refine .lift _ fun field => .lift _ fun v => (hask (.observe engine) rfl).bind fun seen => ?_
    exact (hask (.assign engine seen.form field v) rfl).bind fun _ => .result _
  | undeclare => exact (hask (.declare engine .null) rfl).bind fun _ => .result _
  | boom => exact .fail _

/-- Probes that do not look at their engine ask for nothing but siblings. -/
theorem Probe.asks_siblings {p : Probe} (hp : p ∈ [always, never, truthy, spy, sibling, boom])
    (engine : String) (value : Value) (parameters : List Value) (context : Option Context) :
    (p.predicate engine value parameters context).Asks Request.IsSibling := by
  cases p with
  | always => exact .result _
  | never => exact .result _
  | truthy => exact .result _
  | spy => exact .note _ (.result _)
  | sibling =>
    rcases context with _ | here
    · exact .fail _
    · refine .lift _ fun field => .bind (.request (q := .sibling field) trivial) fun _ => ?_
      exact .note _ (.result _)
  | boom => exact .fail _
  | _ => simp at hp

end FormRules
