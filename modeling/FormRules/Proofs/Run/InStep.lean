import FormRules.Engine.Run
import FormRules.Proofs.Run.Laws
import FormRules.Proofs.World

/-!
# Two runs in step

Two runs are in step if, begun in worlds that stand in a relation, they come to matching results and
leave behind worlds that stand in a relation again (`Run.InStep`). Checks are in step if they go the
same way as long as their requests are answered alike (`Check.Parallel.inStep`).

The notes and the journal of a world are never read, so the relations of interest do not see them
(`Tandem`).
-/

namespace FormRules

variable {α β γ δ : Type}

/-- Matching results: values that stand in a relation, or the same fault. -/
inductive Matching (Q : α → β → Prop) : Attempt α → Attempt β → Prop where
  | ok {a : α} {b : β} (h : Q a b) : Matching Q (.ok a) (.ok b)
  | error (fault : Fault) : Matching Q (.error fault) (.error fault)

namespace Matching

/-- Results that match do so under a weaker relation. -/
theorem imp {Q Q' : α → β → Prop} {a : Attempt α} {b : Attempt β} (h : Matching Q a b)
    (hQ : ∀ a b, Q a b → Q' a b) : Matching Q' a b := by
  cases h with
  | ok h => exact ok (hQ _ _ h)
  | error fault => exact error fault

/-- Results that match are used in matching ways. -/
theorem bind {Q : α → β → Prop} {Q' : γ → δ → Prop} {a : Attempt α} {b : Attempt β}
    {f : α → Attempt γ} {g : β → Attempt δ} (h : Matching Q a b)
    (hfg : ∀ x y, Q x y → Matching Q' (f x) (g y)) : Matching Q' (a >>= f) (b >>= g) := by
  cases h with
  | ok h => exact hfg _ _ h
  | error fault => exact error fault

/-- What a name stands for in two places. -/
theorem known {Q : α → β → Prop} {a : Option α} {b : Option β} (name : String)
    (h : Option.Rel Q a b) : Matching Q (Run.known name a) (Run.known name b) := by
  cases h with
  | some h => exact ok h
  | none => exact error _

/-- Equal attempts match. -/
theorem of_eq {a b : Attempt α} (h : a = b) : Matching Eq a b := by
  subst h
  rcases a with fault | a
  · exact error fault
  · exact ok rfl

/-- Attempts that match by equality are equal. -/
theorem eq {a b : Attempt α} (h : Matching Eq a b) : a = b := by
  cases h with
  | ok h => rw [h]
  | error fault => rfl

end Matching

namespace Run

/-- Begun in related worlds, the two runs come to related results and leave related worlds. -/
def InStep (R : World → World → Prop) (T : Attempt α → Attempt β → Prop)
    (R' : World → World → Prop) (r : Run α) (s : Run β) : Prop :=
  ∀ w v, R w v → T (r w).1 (s v).1 ∧ R' (r w).2 (s v).2

variable {R R' R'' K : World → World → Prop} {Q : α → β → Prop} {Q' : γ → δ → Prop}

/-! ## Composing runs in step -/

/-- Runs in step can be put one after the other, if what follows is in step for all results that
match. -/
theorem InStep.bind {r : Run α} {s : Run β} {f : α → Run γ} {g : β → Run δ}
    (hrs : InStep R (Matching Q) R' r s)
    (hfg : ∀ a b, Q a b → InStep R' (Matching Q') R'' (f a) (g b))
    (hR : ∀ w v, R' w v → R'' w v) : InStep R (Matching Q') R'' (r >>= f) (s >>= g) := by
  intro w v hwv
  obtain ⟨hresult, hworld⟩ := hrs w v hwv
  rcases hr : r w with ⟨a, w'⟩
  rcases hs : s v with ⟨b, v'⟩
  rw [hr, hs] at hresult hworld
  rw [bind_apply, bind_apply, hr, hs]
  cases hresult with
  | ok h => exact hfg _ _ h w' v' hworld
  | error fault => exact ⟨.error fault, hR w' v' hworld⟩

/-- A run that goes on to work on its result stays in step. -/
theorem InStep.map_right {Q'' : α → δ → Prop} {r : Run α} {s : Run β} {g : β → δ}
    (hrs : InStep R (Matching Q) R' r s) (hg : ∀ a b, Q a b → Q'' a (g b)) :
    InStep R (Matching Q'') R' r (s >>= fun b => Pure.pure (g b)) := by
  rw [← bind_pure r]
  exact hrs.bind (fun a b hab _ _ hwv => ⟨.ok (hg a b hab), hwv⟩) fun _ _ h => h

/-- Runs that begin with the same results. -/
theorem InStep.bind_eq {r s : Run α} {f : α → Run γ} {g : α → Run δ}
    (hrs : InStep R (Matching Eq) R r s) (hfg : ∀ a, InStep R (Matching Q') R (f a) (g a)) :
    InStep R (Matching Q') R (r >>= f) (s >>= g) := by
  refine hrs.bind (fun a b hab => ?_) fun _ _ h => h
  rw [hab]
  exact hfg b

theorem InStep.pure {a : α} {b : β} (h : Q a b) :
    InStep R (Matching Q) R (Pure.pure a : Run α) (Pure.pure b : Run β) :=
  fun _ _ hwv => ⟨.ok h, hwv⟩

theorem InStep.lift (a : Attempt α) :
    InStep R (Matching Eq) R (liftM a : Run α) (liftM a : Run α) :=
  fun _ _ hwv => ⟨.of_eq rfl, hwv⟩

/-- Changes that respect the relation are in step. -/
theorem InStep.modify {f g : World → World} (h : ∀ w v, R w v → R' (f w) (g v)) :
    InStep R (Matching Eq) R' (Run.modify f) (Run.modify g) :=
  fun w v hwv => ⟨.ok rfl, h w v hwv⟩

/-- Runs that only look at the world. -/
theorem InStep.reads {T : Attempt α → Attempt β → Prop} {r : Run α} {s : Run β} (hr : r.Reads)
    (hs : s.Reads) (h : ∀ w v, R w v → T (r w).1 (s v).1) : InStep R T R r s := by
  intro w v hwv
  have hw : (r w).2 = w := hr w
  have hv : (s v).2 = v := hs v
  rw [hw, hv]
  exact ⟨h w v hwv, hwv⟩

end Run

/-! ## Worlds that differ in what nobody reads -/

/-- Related worlds have the same accessors, catalogs and composers, and stay related whatever is
written to their journals and notes. -/
structure Tandem (R : World → World → Prop) : Prop where
  quiet : ∀ {w v} (js js' : List Record) (ns ns' : List Value), R w v →
    R { w with journal := js, notes := ns } { v with journal := js', notes := ns' }
  accessors : ∀ {w v}, R w v → w.accessors = v.accessors
  catalogs : ∀ {w v}, R w v → w.catalogs = v.catalogs
  composers : ∀ {w v}, R w v → w.composers = v.composers

/-- Worlds that are alike under a mask are a tandem. -/
theorem tandem_alike {mask : String → Engine → Engine} : Tandem (World.Alike mask) where
  quiet js js' ns ns' h := (h.symm.quiet js ns).symm.quiet js' ns'
  accessors h := h.accessors
  catalogs h := h.catalogs
  composers h := h.composers

/-- Each of the worlds looks like one from before. -/
theorem tandem_of_alike {mask mask' : String → Engine → Engine} {u v : World}
    (huv : World.Alike mask' u v) :
    Tandem fun u' v' => World.Alike mask u u' ∧ World.Alike mask v v' where
  quiet js js' ns ns' h := ⟨h.1.quiet js ns, h.2.quiet js' ns'⟩
  accessors h := h.1.accessors.symm.trans (huv.accessors.trans h.2.accessors)
  catalogs h := h.1.catalogs.symm.trans (huv.catalogs.trans h.2.catalogs)
  composers h := h.1.composers.symm.trans (huv.composers.trans h.2.composers)

namespace Tandem

open Run

variable {R : World → World → Prop} (hR : Tandem R)

include hR

/-- A run that writes to the journal first stays in step. -/
theorem logAll_left {T : Attempt α → Attempt β → Prop} {R' : World → World → Prop} {r : Run α}
    {s : Run β} (hrs : InStep R T R' r s) (rs : List Record) :
    InStep R T R' (Run.logAll rs >>= fun _ => r) s :=
  fun w v hwv => hrs _ v (hR.quiet (w.journal ++ rs) v.journal w.notes v.notes hwv)

/-- Both worlds find the same accessor. -/
theorem accessor (r : Ref) : InStep R (Matching Eq) R (Run.accessor r) (Run.accessor r) := by
  refine InStep.reads (reads_accessor r) (reads_accessor r) fun w v hwv => Matching.of_eq ?_
  change known r.name (w.accessors.get? r) = known r.name (v.accessors.get? r)
  rw [hR.accessors hwv]

/-- Both worlds find the same catalog. -/
theorem catalog (r : Ref) : InStep R (Matching Eq) R (Run.catalog r) (Run.catalog r) := by
  refine InStep.reads (reads_catalog r) (reads_catalog r) fun w v hwv => Matching.of_eq ?_
  change known r.name (w.catalogs.get? r) = known r.name (v.catalogs.get? r)
  rw [hR.catalogs hwv]

/-- Both worlds find the same composer. -/
theorem composer (r : Ref) : InStep R (Matching Eq) R (Run.composer r) (Run.composer r) := by
  refine InStep.reads (reads_composer r) (reads_composer r) fun w v hwv => Matching.of_eq ?_
  change known r.name (w.composers.get? r) = known r.name (v.composers.get? r)
  rw [hR.composers hwv]

/-- Both worlds read the same value. -/
theorem readField (r : Ref) (form field : Value) :
    InStep R (Matching Eq) R (Run.readField r form field) (Run.readField r form field) :=
  (hR.accessor r).bind_eq fun _ => InStep.lift _

/-- Both worlds resolve a rule to the same predicate. -/
theorem resolve (e : Engine) (text : String) :
    InStep R (Matching Eq) R (Run.resolve e text) (Run.resolve e text) :=
  (InStep.lift _).bind_eq fun _ => (hR.catalog _).bind_eq fun _ => (InStep.lift _).bind_eq fun _ =>
    InStep.pure rfl

end Tandem

/-! ## Checks that go the same way -/

/-- The two checks ask the same requests, all of them of a kind `A`, and go on in parallel as long
as the answers they get are related. What they write to the journal and to the notes may differ. -/
inductive Check.Parallel (A : Request → Prop)
    (Rep : (q : Request) → Attempt q.Reply → Attempt q.Reply → Prop) :
    Check α → Check α → Prop where
  | result (r : Attempt α) : Parallel A Rep (.result r) (.result r)
  | logLeft (r : Record) {c d : Check α} (h : Parallel A Rep c d) : Parallel A Rep (.log r c) d
  | logRight (r : Record) {c d : Check α} (h : Parallel A Rep c d) : Parallel A Rep c (.log r d)
  | noteLeft (x : Value) {c d : Check α} (h : Parallel A Rep c d) : Parallel A Rep (.note x c) d
  | noteRight (x : Value) {c d : Check α} (h : Parallel A Rep c d) : Parallel A Rep c (.note x d)
  | ask (q : Request) {f g : Attempt q.Reply → Check α} (hq : A q)
    (h : ∀ a b, Rep q a b → Parallel A Rep (f a) (g b)) : Parallel A Rep (.ask q f) (.ask q g)

namespace Check.Parallel

open Run

variable {A A' : Request → Prop} {Rep : (q : Request) → Attempt q.Reply → Attempt q.Reply → Prop}
  {R : World → World → Prop}

theorem log (r : Record) {c d : Check α} (h : Parallel A Rep c d) :
    Parallel A Rep (.log r c) (.log r d) :=
  .logLeft r (.logRight r h)

theorem note (x y : Value) {c d : Check α} (h : Parallel A Rep c d) :
    Parallel A Rep (.note x c) (.note y d) :=
  .noteLeft x (.noteRight y h)

/-- Parallel checks are so where more may be asked. -/
theorem mono (hA : ∀ q, A q → A' q) {c d : Check α} (hcd : Parallel A Rep c d) :
    Parallel A' Rep c d := by
  induction hcd with
  | result r => exact .result r
  | logLeft r h ih => exact .logLeft r ih
  | logRight r h ih => exact .logRight r ih
  | noteLeft x h ih => exact .noteLeft x ih
  | noteRight x h ih => exact .noteRight x ih
  | ask q hq h ih => exact .ask q (hA q hq) ih

theorem bind {c d : Check α} {f g : α → Check β} (hcd : Parallel A Rep c d)
    (hfg : ∀ a, Parallel A Rep (f a) (g a)) : Parallel A Rep (c >>= f) (d >>= g) := by
  change Parallel A Rep (c.bind f) (d.bind g)
  induction hcd with
  | result r =>
    rcases r with fault | a
    · exact .result _
    · exact hfg a
  | logLeft r h ih => exact .logLeft r ih
  | logRight r h ih => exact .logRight r ih
  | noteLeft x h ih => exact .noteLeft x ih
  | noteRight x h ih => exact .noteRight x ih
  | ask q hq h ih => exact .ask q hq ih

/-- A check goes the same way as itself when it gets the same answers. -/
theorem refl (hRep : ∀ q a b, Rep q a b → a = b) (c : Check α) :
    Parallel (fun _ => True) Rep c c := by
  induction c with
  | result r => exact .result r
  | log r next ih => exact .log r ih
  | note entry next ih => exact .note entry entry ih
  | ask q next ih =>
    refine .ask q trivial fun a b hab => ?_
    rw [hRep q a b hab]
    exact ih b

/-- Parallel checks that are answered alike are in step. -/
theorem inStep (hR : Tandem R) {respond respond' : (q : Request) → Run q.Reply}
    (hrespond : ∀ q, A q → InStep R (Rep q) R (respond q) (respond' q)) {c d : Check α}
    (hcd : Parallel A Rep c d) : InStep R (Matching Eq) R (c.run respond) (d.run respond') := by
  induction hcd with
  | result r => exact fun w v hwv => ⟨Matching.of_eq rfl, hwv⟩
  -- neither of the worlds is read where only one of the checks writes
  | logLeft r h ih => exact hR.logAll_left ih [r]
  | logRight r h ih => exact fun w v hwv => ih w _ (hR.quiet w.journal _ w.notes _ hwv)
  | noteLeft x h ih => exact fun w v hwv => ih _ v (hR.quiet _ v.journal _ v.notes hwv)
  | noteRight x h ih => exact fun w v hwv => ih w _ (hR.quiet w.journal _ w.notes _ hwv)
  | ask q hq h ih =>
    intro w v hwv
    obtain ⟨hreply, hworld⟩ := hrespond q hq w v hwv
    exact ih _ _ hreply _ _ hworld

end Check.Parallel

end FormRules
