import FormRules.Proofs.Run.Invariant

/-!
# Views of a run

A part of the world that only requests of predicates change can be followed from scene to scene: a
`view` of the world, and what a scene makes of it (`Traced.Follows`). At every scene of a run the
view is what the scenes so far have made of it, and after the run it is what all of them have made
of it, in whatever way the run ends (`Traced.Follows.validate`).
-/

namespace FormRules

/-- The event is not a request that a predicate made to an engine or an accessor. -/
def Event.Idle : Event → Prop
  | .answered _ (.passes ..) _ => True
  | .answered .. => False
  | _ => True

namespace Traced

/-! ## Requests one by one -/

/-- An invariant that every request to an engine or an accessor keeps, once the scene of its answer
is told, and that survives all other scenes. -/
structure Answering (J : List Scene → World → Prop) : Prop extends Quiet J where
  move : ∀ {h w} (name : String) (cursor : Option Context), J h w →
    J h (Run.setCursor name cursor w)
  publish : ∀ {h w} (name : String) (report : Report), J h w → J h (Run.publish name report w)
  idle : ∀ {h w} {event : Event}, event.Idle → J h w → J (h ++ [⟨event, w⟩]) w
  answered : ∀ {name e}, Holds J name e → ∀ here passes q, (∀ other form, q ≠ .passes other form) →
    ∀ {h w}, J h w →
      J (h ++ [⟨.answered (some ⟨name, here⟩) q
          (Run.respond (Run.readField e.accessor here.form) passes q w).1,
        (Run.respond (Run.readField e.accessor here.form) passes q w).2⟩])
        (Run.respond (Run.readField e.accessor here.form) passes q w).2

theorem Answering.sustained {J : List Scene → World → Prop} (hJ : Answering J) : Sustained J where
  log := hJ.log
  note := hJ.note
  move := hJ.move
  publish := hJ.publish
  mark {_ _ event} hown := hJ.idle (by cases event <;> trivial)
  exchange {passes} hpasses name e he here q := by
    have hq : (∃ other form, q = .passes other form) ∨ ∀ other form, q ≠ .passes other form := by
      cases q <;> simp
    rcases hq with ⟨other, form, rfl⟩ | hq
    · refine Keeps.bind (Leads.mark fun _ _ => hJ.idle trivial) fun _ => ?_
      refine Keeps.bind (hpasses other form).attempt fun reply => ?_
      exact Keeps.bind (Leads.mark fun _ _ => hJ.idle trivial) fun _ => Keeps.pure reply
    · -- nothing happens between the two scenes of such a request
      have hrespond : Traced.respond (Run.readField e.accessor here.form) passes q =
          silent (Run.respond (Run.readField e.accessor here.form)
            (fun other form => (passes other form).erase) q) := by
        cases q with
        | passes other form => exact absurd rfl (hq other form)
        | _ => rfl
      intro h w hw
      have hasked : J (h ++ [⟨.asked (some ⟨name, here⟩) q, w⟩]) w := hJ.idle trivial hw
      have hanswered := hJ.answered he here
        (fun other form => (passes other form).erase) q hq hasked
      rw [exchange_apply, hrespond]
      simpa [silent] using hanswered

/-! ## Following a view -/

variable {σ : Type} {view : World → σ} {after : σ → Scene → σ}

/-- The view is what the scenes have made of it: at each of them, and now. -/
structure Tracks (view : World → σ) (after : σ → Scene → σ) (start : σ) (h : List Scene)
    (w : World) : Prop where
  now : view w = h.foldl after start
  atScenes : ∀ pre s, pre ++ [s] <+: h → view s.world = (pre ++ [s]).foldl after start

/-- Only requests change the view, and what they make of it can be read off the scene in which they
are answered. -/
structure Follows (view : World → σ) (after : σ → Scene → σ) : Prop where
  log : ∀ w (rs : List Record), view { w with journal := w.journal ++ rs } = view w
  note : ∀ w (entry : Value), view { w with notes := w.notes ++ [entry] } = view w
  move : ∀ w name cursor, view (Run.setCursor name cursor w) = view w
  publish : ∀ w name report, view (Run.publish name report w) = view w
  idle : ∀ x (s : Scene), s.event.Idle → after x s = x
  answered : ∀ {sibling : Value → Run Value} {passes : String → Value → Run Bool},
    (∀ field, (sibling field).Reads) → ∀ caller q, (∀ other form, q ≠ .passes other form) → ∀ w,
      view (Run.respond sibling passes q w).2 = after (view w)
        ⟨.answered caller q (Run.respond sibling passes q w).1, (Run.respond sibling passes q w).2⟩

section

variable {start : σ} {h : List Scene} {w v : World}

theorem Tracks.of_eq (ht : Tracks view after start h w) (hv : view v = view w) :
    Tracks view after start h v :=
  ⟨hv.trans ht.now, ht.atScenes⟩

/-- One more scene. -/
theorem Tracks.concat (ht : Tracks view after start h w) {event : Event}
    (hv : view v = after (view w) ⟨event, v⟩) :
    Tracks view after start (h ++ [⟨event, v⟩]) v := by
  have hnow : view v = List.foldl after start (h ++ [⟨event, v⟩]) := by
    rw [List.foldl_append, List.foldl_cons, List.foldl_nil, ← ht.now]
    exact hv
  refine ⟨hnow, fun pre s hpre => ?_⟩
  rcases List.prefix_concat_iff.1 hpre with heq | hpre
  · obtain ⟨rfl, hs⟩ := List.append_inj' heq rfl
    obtain rfl := List.singleton_inj.1 hs
    exact hnow
  · exact ht.atScenes pre s hpre

end

namespace Follows

variable (hf : Follows view after)

include hf

theorem answering (start : σ) : Answering (Tracks view after start) where
  log rs ht := ht.of_eq (hf.log _ rs)
  note entry ht := ht.of_eq (hf.note _ entry)
  move name cursor ht := ht.of_eq (hf.move _ name cursor)
  publish name report ht := ht.of_eq (hf.publish _ name report)
  idle hidle ht := ht.concat (hf.idle _ ⟨_, _⟩ hidle).symm
  answered {_ e} _ here _ q hq _ w ht :=
    ht.concat (hf.answered (Run.reads_readField e.accessor here.form) _ q hq w)

/-- **At every scene of a run, the view is what the scenes so far have made of it**, and so it is
after the run. -/
theorem validate (depth : Nat) (name : String) (form : Value) (w : World) :
    Tracks view after (view w) (validate depth name form w).2 (validate depth name form w).1.2 := by
  have hstart : Tracks view after (view w) [] w := ⟨rfl, fun pre s hpre => by simp at hpre⟩
  exact (hf.answering (view w)).sustained.validate depth name form [] w hstart

end Follows

end Traced

end FormRules
