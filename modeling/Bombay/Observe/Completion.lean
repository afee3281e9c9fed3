import Bombay.Observe.Wakes

/-!
# What an observer may rely on

Two promises.  A waiter that was told to wait is told when the outcome is there: after `complete`
has returned, every waker that is registered has been woken, every parked thread has its token, and
the registry is empty.  And nobody is told to wait for an outcome that is there already: a poll that
begins after `COMPLETED` is set has at most two sections to go and answers `Ready`.

The one exception belongs to the affine observation.  It gives its outcome away, so a poll after the
one that got it has nothing to return, and panics.
-/

set_option autoImplicit false

namespace Observe

open Machine List Option

variable {W O : Type}

/-! ## Polls that begin late -/

section Polls

/-- Where a future is that was last polled after `COMPLETED` was set. -/
@[simp] def Place.late (flavor : Flavor) : Place W O → Bool
  | entry (.poll ..) | future .. | deregister _ | dropped | failed => true
  | take _ => flavor = .affine
  | _ => false

/-- A section in which the poll of `t` returns. -/
def Answers (t : ℕ) (answer : Poll O)
    (x : Transition (Pool (Slot W O) (Place W O)) (Schedule (Place W O) (Input W O))) : Prop :=
  x.input = .run t .advance ∧ ∃ waker, x.target.threads[t]? = some (.future waker (some answer))

variable [DecidableEq W] {flavor : Flavor} {s s' : Slot W O} {t : ℕ} {p p' : Place W O}
    {i : Input W O}
  {w : Pool (Slot W O) (Place W O)} {tr : SlotHistory W O}

theorem Acts.late (h : Acts flavor s t p i s' p') (hs : s.completed) (hp : p.late flavor) :
    p'.late flavor := by
  cases h
  case called outcome owner => rcases owner with rfl | ⟨panicked, rfl⟩ <;> cases hp
  all_goals simp_all

theorem Acts.answer {waker : Option W} {answer : Poll O}
    (h : Acts flavor s t p .advance s' (.future waker (some answer))) (hs : s.completed)
    (hp : p.late flavor) :
    (∃ outcome, s.outcome = some outcome ∧ answer = .ready outcome) ∨
      flavor = .affine ∧ answer = .panicked ∧ s.outcomeValid = false := by
  cases h
  case entryReady outcome _ _ read => exact .inl ⟨outcome, read, rfl⟩
  case took outcome valid read => exact .inl ⟨outcome, read, rfl⟩
  case yielded invalid => exact .inr ⟨by simpa using hp, rfl, invalid⟩
  all_goals simp_all

/-- `COMPLETED` is set, and the future `t` was last polled after that. -/
def Late (flavor : Flavor) (t : ℕ) (w : Pool (Slot W O) (Place W O)) : Prop :=
  w.shared.completed ∧ ∃ p, w.threads[t]? = some p ∧ p.late flavor

theorem late_run {before} {v}
    (hv : SlotRun flavor before v) (hlate : Late flavor t v) (h : Run (step flavor) v tr w) :
    Late flavor t w := by
  refine h.history hlate ?_
  rintro tr w a w' hrun ⟨hc, p, hp, hplate⟩ hstep
  have hg := ground_run (hv.append hrun)
  have hlt := lt_of_get hp
  rcases step_cases hstep with ⟨q, rfl, -, rfl⟩ | ⟨u, i, q, s, q', rfl, hq, hacts, rfl⟩
  · exact ⟨hc, p, (getElem?_append_left hlt).trans hp, hplate⟩
  · have hst := hacts.steady hg.written (hg.fits u q hq) (Nat.succ_ne_self u)
    refine ⟨hst.completed_mono hc, ?_⟩
    by_cases hu : u = t
    · subst hu
      obtain rfl := some.inj (hp.symm.trans hq)
      exact ⟨q', getElem?_set_self hlt, hacts.late hc hplate⟩
    · exact ⟨p, (getElem?_set_ne hu).trans hp, hplate⟩

/-- The outcome of a completed slot is gone only when a poll has returned it. -/
theorem spent_run (h : SlotRun flavor tr w) (hc : w.shared.completed)
    (hv : w.shared.outcomeValid = false) :
    ∃ z ∈ tr, ∃ t outcome, Answers t (.ready outcome) z := by
  refine h.history ?_ ?_ hc hv
  · simp [start, Slot.new]
  · intro tr w a w' hrun ih hstep hc hv
    have hg := ground_run hrun
    have hearlier (hc : w.shared.completed) (hv : w.shared.outcomeValid = false) :
        ∃ z ∈ tr ++ [⟨w, a, w'⟩], ∃ t outcome, Answers t (.ready outcome) z := by
      obtain ⟨z, hz, hanswer⟩ := ih hc hv
      exact ⟨z, mem_append_left _ hz, hanswer⟩
    rcases step_cases hstep with ⟨q, rfl, -, rfl⟩ | ⟨u, i, q, s, q', rfl, hq, hacts, rfl⟩
    · exact hearlier hc hv
    · have hlt := lt_of_get hq
      cases hacts
      case took waker outcome _ _ =>
        exact ⟨_, mem_append_right _ (mem_singleton_self _), u, outcome, rfl, waker,
          getElem?_set_self hlt⟩
      case marked | markedAlone => cases hv
      case unwritten missing reads => exact (hg.written.missing missing reads).elim
      all_goals exact hearlier hc hv

theorem affine_length (h : SlotRun .affine tr w) : w.threads.length = 2 := by
  refine h.history rfl ?_
  intro tr w a w' _ hw hstep
  rcases step_cases hstep with ⟨q, rfl, hjoins, rfl⟩ | ⟨u, i, q, s, q', rfl, hq, hacts, rfl⟩
  · cases (joins_cases hjoins).1
  · rw [length_set, hw]

omit [DecidableEq W] in
theorem Ground.affine_observer (hg : Ground w) (hlen : w.threads.length = 2) {waker : Option W}
    {answer} (ht : w.threads[t]? = some (.future waker answer)) : t = 1 := by
  have hlt := lt_of_get ht
  have hne : t ≠ 0 := (hg.fits t _ ht).role.not.mp (by simp)
  omega

/-- A late poll is ready, unless the affine observation has returned its outcome before. -/
theorem late_answer {before between rest} {x y} {cx : W} {answer : Poll O}
    (h : SlotRun flavor (before ++ x :: (between ++ y :: rest)) w)
    (hx : x.input = .run t (.poll cx)) (hc : x.source.shared.completed) (hy : Answers t answer y) :
    (∃ outcome, y.source.shared.outcome = some outcome ∧ answer = .ready outcome) ∨
      flavor = .affine ∧ answer = .panicked ∧
        ∃ z ∈ before ++ x :: between, ∃ outcome, Answers t (.ready outcome) z := by
  obtain ⟨hbefore, hstepx, hafter⟩ := h.at
  obtain ⟨hbetween, hstepy, -⟩ := hafter.at
  have hrunx := hbefore.snoc hstepx
  -- the poll begins: `t` stands before its first check
  have hlate : Late flavor t x.target := by
    rw [hx] at hstepx
    rcases step_cases hstepx with ⟨q, ⟨⟩, -⟩ | ⟨u, i, q, s, q', ⟨⟩, hq, hacts, htarget⟩
    have hlt := lt_of_get hq
    rw [htarget]
    cases hacts with
    | polled => exact ⟨hc, _, getElem?_set_self hlt, rfl⟩
    | woke _ _ _ _ _ _ hi => rcases hi with hi | hi <;> cases hi
  obtain ⟨hcy, p, hp, hplate⟩ := late_run hrunx hlate hbetween
  have hruny : SlotRun flavor (before ++ x :: between) y.source := by
    simpa using hrunx.append hbetween
  obtain ⟨hinput, waker, htarget⟩ := hy
  have hstepy' := hstepy
  rw [hinput] at hstepy'
  rcases step_cases hstepy' with ⟨q, ⟨⟩, -⟩ | ⟨u, i, q, s, q', ⟨⟩, hq, hacts, hw'⟩
  have hlt := lt_of_get hq
  obtain rfl := some.inj (hp.symm.trans hq)
  obtain rfl : q' = .future waker (some answer) := by
    rw [hw', getElem?_set_self hlt] at htarget
    exact some.inj htarget
  refine (hacts.answer hcy hplate).imp id ?_
  rintro ⟨rfl, rfl, hv⟩
  obtain ⟨z, hz, t', outcome, hanswer⟩ := spent_run hruny hcy hv
  -- whoever took the outcome was the affine observation as well
  have hone : t = 1 :=
    (ground_run (hruny.snoc hstepy)).affine_observer (affine_length (hruny.snoc hstepy)) htarget
  obtain ⟨pre, post, hsplit, hrunz, hstepz⟩ := hruny.of_mem hz
  obtain ⟨hinz, waker', htz⟩ := hanswer
  have hone' : t' = 1 :=
    (ground_run (hrunz.snoc hstepz)).affine_observer (affine_length (hrunz.snoc hstepz)) htz
  obtain rfl : t' = t := hone'.trans hone.symm
  exact ⟨rfl, rfl, z, hz, outcome, hinz, waker', htz⟩

theorem late_prompt (hg : Ground w) (hc : w.shared.completed) {waker : Option W}
    (ht : w.threads[t]? = some p) (hp : (∃ cx, p = .entry (.poll waker cx)) ∨ p = .take waker) :
    ∃ w', step flavor w (.run t .advance) = some w' ∧
      ((∃ answer, w'.threads[t]? = some (.future waker (some answer))) ∨
        (∃ cx, p = .entry (.poll waker cx)) ∧ w'.threads[t]? = some (.take waker)) := by
  have hlt := lt_of_get ht
  obtain ⟨outcome, hread⟩ := isSome_iff_exists.mp (hg.written.outcome hc)
  rcases hp with ⟨cx, rfl⟩ | rfl
  · cases flavor with
    | shared =>
      refine ⟨⟨w.shared, w.threads.set t (.future waker (some (.ready outcome)))⟩, ?_,
        .inl ⟨_, getElem?_set_self hlt⟩⟩
      simp [step, Pool.step, ht, act, advance, hc, finishPoll, Slot.read, hread, goto]
    | affine =>
      refine ⟨⟨w.shared, w.threads.set t (.take waker)⟩, ?_,
        .inr ⟨⟨cx, rfl⟩, getElem?_set_self hlt⟩⟩
      simp [step, Pool.step, ht, act, advance, hc, finishPoll, goto]
  · by_cases hv : w.shared.outcomeValid
    · refine ⟨⟨{ w.shared with outcomeValid := false },
        w.threads.set t (.future waker (some (.ready outcome)))⟩, ?_,
        .inl ⟨_, getElem?_set_self hlt⟩⟩
      simp [step, Pool.step, ht, act, advance, hv, Slot.read, hread, goto]
    · refine ⟨⟨w.shared, w.threads.set t (.future waker (some .panicked))⟩, ?_,
        .inl ⟨_, getElem?_set_self hlt⟩⟩
      simp [step, Pool.step, ht, act, advance, hv, goto]

end Polls

/-! ## The result -/

variable [DecidableEq W]

/-- What the history of a slot guarantees its observers. -/
structure NoLostWake (flavor : Flavor) (tr : SlotHistory W O) (w : Pool (Slot W O) (Place W O)) :
    Prop where
  /-- After `complete` has returned, a future that was told to wait has had its waker woken, -/
  futures : Returned tr → ∀ (t : ℕ) waker, w.threads[t]? = some (.future waker (some .pending)) →
    ∃ a, waker = some a ∧ a ∈ w.shared.woken
  /-- so has a registration by `register_waker`, -/
  registered : Returned tr → ∀ (t : ℕ) a, w.threads[t]? = some (.registered a) → a ∈ w.shared.woken
  /-- a parked thread has been unparked, -/
  parked : Returned tr → ∀ (t : ℕ) timed, w.threads[t]? = some (.park timed) → w.shared.tokens t
  /-- and nobody is left in the registry: it is empty for all who may look at it, and inside the
  mutex at most one thread is in it, which is about to see `COMPLETED` and take itself out. -/
  vacant : Returned tr → w.shared.holder = none → w.shared.waiters = []
  transient : Returned tr → ∀ x ∈ w.shared.waiters, ∃ t timed, x = .thread t ∧
    w.shared.holder = some t ∧ w.threads[t]? = some (.recheck (.wait timed))
  /-- A poll that begins after `COMPLETED` is set returns the outcome.  Only the affine observation
  can be polled for an outcome that it has returned already. -/
  ready : ∀ before x between y rest t cx answer, tr = before ++ x :: (between ++ y :: rest) →
    x.input = .run t (.poll cx) → x.source.shared.completed → Answers t answer y →
    (∃ outcome, y.source.shared.outcome = some outcome ∧ answer = .ready outcome) ∨
      flavor = .affine ∧ answer = .panicked ∧
        ∃ z ∈ before ++ x :: between, ∃ outcome, Answers t (.ready outcome) z
  /-- Such a poll never waits: it answers in its first check, or, if affine, right behind it. -/
  prompt : ∀ (t : ℕ) p waker, w.threads[t]? = some p → w.shared.completed →
    ((∃ cx, p = .entry (.poll waker cx)) ∨ p = .take waker) →
    ∃ w', step flavor w (.run t .advance) = some w' ∧
      ((∃ answer, w'.threads[t]? = some (.future waker (some answer))) ∨
        (∃ cx, p = .entry (.poll waker cx)) ∧ w'.threads[t]? = some (.take waker))
  /-- No expectation about the registry or the outcome fails. -/
  working : ∀ t : ℕ, w.threads[t]? ≠ some .failed

/-- **No completion is slept through**, in whatever order the sections of the publisher, the polls,
registrations, migrations, drops and blocking waits run. -/
theorem no_lost_wake {flavor : Flavor} {tr : SlotHistory W O} {w : Pool (Slot W O) (Place W O)}
    (h : SlotRun flavor tr w) : NoLostWake flavor tr w := by
  have hg := ground_run h
  have hw := handshake_run h
  have hinside : ∀ (t : ℕ) timed, w.threads[t]? = some (.recheck (.wait timed)) →
      w.shared.holder = some t := fun t timed ht => (hg.fits t _ ht).inside.mp rfl
  have htold (hr : Returned tr) : told w = w.shared.woken := by
    rw [told, (settled_of_returned h hr).2]
    rfl
  refine ⟨fun hr t waker ht => ?_, fun hr t a ht => ?_, fun hr t timed ht => ?_, fun hr hfree => ?_,
    fun hr x hx => ?_, ?_, fun t p waker ht hc hp => late_prompt hg hc ht hp, fun t ht => ?_⟩
  · obtain ⟨a, rfl⟩ := isSome_iff_exists.mp (hg.fits t _ ht).shown
    exact ⟨a, rfl, htold hr ▸ (hw.owes t _ ht).future a rfl (settled_of_returned h hr).1⟩
  · exact htold hr ▸ (hw.owes t _ ht).registered a rfl (settled_of_returned h hr).1
  · obtain ⟨hs, hn⟩ := settled_of_returned h hr
    rcases (hw.owes t _ ht).parks rfl with hmem | hmem | htoken
    · obtain ⟨u, timed', hu, hplace⟩ := hw.transient hs _ hmem
      obtain rfl : t = u := by simpa using hu
      cases ht.symm.trans hplace
    · rw [hn] at hmem
      cases hmem
    · exact htoken
  · exact hw.vacant hg (settled_of_returned h hr).1 hfree
  · obtain ⟨t, timed, rfl, ht⟩ := hw.transient (settled_of_returned h hr).1 x hx
    exact ⟨t, timed, rfl, hinside t timed ht, ht⟩
  · rintro before x between y rest t cx answer rfl hx hc hy
    exact late_answer h hx hc hy
  · exact (hw.owes t _ ht).working rfl

/-- A future with waker 7 is told to wait, a waker 8 is registered, a thread parks.  Another future
has looked for the last time before it registers waker 9 when the outcome 5 is published. -/
def race : List (Schedule (Place ℕ ℕ) (Input ℕ ℕ)) :=
  [.call (.future none none), .call (.entry (.register 8)), .call (.thread none),
    .call (.future none none), .run 1 (.poll 7)] ++ List.replicate 7 (.run 1 .advance) ++
    List.replicate 5 (.run 2 .advance) ++ .run 3 (.wait false) ::
      List.replicate 6 (.run 3 .advance) ++
    .run 4 (.poll 9) :: List.replicate 5 (.run 4 .advance) ++
    .run 0 (.complete 5) :: List.replicate 3 (.run 0 .advance) ++
    .run 4 .advance :: List.replicate 6 (.run 0 .advance)

def raced : Pool (Slot ℕ ℕ) (Place ℕ ℕ) :=
  ⟨{ completed := true, hasWaiter := true, outcomeValid := true, outcome := some 5, waiters := [],
     holder := none, tokens := Function.update (fun _ => false) 3 true, woken := [9, 8, 7] },
    [.completed false, .future (some 7) (some .pending), .registered 8, .park false,
      .last (some 9) 9]⟩

theorem no_lost_wake_race :
    ∃ tr, SlotRun .shared tr raced ∧ Returned tr ∧ NoLostWake .shared tr raced := by
  have hexec : (exec (step .shared) (start .shared) race).map Prod.snd = some raced := rfl
  obtain ⟨⟨tr, w⟩, hrun, rfl⟩ := map_eq_some_iff.mp hexec
  exact ⟨tr, exec_run hrun, returned_of_completed (exec_run hrun) rfl, no_lost_wake (exec_run hrun)⟩

/-- An affine observation that has returned the outcome 5. -/
def spent : Pool (Slot ℕ ℕ) (Place ℕ ℕ) :=
  ⟨{ (Slot.new : Slot ℕ ℕ) with completed := true, outcome := some 5 },
    [.completed false, .future none (some (.ready 5))]⟩

/-- An affine observation is polled once more after it has returned the outcome: the poll begins
after `COMPLETED` is set, and panics. -/
theorem late_poll_panics : ∃ tr v₁ v₂ v₃, SlotRun .affine tr spent ∧ spent.shared.completed ∧
    step .affine spent (.run 1 (.poll 7)) = some v₁ ∧ step .affine v₁ (.run 1 .advance) = some v₂ ∧
    step .affine v₂ (.run 1 .advance) = some v₃ ∧
    v₃.threads[1]? = some (.future none (some .panicked)) := by
  have hexec : (exec (step (W := ℕ) (O := ℕ) .affine) (start .affine)
      [.run 0 (.complete 5), .run 0 .advance, .run 0 .advance, .run 0 .advance, .run 1 (.poll 7),
        .run 1 .advance, .run 1 .advance]).map Prod.snd = some spent := rfl
  obtain ⟨⟨tr, w⟩, hrun, rfl⟩ := map_eq_some_iff.mp hexec
  exact ⟨tr, _, _, _, exec_run hrun, rfl, rfl, rfl, rfl, rfl⟩

end Observe
