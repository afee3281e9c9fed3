import Bombay.Observe.Wakes

/-!
# Where outcomes and notices come from

What an observer of a slot gets to see was put there in the same history: an outcome by the
publisher's call of `complete`, and the place in the registry by which somebody is notified by that
very waiter.  A shared slot also keeps its outcome: nobody takes it away.
-/

set_option autoImplicit false

namespace Observe

open Machine List Option

variable {W O : Type}

/-! ## Outcomes -/

@[simp] def Place.carries : Place W O → Option O
  | complete outcome | store outcome | future _ (some (.ready outcome)) | thread (some outcome) =>
    some outcome
  | _ => none

/-- The publisher has called `complete` with this outcome. -/
def Publishes (tr : SlotHistory W O) (outcome : O) : Prop :=
  ∃ x ∈ tr, x.input = .run 0 (.complete outcome)

variable {outcome : O}

theorem Publishes.mono {tr tr' : SlotHistory W O} (h : Publishes tr outcome) :
    Publishes (tr ++ tr') outcome := by
  obtain ⟨x, hx, hinput⟩ := h
  exact ⟨x, mem_append_left _ hx, hinput⟩

/-- Whatever outcome there is was published. -/
structure Published (tr : SlotHistory W O) (w : Pool (Slot W O) (Place W O)) : Prop where
  outcome : ∀ outcome, w.shared.outcome = some outcome → Publishes tr outcome
  places : ∀ (t : ℕ) p outcome, w.threads[t]? = some p → p.carries = some outcome →
    Publishes tr outcome

variable [DecidableEq W] {flavor : Flavor} {s s' : Slot W O} {t : ℕ} {p p' : Place W O}
  {i : Input W O} {tr : SlotHistory W O} {w : Pool (Slot W O) (Place W O)}

theorem Acts.outcome_of (h : Acts flavor s t p i s' p') (hs : Written s)
    (ho : s'.outcome = some outcome) : s.outcome = some outcome ∨ p.carries = some outcome := by
  cases h
  case stored => exact .inr ho
  case unwritten missing reads => exact (hs.missing missing reads).elim
  all_goals exact .inl ho

theorem Acts.carries_of (h : Acts flavor s t p i s' p') (ho : p'.carries = some outcome) :
    s.outcome = some outcome ∨ p.carries = some outcome ∨ p.publishes ∧ i = .complete outcome := by
  cases h
  case called owner =>
    rcases owner with rfl | ⟨panicked, rfl⟩ <;> simp_all
  all_goals simp_all

theorem published_run (h : SlotRun flavor tr w) : Published tr w := by
  refine h.history (P := Published) ?_ fun tr w a w' hrun hw hstep => ?_
  · refine ⟨by simp [start, Slot.new], fun t p outcome hp ho => ?_⟩
    have hmem := mem_of_getElem? hp
    cases flavor <;> simp [start] at hmem
    · simp [hmem] at ho
    · rcases hmem with rfl | rfl <;> simp at ho
  · have hg := ground_run hrun
    rcases step_cases hstep with ⟨p, rfl, hjoins, rfl⟩ | ⟨t, i, p, s, p', rfl, hp, hacts, rfl⟩
    · refine ⟨fun o ho => (hw.outcome o ho).mono, fun t r o hr ho => ?_⟩
      rcases of_joined hr with hold | ⟨-, rfl⟩
      · exact (hw.places t r o hold ho).mono
      · rcases (joins_cases hjoins).2 with rfl | rfl | ⟨waker, rfl⟩ <;> cases ho
    · refine ⟨fun o ho => ?_, fun u r o hr ho => ?_⟩
      · rcases hacts.outcome_of hg.written ho with h | h
        · exact (hw.outcome o h).mono
        · exact (hw.places t p o hp h).mono
      · rcases of_moved hr with ⟨rfl, rfl⟩ | ⟨-, hold⟩
        · rcases hacts.carries_of ho with h | h | ⟨hrole, rfl⟩
          · exact (hw.outcome o h).mono
          · exact (hw.places u p o hp h).mono
          · obtain rfl := (hg.fits u p hp).role.mp hrole
            exact ⟨_, mem_append_right _ (mem_singleton_self _), rfl⟩
        · exact (hw.places u r o hold ho).mono

/-! ## A shared slot keeps its outcome -/

/-- Nobody takes the outcome of a shared slot. -/
structure Kept (w : Pool (Slot W O) (Place W O)) : Prop where
  untaken : ∀ (t : ℕ) waker, w.threads[t]? ≠ some (.take waker)
  valid : w.shared.completed → w.shared.outcomeValid
  early : w.shared.outcome.isSome → w.shared.completed ∨ w.threads[0]? = some .mark

theorem Acts.untaken {waker : Option W} (h : Acts .shared s t p i s' p') : p' ≠ .take waker := by
  rintro rfl
  cases h
  case entryTake affine => cases affine
  case lastTake affine => cases affine

theorem Acts.valid (h : Acts .shared s t p i s' p') (hs : Written s) (hp : ∀ waker, p ≠ .take waker)
    (hv : s.completed → s.outcomeValid) : s'.completed → s'.outcomeValid := by
  cases h
  case marked | markedAlone => exact fun _ => rfl
  case took waker outcome valid read => exact absurd rfl (hp waker)
  case unwritten missing reads => exact (hs.missing missing reads).elim
  all_goals exact hv

theorem Acts.early (h : Acts flavor s t p i s' p') (hs : Written s) (ho : s'.outcome.isSome) :
    s.outcome.isSome ∧ (p = .mark → s'.completed) ∨ p.publishes ∧ p' = .mark := by
  cases h
  case stored => exact .inr ⟨rfl, rfl⟩
  case called outcome owner => exact .inl ⟨ho, by rcases owner with rfl | ⟨b, rfl⟩ <;> simp⟩
  case unwritten missing reads => exact (hs.missing missing reads).elim
  case marked | markedAlone => exact .inl ⟨ho, fun _ => rfl⟩
  all_goals exact .inl ⟨ho, nofun⟩

theorem kept_run (h : SlotRun .shared tr w) : Kept w := by
  refine h.history (P := fun _ => Kept) ?_ fun tr w a w' hrun hw hstep => ?_
  · refine ⟨fun t waker ht => ?_, by simp [start, Slot.new], by simp [start, Slot.new]⟩
    have hmem := mem_of_getElem? ht
    simp [start] at hmem
  · have hg := ground_run hrun
    obtain ⟨p0, hp0⟩ := hg.publisher
    have hpos := lt_of_get hp0
    rcases step_cases hstep with ⟨p, rfl, hjoins, rfl⟩ | ⟨t, i, p, s, p', rfl, hp, hacts, rfl⟩
    · refine ⟨fun t waker ht => ?_, hw.valid, fun ho => (hw.early ho).imp id fun h => ?_⟩
      · rcases of_joined ht with hold | ⟨-, rfl⟩
        · exact hw.untaken t waker hold
        · rcases (joins_cases hjoins).2 with h | h | ⟨waker, h⟩ <;> cases h
      · exact (getElem?_append_left hpos).trans h
    · have hfit := hg.fits t p hp
      refine ⟨fun u waker hu => ?_, ?_, fun ho => ?_⟩
      · rcases of_moved hu with ⟨rfl, h⟩ | ⟨-, hold⟩
        · exact hacts.untaken h.symm
        · exact hw.untaken u waker hold
      · exact hacts.valid hg.written (fun waker h => hw.untaken t waker (h ▸ hp)) hw.valid
      · have hst := hacts.steady hg.written hfit (Nat.succ_ne_self t)
        rcases hacts.early hg.written ho with ⟨hsome, hmark⟩ | ⟨hrole, rfl⟩
        · refine (hw.early hsome).elim (.inl ∘ hst.completed_mono) fun h => ?_
          by_cases ht : t = 0
          · subst ht
            exact .inl (hmark (some.inj (hp.symm.trans h)))
          · exact .inr ((getElem?_set_ne ht).trans h)
        · obtain rfl := hfit.role.mp hrole
          exact .inr (getElem?_set_self hpos)

/-! ## Notices -/

/-- Whom an entry notifies. -/
def Waiter.who : Waiter W → W ⊕ ℕ
  | .thread id => .inr id
  | .waker w _ => .inl w

def Call.installs : Call W → Option W
  | .poll _ cx => some cx
  | .register waker => some waker
  | .wait _ => none

/-- A section that puts somebody into the registry. -/
def Enlists (who : W ⊕ ℕ)
    (x : Transition (Pool (Slot W O) (Place W O)) (Schedule (Place W O) (Input W O))) : Prop :=
  ∃ t p, x.input = .run t .advance ∧ x.source.threads[t]? = some p ∧
    ((∃ timed, p = .push timed ∧ who = .inr t) ∨
      ∃ call a, p = .install call ∧ call.installs = some a ∧ who = .inl a)

namespace Waiters

variable {a : W} {who : W ⊕ ℕ} {waiters : List (Waiter W)}

theorem who_join
    (h : who ∈ (join a waiters).map Waiter.who) : who = .inl a ∨ who ∈ waiters.map Waiter.who := by
  induction waiters using byEntry with
  | nil => exact .inl (by simpa [Waiter.who] using h)
  | thread _ _ ih =>
    rcases mem_cons.mp h with rfl | h
    · exact .inr (mem_cons_self ..)
    · exact (ih h).imp id (mem_cons_of_mem _)
  | waker _ _ _ ih =>
    rw [join] at h
    split at h
    · exact .inr (by simpa [Waiter.who] using h)
    · rcases mem_cons.mp h with rfl | h
      · exact .inr (mem_cons_self ..)
      · exact (ih h).imp id (mem_cons_of_mem _)

theorem map_who_persist (a : W) (waiters : List (Waiter W)) :
    (persist a waiters).map Waiter.who = (join a waiters).map Waiter.who := by
  induction waiters using byEntry with
  | nil => rfl
  | thread _ _ ih => rw [persist, join, map_cons, map_cons, ih]
  | waker _ _ _ ih =>
    rw [persist, join]
    split
    · rfl
    · rw [map_cons, map_cons, ih]

variable {waiters' : List (Waiter W)}

theorem who_removeOwner
    (hr : removeOwner a waiters = some waiters') (h : who ∈ waiters'.map Waiter.who) :
    who ∈ waiters.map Waiter.who := by
  induction waiters generalizing waiters' with
  | nil =>
    obtain rfl := some.inj hr
    exact h
  | cons x waiters ih =>
    have hrest {rest : List (Waiter W)} (hrest : removeOwner a waiters = some rest) {y : Waiter W}
        (hy : y.who = x.who) (h : who ∈ (y :: rest).map Waiter.who) :
        who ∈ (x :: waiters).map Waiter.who := by
      rcases mem_cons.mp h with rfl | h
      · exact hy ▸ mem_cons_self ..
      · exact mem_cons_of_mem _ (ih hrest h)
    cases x with
    | thread =>
      obtain ⟨rest, hsome, rfl⟩ := map_eq_some_iff.mp hr
      exact hrest hsome rfl h
    | waker =>
      rw [removeOwner] at hr
      split at hr
      · split at hr
        · cases hr
        · obtain rfl := some.inj hr
          exact mem_cons_of_mem _ h
        · obtain rfl := some.inj hr
          exact h
      · obtain ⟨rest, hsome, rfl⟩ := map_eq_some_iff.mp hr
        exact hrest hsome rfl h

theorem who_migrate {waker : Option W} {cx : W}
    (hm : migrate waiters waker cx = some waiters') (h : who ∈ waiters'.map Waiter.who) :
    who = .inl cx ∨ who ∈ waiters.map Waiter.who := by
  unfold migrate at hm
  split at hm
  · obtain rfl := some.inj hm
    exact who_join h
  · split at hm
    · obtain rfl := some.inj hm
      exact .inr h
    · exact who_join (who_removeOwner hm h)

end Waiters

variable {who : W ⊕ ℕ}

/-- Who is in the registry after a section was there before, or has been put there by it. -/
theorem Acts.waiters_of (h : Acts flavor s t p i s' p') (hs : Written s)
    (hwho : who ∈ s'.waiters.map Waiter.who) : who ∈ s.waiters.map Waiter.who ∨
      i = .advance ∧ ((∃ timed, p = .push timed ∧ who = .inr t) ∨
        ∃ call a, p = .install call ∧ call.installs = some a ∧ who = .inl a) := by
  have hremove (h : who ∈ (Waiters.removeThread t s.waiters).map Waiter.who) :
      who ∈ s.waiters.map Waiter.who := by
    obtain ⟨x, hx, rfl⟩ := mem_map.mp h
    exact mem_map_of_mem (Waiters.mem_removeThread.mp hx).1
  cases h
  case migrated waker cx waiters migrates =>
    exact (Waiters.who_migrate migrates hwho).symm.imp id fun h => ⟨rfl, .inr ⟨_, cx, rfl, rfl, h⟩⟩
  case persisted waker =>
    rw [Waiters.map_who_persist] at hwho
    exact (Waiters.who_join hwho).symm.imp id fun h => ⟨rfl, .inr ⟨_, waker, rfl, rfl, h⟩⟩
  case deregistered waker waiters free removes => exact .inl (Waiters.who_removeOwner removes hwho)
  case pushed timed =>
    obtain ⟨x, hx, rfl⟩ := mem_map.mp hwho
    rcases Waiters.mem_pushThread.mp hx with rfl | hmem
    · exact .inr ⟨rfl, .inl ⟨timed, rfl, rfl⟩⟩
    · exact .inl (mem_map_of_mem hmem)
  case waitSeen | expired => exact .inl (hremove hwho)
  case drained => cases hwho
  case unwritten missing reads => exact (hs.missing missing reads).elim
  all_goals exact .inl hwho

/-- Who is still to be notified after a section was in the registry or was to be notified before. -/
theorem Acts.notices_of (h : Acts flavor s t p i s' p') (hwho : who ∈ p'.notices.map Waiter.who) :
    who ∈ s.waiters.map Waiter.who ∨ who ∈ p.notices.map Waiter.who := by
  cases h
  case drained => exact .inl hwho
  case unparked | woke => exact .inr (mem_cons_of_mem _ hwho)
  all_goals cases hwho

/-- Everybody who is notified has put themselves into the registry. -/
structure Listed (tr : SlotHistory W O) (w : Pool (Slot W O) (Place W O)) : Prop where
  waiters : ∀ who ∈ w.shared.waiters.map Waiter.who, ∃ x ∈ tr, Enlists who x
  notices : ∀ (t : ℕ) p, w.threads[t]? = some p → ∀ who ∈ p.notices.map Waiter.who,
    ∃ x ∈ tr, Enlists who x

theorem listed_run (h : SlotRun flavor tr w) : Listed tr w := by
  refine h.history (P := Listed) ?_ fun tr w a w' hrun hw hstep => ?_
  · refine ⟨by simp [start, Slot.new], fun t p hp who hwho => ?_⟩
    have hmem := mem_of_getElem? hp
    cases flavor <;> simp [start] at hmem
    · simp [hmem] at hwho
    · rcases hmem with rfl | rfl <;> simp at hwho
  · have hearlier {who : W ⊕ ℕ} (h : ∃ x ∈ tr, Enlists who x) :
        ∃ x ∈ tr ++ [⟨w, a, w'⟩], Enlists who x := by
      obtain ⟨x, hx, henlists⟩ := h
      exact ⟨x, mem_append_left _ hx, henlists⟩
    rcases step_cases hstep with ⟨p, rfl, hjoins, rfl⟩ | ⟨t, i, p, s, p', rfl, hp, hacts, rfl⟩
    · refine ⟨fun who hwho => hearlier (hw.waiters who hwho), fun t r hr who hwho => ?_⟩
      rcases of_joined hr with hold | ⟨-, rfl⟩
      · exact hearlier (hw.notices t r hold who hwho)
      · rcases (joins_cases hjoins).2 with rfl | rfl | ⟨waker, rfl⟩ <;> cases hwho
    · refine ⟨fun who hwho => ?_, fun u r hr who hwho => ?_⟩
      · rcases hacts.waiters_of (ground_run hrun).written hwho with hold | ⟨rfl, henlists⟩
        · exact hearlier (hw.waiters who hold)
        · exact ⟨_, mem_append_right _ (mem_singleton_self _), t, p, rfl, hp, henlists⟩
      · rcases of_moved hr with ⟨rfl, rfl⟩ | ⟨-, hold⟩
        · rcases hacts.notices_of hwho with h | h
          · exact hearlier (hw.waiters who h)
          · exact hearlier (hw.notices u p hp who h)
        · exact hearlier (hw.notices u r hold who hwho)

end Observe
