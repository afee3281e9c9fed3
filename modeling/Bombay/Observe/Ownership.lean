import Bombay.Observe.WaiterStore
import Bombay.Observe.Wakes

/-!
# Who owns the entry of a waker

The handshake of `Bombay.Observe.Wakes` needs that the count of an entry does not fall below the
futures that carry its waker.  It is exactly their number: a section that changes a count changes it
by what its own future gives up and takes (`Acts.counted`), so the counts and the futures stay level
over a whole run (`exact_run`).  An entry that no future owns was left by `register_waker`.

On the stored registry this means that none of its expectations fails.
-/

set_option autoImplicit false

namespace Observe

open Machine List Option Place Waiters

variable {W O : Type}

/-! ## Lasting entries -/

namespace Waiters

variable {b : W} {t : ℕ} {waiters : List (Waiter W)}

theorem lasting_pushThread : Lasting b (pushThread t waiters) ↔ Lasting b waiters := by
  simp [Lasting, mem_pushThread]

theorem lasting_removeThread : Lasting b (removeThread t waiters) ↔ Lasting b waiters := by
  simp [Lasting, mem_removeThread]

variable [DecidableEq W]

variable {a : W}

theorem lasting_of_join (h : Lasting b (join a waiters)) : Lasting b waiters := by
  induction waiters using byEntry with
  | nil => simp [Lasting] at h
  | thread _ _ ih => exact lasting_thread.mpr (ih (lasting_thread.mp h))
  | waker _ ownership _ ih =>
    rw [join] at h
    split at h
    · rcases lasting_waker.mp h with ⟨rfl, futures, hf⟩ | hrest
      · cases ownership with
        | futures => cases hf
        | persistent n => exact lasting_waker.mpr (.inl ⟨rfl, n, rfl⟩)
      · exact hrest.cons
    · rcases lasting_waker.mp h with hhere | hrest
      · exact lasting_waker.mpr (.inl hhere)
      · exact (ih hrest).cons

theorem lasting_of_persist (h : Lasting b (persist a waiters)) : b = a ∨ Lasting b waiters := by
  induction waiters using byEntry with
  | nil => simpa [Lasting] using h
  | thread _ _ ih => exact (ih (lasting_thread.mp h)).imp_right lasting_thread.mpr
  | waker _ _ _ ih =>
    rw [persist] at h
    split at h
    · next heq =>
      rcases lasting_waker.mp h with ⟨rfl, _⟩ | hrest
      · exact .inl heq
      · exact .inr hrest.cons
    · rcases lasting_waker.mp h with hhere | hrest
      · exact .inr (lasting_waker.mpr (.inl hhere))
      · exact (ih hrest).imp_right Lasting.cons

variable {waiters' : List (Waiter W)}

theorem lasting_of_removeOwner
    (hr : removeOwner a waiters = some waiters') (h : Lasting b waiters') : Lasting b waiters := by
  induction waiters using byEntry generalizing waiters' with
  | nil => cases hr; exact h
  | thread _ _ ih =>
    obtain ⟨rest, hrest, rfl⟩ := map_eq_some_iff.mp hr
    exact lasting_thread.mpr (ih hrest (lasting_thread.mp h))
  | waker _ ownership _ ih =>
    rw [removeOwner] at hr
    split at hr
    · split at hr
      · cases hr
      · cases hr
        exact h.cons
      · next left hleave =>
        cases hr
        rcases lasting_waker.mp h with ⟨rfl, futures, rfl⟩ | hrest
        · refine lasting_waker.mpr (.inl ⟨rfl, ?_⟩)
          cases ownership with
          | persistent n => exact ⟨n, rfl⟩
          | futures =>
            rw [WakerOwnership.leave] at hleave
            split at hleave <;> cases hleave
        · exact hrest.cons
    · obtain ⟨rest, hrest, rfl⟩ := map_eq_some_iff.mp hr
      rcases lasting_waker.mp h with hhere | hlater
      · exact lasting_waker.mpr (.inl hhere)
      · exact (ih hrest hlater).cons

theorem lasting_of_migrate {waker : Option W} {cx : W}
    (hm : migrate waiters waker cx = some waiters') (h : Lasting b waiters') :
    Lasting b waiters := by
  unfold migrate at hm
  split at hm
  · cases hm
    exact lasting_of_join h
  · split at hm
    · cases hm
      exact h
    · exact lasting_of_join (lasting_of_removeOwner hm h)

/-- An entry is there because a future owns it, or because it was left to stay. -/
theorem mem_wakers_iff : a ∈ wakers waiters ↔ 0 < owners a waiters ∨ Lasting a waiters := by
  induction waiters using byEntry with
  | nil => simp [Lasting]
  | thread _ _ ih => simpa using ih
  | waker w ownership _ ih =>
    rw [wakers_waker, mem_cons, owners_waker, lasting_waker, ih]
    by_cases h : w = a
    · subst h
      cases ownership with
      | futures n => simp [WakerOwnership.owners, n.2]
      | persistent => simp
    · simp [h, Ne.symm h]

end Waiters

/-! ## Level counts -/

variable [DecidableEq W]

/-- The counts of the registry are level with the futures, and what lasts was registered. -/
structure Exact (w : Pool (Slot W O) (Place W O)) : Prop where
  counts : ¬Settled w → ∀ a, owners a w.shared.waiters = total (owns a) w.threads
  lasting : ¬Settled w → ∀ a, Waiters.Lasting a w.shared.waiters → .registered a ∈ w.threads

/-- A section that changes the counts by what its own future gives up and takes. -/
structure Counted (s : Slot W O) (p : Place W O) (s' : Slot W O) (p' : Place W O) : Prop where
  counts : ∀ a, owners a s'.waiters + p.owns a = owners a s.waiters + p'.owns a
  lasting : ∀ a, Waiters.Lasting a s'.waiters → Waiters.Lasting a s.waiters ∨ p' = .registered a
  moves : ∀ a, p ≠ .registered a

section Step

variable {flavor : Flavor} {w : Pool (Slot W O) (Place W O)} {s' : Slot W O} {t : ℕ}
  {p p' : Place W O} {i : Input W O}

theorem Counted.quiet {s : Slot W O} (howners : ∀ a, owners a s'.waiters = owners a s.waiters)
    (hlasting : ∀ a, Waiters.Lasting a s'.waiters → Waiters.Lasting a s.waiters)
    (hreg : p'.registration = p.registration) (hmoves : ∀ a, p ≠ .registered a) :
    Counted s p s' p' where
  counts a := by rw [howners, owns, owns, hreg]
  lasting a ha := .inl (hlasting a ha)
  moves := hmoves

/-- **A section counts for its own future only**, until the slot is settled. -/
theorem Acts.counted (hacts : Acts flavor w.shared t p i s' p') (hw : Handshake w) (hg : Ground w)
    (hp : w.threads[t]? = some p) (hns : ¬Settled ⟨s', w.threads.set t p'⟩) :
    Counted w.shared p s' p' := by
  have hquiet : ∀ {q : Place W O}, s'.waiters = w.shared.waiters →
      q.registration = p.registration → (∀ a, p ≠ .registered a) → Counted w.shared p s' q :=
    fun hsame hreg hmoves => .quiet (fun a => by rw [hsame])
      (fun a => by rw [hsame]; exact id) hreg hmoves
  have hlt := lt_of_get hp
  have hfit := hg.fits t p hp
  cases hacts
  case called owner =>
    rcases owner with rfl | ⟨panicked, rfl⟩
    all_goals exact hquiet rfl rfl (by simp)
  case drained =>
    -- the publisher empties the registry, and the slot is settled
    have ht : t = 0 := hfit.role.mp rfl
    subst ht
    exact absurd ⟨hfit.after rfl, by rw [getElem?_set_self hlt]; simp⟩ hns
  case migrated waker cx waiters migrates =>
    have hs : ¬Settled w := (hw.owes t _ hp).installs rfl
    obtain ⟨waiters', hm, hmoved⟩ := migrate_owned cx (hw.nodup hs) fun a ha =>
      hw.owner hp hs (by rw [← ha])
    cases hm.symm.trans migrates
    refine ⟨fun a => ?_, fun a ha => .inl (lasting_of_migrate migrates ha), by simp⟩
    have := hmoved.counts a
    simpa [owns] using this
  case persisted waker =>
    refine ⟨fun a => ?_, fun a ha => ?_, by simp⟩
    · show owners a (persist waker w.shared.waiters) + _ = _
      rw [owners_persist]
      rfl
    · rcases lasting_of_persist ha with rfl | hrest
      · exact .inr rfl
      · exact .inl hrest
  case deregistered waker waiters free removes =>
    have ht : t ≠ 0 := hfit.role.not.mp (by simp)
    have hs : ¬Settled w := (settled_observer .dropped ht rfl).not.mp hns
    obtain ⟨waiters', hr, hleft⟩ := removeOwner_owned (hw.nodup hs) (hw.owner hp hs rfl)
    cases hr.symm.trans removes
    have hpos : 0 < owners waker w.shared.waiters := hw.owner hp hs rfl
    refine ⟨fun a => ?_, fun a ha => .inl (lasting_of_removeOwner removes ha), by simp⟩
    have := hleft.counts a
    simp only [owns, registration, some.injEq, reduceCtorEq, if_false]
    by_cases h : waker = a
    · subst h
      simp only [if_true] at this ⊢
      omega
    · simp only [h, if_false] at this ⊢
      omega
  case pushed timed =>
    exact .quiet (fun a => owners_pushThread a t _) (fun a => lasting_pushThread.mp)
      rfl (by simp)
  case waitSeen | expired =>
    exact .quiet (fun a => owners_removeThread a t _)
      (fun a => lasting_removeThread.mp) rfl (by simp)
  case unwritten missing reads => exact (hg.written.missing missing reads).elim
  case migrateFailed fails =>
    have hs : ¬Settled w := (hw.owes t _ hp).installs rfl
    obtain ⟨waiters', hm, _⟩ := migrate_owned _ (hw.nodup hs) fun a ha =>
      hw.owner hp hs (by rw [← ha])
    cases hm.symm.trans fails
  case deregisterFailed free fails =>
    obtain ⟨waiters', hr, _⟩ := hw.deregistered hg hp free
    cases hr.symm.trans fails
  case announced call | rechecked call _ => exact hquiet rfl (by cases call <;> rfl) (by simp)
  all_goals exact hquiet rfl rfl (by simp)

theorem settled_mono (hg : Ground w) (hp : w.threads[t]? = some p)
    (hacts : Acts flavor w.shared t p i s' p') (hs : Settled w) :
    Settled ⟨s', w.threads.set t p'⟩ := by
  have hlt := lt_of_get hp
  have hfit := hg.fits t p hp
  by_cases ht : t = 0
  · subst ht
    have hc : w.shared.completed := hs.1
    have hbefore := hfit.before
    have hrole : p.publishes := hfit.role.mpr rfl
    refine ⟨?_, ?_⟩
    · exact (hacts.steady hg.written hfit (u := 1) Nat.one_ne_zero).completed_mono hc
    · rw [getElem?_set_self hlt]
      cases hacts <;> simp_all
  · rcases (hacts.steady hg.written hfit (u := 0) (Ne.symm ht)).completed with hc | ⟨rfl, _⟩
    · exact (settled_observer p' ht hc).mpr hs
    · exact absurd (hfit.role.mp rfl) ht

theorem Exact.step (he : Exact w) (hw : Handshake w) (hg : Ground w) (hp : w.threads[t]? = some p)
    (hacts : Acts flavor w.shared t p i s' p') : Exact ⟨s', w.threads.set t p'⟩ := by
  have hlt := lt_of_get hp
  have hbefore (hns : ¬Settled ⟨s', w.threads.set t p'⟩) : ¬Settled w :=
    fun hs => hns (settled_mono hg hp hacts hs)
  refine ⟨fun hns a => ?_, fun hns a ha => ?_⟩
  · have hcounted := (hacts.counted hw hg hp hns).counts a
    have htotal := total_set (owns a) p' hp
    have hlevel := he.counts (hbefore hns) a
    show owners a s'.waiters = total (owns a) (w.threads.set t p')
    omega
  · have hcounted := hacts.counted hw hg hp hns
    rcases hcounted.lasting a ha with hold | rfl
    · obtain ⟨u, hu⟩ := mem_iff_getElem?.mp (he.lasting (hbefore hns) a hold)
      have hne : t ≠ u := by
        rintro rfl
        exact hcounted.moves a (some.inj (hp.symm.trans hu))
      exact mem_iff_getElem?.mpr ⟨u, (getElem?_set_ne hne).trans hu⟩
    · exact mem_iff_getElem?.mpr ⟨t, getElem?_set_self hlt⟩

end Step

/-! ## Runs -/

section Runs

variable {flavor : Flavor} {tr : SlotHistory W O} {w : Pool (Slot W O) (Place W O)}

theorem Exact.join (he : Exact w) (hg : Ground w) {p : Place W O} (hjoins : p.joins flavor) :
    Exact ⟨w.shared, w.threads ++ [p]⟩ := by
  obtain ⟨p0, hp0⟩ := hg.publisher
  have hpos := lt_of_get hp0
  have hsettled : Settled ⟨w.shared, w.threads ++ [p]⟩ ↔ Settled w := by
    rw [Settled, Settled, getElem?_append_left hpos]
  have hreg : p.registration = none := by
    rcases (joins_cases hjoins).2 with rfl | rfl | ⟨waker, rfl⟩ <;> rfl
  refine ⟨fun hns a => ?_, fun hns a ha => ?_⟩
  · rw [total_append, total_cons, owns_none a hreg]
    exact he.counts (hsettled.not.mp hns) a
  · exact mem_append_left _ (he.lasting (hsettled.not.mp hns) a ha)

theorem exact_run (h : SlotRun flavor tr w) : Exact w := by
  refine h.history (P := fun _ => Exact) ?_ fun tr w a w' hrun he hstep => ?_
  · refine ⟨fun _ a => ?_, fun _ a ha => ?_⟩
    · cases flavor <;> simp [start, Slot.new, owns]
    · obtain ⟨_, hmem⟩ := ha
      cases hmem
  · have hg := ground_run hrun
    rcases step_cases hstep with ⟨p, rfl, hjoins, rfl⟩ | ⟨t, i, p, s, p', rfl, hp, hacts, rfl⟩
    · exact he.join hg hjoins
    · exact he.step (handshake_run hrun) hg hp hacts

/-! ## The law -/

def Place.isFuture : Place W O → Bool
  | .entry (.poll ..) | .update .. | .announce (.poll ..) | .lock (.poll ..) | .recheck (.poll ..)
  | .install (.poll ..) | .last .. | .take _ | .future .. | .deregister _ => true
  | _ => false

/-- The number of futures at a slot. -/
def futures (w : Pool (Slot W O) (Place W O)) : ℕ := total (fun p => p.isFuture.toNat) w.threads

theorem owns_le (a : W) (p : Place W O) : p.owns a ≤ p.isFuture.toNat := by
  unfold owns
  split
  · next h =>
    have hfuture : p.isFuture = true := by
      unfold registration at h
      split at h <;> first | rfl | cases h
    rw [hfuture]
    rfl
  · exact Nat.zero_le _

/-- The future that installs a waker is one more than those that own its entry. -/
theorem owners_lt_futures (h : SlotRun flavor tr w) {t : ℕ} {waker : Option W} {cx : W}
    (hp : w.threads[t]? = some (.install (.poll waker cx))) (hne : waker ≠ some cx) :
    owners cx w.shared.waiters < futures w := by
  have hs : ¬Settled w := ((handshake_run h).owes t _ hp).installs rfl
  have howns := total_set (owns cx) (.last (some cx) cx) hp
  have hfutures := total_set (fun p : Place W O => p.isFuture.toNat) (.last (some cx) cx) hp
  have hle : total (owns cx) (w.threads.set t (.last (some cx) cx)) ≤
      total (fun p => p.isFuture.toNat) (w.threads.set t (.last (some cx) cx)) :=
    total_le fun p _ => owns_le cx p
  have hbefore : owns cx (.install (.poll waker cx) : Place W O) = 0 := if_neg hne
  have hafter : owns cx (.last (some cx) cx : Place W O) = 1 := if_pos rfl
  have hlevel := (exact_run h).counts hs cx
  have hsame : (install (.poll waker cx) : Place W O).isFuture.toNat =
      (last (some cx) cx : Place W O).isFuture.toNat := rfl
  rw [futures]
  omega

/-- The stored registry of `w` meets the expectations of the source, where no more than `limit`
futures can be counted.  `cls` takes a waker to its task. -/
structure Unfailing {R : Type} (willWake : R → R → Bool) (cls : R → W) (limit : ℕ) (store : Store R)
    (w : Pool (Slot W O) (Place W O)) : Prop where
  /-- A future that is to install a waker. -/
  updates : ∀ (t : ℕ) previous next,
    w.threads[t]? = some (install (.poll (previous.map cls) (cls next))) →
      ∃ store', store.updateFutureWaker willWake limit previous next = some store' ∧
        migrate w.shared.waiters (previous.map cls) (cls next) = some (store'.abs cls)
  /-- A future that is dropped, once it has the mutex. -/
  removes : ∀ (t : ℕ) target, w.threads[t]? = some (deregister (cls target)) →
    w.shared.holder = none → ∃ store', store.removeOwner willWake target = some store' ∧
      removeOwner (cls target) w.shared.waiters = some (store'.abs cls)
  /-- A thread that leaves. -/
  retains : ∀ keep, (store.retain keep).isSome

/-- The law of waker ownership, for a history of one slot that led to `w`. -/
structure OwnershipLaw (tr : SlotHistory W O) (w : Pool (Slot W O) (Place W O)) : Prop where
  /-- One entry for a task. -/
  entries : w.shared.completed = false → (wakers w.shared.waiters).Nodup
  /-- Its count is the number of futures that have registered it. -/
  counts : w.shared.completed = false → ∀ a, owners a w.shared.waiters = total (owns a) w.threads
  /-- It is there for a future or for a call of `register_waker`. -/
  present : w.shared.completed = false → ∀ a, a ∈ wakers w.shared.waiters ↔
    0 < total (owns a) w.threads ∨ .registered a ∈ w.threads
  /-- A section changes the counts by the registration of its own future. -/
  own : ∀ x ∈ tr, x.target.shared.completed = false → ∀ (t : ℕ) i p p', x.input = .run t i →
    x.source.threads[t]? = some p → x.target.threads[t]? = some p' →
      ∀ a, owners a x.target.shared.waiters + p.owns a =
        owners a x.source.shared.waiters + p'.owns a
  /-- No expectation has failed. -/
  working : .failed ∉ w.threads
  /-- None is about to fail. -/
  unfailing : ∀ (R : Type) (willWake : R → R → Bool) (cls : R → W) (limit : ℕ) (store : Store R),
    (∀ x y, willWake x y = decide (cls x = cls y)) → store.abs cls = w.shared.waiters →
      futures w ≤ limit → Unfailing willWake cls limit store w

theorem unfailing_run (h : SlotRun flavor tr w) {R : Type} {willWake : R → R → Bool} {cls : R → W}
    {limit : ℕ} {store : Store R} (hcls : ∀ x y, willWake x y = decide (cls x = cls y))
    (habs : store.abs cls = w.shared.waiters) (hlimit : futures w ≤ limit) :
    Unfailing willWake cls limit store w := by
  have hw := handshake_run h
  refine ⟨fun t previous next hp => ?_, fun t target hp hfree => ?_, fun keep => ?_⟩
  · have hs : ¬Settled w := (hw.owes t _ hp).installs rfl
    have howned : ∀ a, previous.map cls = some a → 0 < owners a w.shared.waiters :=
      fun a ha => hw.owner hp hs ha
    obtain ⟨waiters', hm, _⟩ := migrate_owned (cls next) (hw.nodup hs) howned
    have hbelow : (∀ p, previous = some p → cls p ≠ cls next) →
        owners (cls next) (store.abs cls) < limit := by
      intro hne
      have hlt := owners_lt_futures h hp fun heq => by
        obtain ⟨p, hprev, hcl⟩ := map_eq_some_iff.mp heq
        exact hne p hprev hcl
      rw [habs]
      omega
    have habs' := Store.updateFutureWaker_abs cls hcls hbelow
    rw [habs, hm] at habs'
    obtain ⟨store', hstore, hlist⟩ := map_eq_some_iff.mp habs'
    exact ⟨store', hstore, by rw [hm, hlist]⟩
  · obtain ⟨waiters', hr, _⟩ := hw.deregistered (ground_run h) hp hfree
    have habs' := Store.removeOwner_abs cls hcls target store
    rw [habs, hr] at habs'
    obtain ⟨store', hstore, hlist⟩ := map_eq_some_iff.mp habs'
    exact ⟨store', hstore, by rw [hr, hlist]⟩
  · obtain ⟨store', hstore, _⟩ := Store.hasList_retain keep store
    rw [hstore]
    rfl

/-- **Waker ownership is exact**, over every run of a slot. -/
theorem waker_ownership (h : SlotRun flavor tr w) : OwnershipLaw tr w := by
  have hw := handshake_run h
  have he := exact_run h
  have hopen : ∀ {v : Pool (Slot W O) (Place W O)}, v.shared.completed = false → ¬Settled v :=
    fun hc hs => Bool.false_ne_true (hc.symm.trans hs.1)
  refine ⟨fun hc => hw.nodup (hopen hc), fun hc => he.counts (hopen hc), fun hc a => ?_, ?_,
    fun hmem => ?_, fun R willWake cls limit store => unfailing_run h⟩
  · rw [mem_wakers_iff, he.counts (hopen hc) a]
    refine or_congr_right ⟨he.lasting (hopen hc) a, fun hmem => ?_⟩
    obtain ⟨t, ht⟩ := mem_iff_getElem?.mp hmem
    exact (hw.owes t _ ht).lasting a rfl (hopen hc)
  · intro x hx hc t i p p' hinput hp hp' a
    obtain ⟨pre, post, rfl, hpre, hstep⟩ := h.of_mem hx
    rcases step_cases hstep with ⟨q, hcall, _⟩ | ⟨u, j, q, s, q', hrun, hq, hacts, htarget⟩
    · cases hinput.symm.trans hcall
    · cases hinput.symm.trans hrun
      cases hp.symm.trans hq
      rw [htarget] at hc hp' ⊢
      rw [getElem?_set_self (lt_of_get hp)] at hp'
      cases hp'
      exact (hacts.counted (handshake_run hpre) (ground_run hpre) hp (hopen hc)).counts a
  · obtain ⟨t, ht⟩ := mem_iff_getElem?.mp hmem
    exact (hw.owes t _ ht).working rfl

end Runs

/-- Two futures of one task, one of which moves to another task and is dropped there. -/
theorem waker_ownership_migrated :
    ∃ tr w, SlotRun (W := ℕ) (O := ℕ) .shared tr w ∧ OwnershipLaw tr w ∧
      w.shared.waiters = [.waker 7 (.futures ⟨1, Nat.one_pos⟩)] := by
  have h : ((exec (step (W := ℕ) (O := ℕ) .shared) (start .shared)
      ([.call (.future none none), .call (.future none none)] ++
        [.run 1 (.poll 7)] ++ List.replicate 7 (.run 1 .advance) ++
        [.run 2 (.poll 7)] ++ List.replicate 7 (.run 2 .advance) ++
        [.run 2 (.poll 8)] ++ List.replicate 7 (.run 2 .advance) ++
        [.run 2 .dropFuture, .run 2 .advance])).map fun p => p.2.shared.waiters) =
      some [.waker 7 (.futures ⟨1, Nat.one_pos⟩)] := rfl
  obtain ⟨⟨tr, w⟩, hexec, heq⟩ := map_eq_some_iff.mp h
  exact ⟨tr, w, exec_run hexec, waker_ownership (exec_run hexec), heq⟩

end Observe
