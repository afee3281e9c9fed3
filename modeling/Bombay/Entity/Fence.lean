import Bombay.Entity.Decides

/-!
# The processing fence of a slot

An incarnation is retired gracefully only behind a *processing fence*: an item on the user lane
that is enqueued when every delivery the slot ever reserved has resolved, so that its
acknowledgement proves the lane was worked off.  The slot keeps no list of deliveries; it keeps a
count, first in `ReservationCount` and after `BeginDrain` in `DrainProgress`, and trusts it.

`FenceInv a tr s` says what that count is worth.  For each activation `a` it ties the state of the
slot to what the history `tr` shows of `a`: how often it was delivered to, how often a delivery was
resolved, whether it was drained and whether its fence was enqueued.  One step keeps it
(`FenceInv.step`), so it holds after every run (`fenceInv_run`), and the safety of the fence is read
off it at the point of the history where it matters.

Two things are promised by the callers and not checked by the reducer (`Correlated`): the directory
never allocates an activation identity twice, and a delivery task resolves only its own delivery.
-/

set_option autoImplicit false

namespace Entity

open Machine List Option EntitySlot SlotEvent

variable {C E L : Type*}

/-! ## What a history shows of one activation -/

/-- A `Deliver` effect bound to `a`. -/
@[simp] def SlotEffect.delivers (a : ActivationId) : SlotEffect C E L → Bool
  | .deliver b _ _ _ => b = a
  | _ => false

/-- An `EnqueueFence` effect for `a`. -/
@[simp] def SlotEffect.fences (a : ActivationId) : SlotEffect C E L → Bool
  | .enqueueFence b _ => b = a
  | _ => false

/-- A `DeliveryResolved` fact for `a`. -/
def SlotEvent.resolves (a : ActivationId) : SlotEvent C E L → Bool
  | .deliveryResolved b _ => b = a
  | _ => false

/-- The identity a claim carries. -/
def SlotEvent.claims : SlotEvent C E L → Option ActivationId
  | .claimActivation a _ _ _ => some a
  | _ => none

/-- The transition accepted `BeginDrain` for `a`: the evidence `passivate` reads. -/
def AcceptsDrain (a : ActivationId) (x : Transition (EntitySlot C E L) (SlotEvent C E L)) : Prop :=
  x.input = .beginDrain a ∧ (x.source.decide x.input).evidence = .traversed .beginDrain

/-- How many `Deliver` effects for `a` were emitted. -/
def deliveries (a : ActivationId) (tr : SlotHistory C E L) : ℕ :=
  (effects tr).countP (SlotEffect.delivers a)

/-- How many deliveries for `a` were resolved. -/
def resolutions (a : ActivationId) (tr : SlotHistory C E L) : ℕ :=
  tr.countP fun x => x.input.resolves a

/-- How many fences for `a` were enqueued. -/
def enqueued (a : ActivationId) (tr : SlotHistory C E L) : ℕ :=
  (effects tr).countP (SlotEffect.fences a)

/-- The identities claimed, in order. -/
def claimed (tr : SlotHistory C E L) : List ActivationId := tr.filterMap fun x => x.input.claims

/-- `BeginDrain` for `a` was accepted at some point. -/
def Drained (a : ActivationId) (tr : SlotHistory C E L) : Prop := ∃ x ∈ tr, AcceptsDrain a x

/-- What the callers of a slot promise: claims carry pairwise distinct identities, and every
`DeliveryResolved` answers a `Deliver` effect emitted earlier and not yet answered. -/
structure Correlated (tr : SlotHistory C E L) : Prop where
  /-- The directory allocates activation identities uniquely. -/
  claims : (claimed tr).Nodup
  /-- Each resolution answers a delivery of its own. -/
  answers : ∀ pre x post a, tr = pre ++ x :: post → x.input.resolves a = true →
    resolutions a pre < deliveries a pre

section Counters

variable (a : ActivationId) (tr : SlotHistory C E L)
  (x : Transition (EntitySlot C E L) (SlotEvent C E L))

@[simp] theorem deliveries_snoc :
    deliveries a (tr ++ [x]) = deliveries a tr + (emitted x).countP (SlotEffect.delivers a) := by
  simp [deliveries]

@[simp] theorem enqueued_snoc :
    enqueued a (tr ++ [x]) = enqueued a tr + (emitted x).countP (SlotEffect.fences a) := by
  simp [enqueued]

@[simp] theorem resolutions_snoc :
    resolutions a (tr ++ [x]) = resolutions a tr + if x.input.resolves a then 1 else 0 := by
  simp [resolutions, countP_append, countP_singleton]

@[simp] theorem claimed_snoc : claimed (tr ++ [x]) = claimed tr ++ x.input.claims.toList := by
  cases h : x.input.claims <;> simp [claimed, h]

@[simp] theorem drained_snoc : Drained a (tr ++ [x]) ↔ Drained a tr ∨ AcceptsDrain a x := by
  simp [Drained, or_and_right, exists_or]

end Counters

theorem Correlated.left {pre post : SlotHistory C E L} (h : Correlated (pre ++ post)) :
    Correlated pre := by
  have hc := h.claims
  rw [claimed, filterMap_append, nodup_append] at hc
  refine ⟨hc.1, ?_⟩
  intro pre' y post' a hpre
  exact h.answers pre' y (post' ++ post) a (by rw [hpre, append_assoc, cons_append])

variable {tr : SlotHistory C E L} {x : Transition (EntitySlot C E L) (SlotEvent C E L)}

theorem correlated_snoc :
    Correlated (tr ++ [x]) ↔ Correlated tr ∧ (∀ a, x.input.claims = some a → a ∉ claimed tr) ∧
      ∀ a, x.input.resolves a = true → resolutions a tr < deliveries a tr := by
  constructor
  · intro h
    have hc := h.claims
    rw [claimed_snoc, nodup_append] at hc
    refine ⟨h.left, ?_, fun a => h.answers tr x [] a rfl⟩
    exact fun a ha hmem => hc.2.2 a hmem a (by simp [ha]) rfl
  · rintro ⟨h, hclaim, hres⟩
    refine ⟨?_, fun pre y post a htr hy => ?_⟩
    · rw [claimed_snoc, nodup_append]
      refine ⟨h.claims, by cases x.input.claims <;> simp, fun a ha b hb => ?_⟩
      rintro rfl
      exact hclaim a (by simpa using hb) ha
    · -- the split is either at the new transition or inside the old history
      rcases eq_nil_or_concat post with rfl | ⟨post', z, rfl⟩
      · obtain ⟨rfl, hx⟩ := append_inj' htr rfl
        cases hx
        exact hres a hy
      · have htr' : tr ++ [x] = (pre ++ y :: post') ++ [z] := by simpa using htr
        obtain ⟨rfl, -⟩ := append_inj' htr' rfl
        exact h.answers pre y post' a rfl hy

variable {a : ActivationId}

theorem acceptsDrain_iff :
    AcceptsDrain a x ↔ x.input = .beginDrain a ∧ ∃ st, x.source = .active st ∧
      st.activationId = a := by
  obtain ⟨s, e, u⟩ := x
  refine and_congr_right fun he => ?_
  subst he
  cases s with
  | active st =>
    simp only [EntitySlot.decide, decideActive, ActivationId.classify_eq]
    by_cases h : st.activationId = a
    · subst h
      obtain ⟨b, endpoint, lease, reservations⟩ := st
      cases reservations <;> simp [beginDrain, traversed]
    · simp [h, decision]
  | _ => simp [EntitySlot.decide, decideInactive, decideActivating, decideDraining,
      decideRetiring, decision]

@[simp] theorem countP_returned (p : SlotEffect C E L → Bool) (failure : Option (DispatchId × C))
    (hp : ∀ d c r, p (.reject d c r) = false) : (returned failure).countP p = 0 := by
  cases failure <;> simp [returned, hp]

theorem countP_rejections (p : SlotEffect C E L → Bool) (reason : Refusal)
    (waiters : List (ActivationWaiter C)) (hp : ∀ d c r, p (.reject d c r) = false) :
    (waiters.map fun w => (SlotEffect.reject w.dispatchId w.command reason :
      SlotEffect C E L)).countP p = 0 := by
  rw [countP_map]
  simp [Function.comp_def, hp]

theorem countP_deliveries (a b : ActivationId) (endpoint : E)
    (waiters : List (ActivationWaiter C)) :
    (waiters.map fun w => (SlotEffect.deliver b w.dispatchId endpoint w.command :
      SlotEffect C E L)).countP (SlotEffect.delivers a) = if b = a then waiters.length else 0 := by
  rw [countP_map]
  split_ifs with h <;> simp [Function.comp_def, h]

theorem countP_deliveries_fences (a b : ActivationId) (endpoint : E)
    (waiters : List (ActivationWaiter C)) :
    (waiters.map fun w => (SlotEffect.deliver b w.dispatchId endpoint w.command :
      SlotEffect C E L)).countP (SlotEffect.fences a) = 0 := by
  rw [countP_map]
  simp [Function.comp_def]

/-! ## The invariant -/

/-- What the state of a slot says about the activation `a`, given its history. -/
structure FenceInv (a : ActivationId) (tr : SlotHistory C E L) (s : EntitySlot C E L) : Prop where
  /-- Before its claim an activation has done nothing. -/
  fresh : a ∉ claimed tr → deliveries a tr = 0 ∧ enqueued a tr = 0 ∧ ¬ Drained a tr ∧
    s.activationId ≠ some a
  /-- No delivery is resolved twice. -/
  answered : resolutions a tr ≤ deliveries a tr
  /-- The fence is enqueued at most once. -/
  once : enqueued a tr ≤ 1
  activating : ∀ st, s = .activating st → st.activationId = a →
    deliveries a tr = 0 ∧ enqueued a tr = 0 ∧ ¬ Drained a tr
  active : ∀ st, s = .active st → st.activationId = a →
    st.reservations.get + resolutions a tr = deliveries a tr ∧ enqueued a tr = 0 ∧ ¬ Drained a tr
  draining : ∀ st, s = .draining st → st.activationId = a →
    st.progress.get + resolutions a tr = deliveries a tr ∧ Drained a tr ∧
      enqueued a tr = if st.progress = .fenceAcknowledgement then 1 else 0

theorem fenceInv_nil (a : ActivationId) : FenceInv a [] (.inactive : EntitySlot C E L) where
  fresh _ := ⟨rfl, rfl, by simp [Drained], by simp [activationId]⟩
  answered := Nat.le_refl _
  once := Nat.zero_le _
  activating _ h := by cases h
  active _ h := by cases h
  draining _ h := by cases h

variable {s : EntitySlot C E L} {e : SlotEvent C E L}

/-- A transition that leaves the slot as it was and emits neither a delivery nor a fence for `a`
keeps the invariant, provided it resolves no delivery the slot still counts. -/
theorem FenceInv.frame (hi : FenceInv a tr s)
    (hdel : (emitted ⟨s, e, s⟩).countP (SlotEffect.delivers a) = 0)
    (hfen : (emitted ⟨s, e, s⟩).countP (SlotEffect.fences a) = 0)
    (hdrain : ¬ AcceptsDrain a ⟨s, e, s⟩)
    (hres : e.resolves a = true → resolutions a tr < deliveries a tr ∧
      (∀ st, s = .active st → st.activationId ≠ a) ∧
      (∀ st, s = .draining st → st.activationId ≠ a)) : FenceInv a (tr ++ [⟨s, e, s⟩]) s := by
  have hcount : ∀ st, (s = .active st → st.activationId = a → e.resolves a = false) := by
    intro st hs ha
    by_contra h
    exact (hres (by simpa using h)).2.1 st hs ha
  have hcount' : ∀ st, (s = .draining st → st.activationId = a → e.resolves a = false) := by
    intro st hs ha
    by_contra h
    exact (hres (by simpa using h)).2.2 st hs ha
  constructor
  · intro hfresh
    rw [claimed_snoc, mem_append, not_or] at hfresh
    obtain ⟨h1, h2, h3, h4⟩ := hi.fresh hfresh.1
    simp [h1, h2, h3, h4, hdel, hfen, hdrain]
  · rw [resolutions_snoc, deliveries_snoc, hdel]
    have := hi.answered
    cases hr : e.resolves a with
    | true => have := (hres hr).1; simp; omega
    | false => simpa using this
  · rw [enqueued_snoc, hfen]; exact hi.once
  · intro st hs ha
    obtain ⟨h1, h2, h3⟩ := hi.activating st hs ha
    simp [h1, h2, h3, hdel, hfen, hdrain]
  · intro st hs ha
    obtain ⟨h1, h2, h3⟩ := hi.active st hs ha
    simp [h1, h2, h3, hdel, hfen, hdrain, hcount st hs ha]
  · intro st hs ha
    obtain ⟨h1, h2, h3⟩ := hi.draining st hs ha
    simp [h1, h2, h3, hdel, hfen, hcount' st hs ha]

variable {u : EntitySlot C E L}

/-- A transition of a slot that represents another activation, before and after. -/
theorem FenceInv.other (hi : FenceInv a tr s) (hu : u.activationId ≠ some a)
    (hdel : (emitted ⟨s, e, u⟩).countP (SlotEffect.delivers a) = 0)
    (hfen : (emitted ⟨s, e, u⟩).countP (SlotEffect.fences a) = 0)
    (hdrain : ¬ AcceptsDrain a ⟨s, e, u⟩)
    (hres : e.resolves a = true → resolutions a tr < deliveries a tr) :
    FenceInv a (tr ++ [⟨s, e, u⟩]) u := by
  constructor
  · intro hfresh
    rw [claimed_snoc, mem_append, not_or] at hfresh
    obtain ⟨h1, h2, h3, -⟩ := hi.fresh hfresh.1
    simp [h1, h2, h3, hu, hdel, hfen, hdrain]
  · rw [resolutions_snoc, deliveries_snoc, hdel]
    have := hi.answered
    cases hr : e.resolves a with
    | true => have := hres hr; simp; omega
    | false => simpa using this
  · rw [enqueued_snoc, hfen]; exact hi.once
  all_goals
    rintro st rfl ha
    exact absurd (congrArg some ha) hu

theorem FenceInv.claimed_of_current (hi : FenceInv a tr s) (hs : s.activationId = some a) :
    a ∈ claimed tr := by
  by_contra h
  exact (hi.fresh h).2.2.2 hs

theorem progress_ne {st : DrainingSlot E L} {n : ℕ} (h : st.progress.get = n + 1) :
    st.progress ≠ .fenceAcknowledgement := by
  intro hp
  rw [hp] at h
  cases h

/-- A decision that leaves the slot with another activation, or with none, emits nothing for `a` and
does not drain it. -/
theorem Decides.elsewhere {effs} (h : Decides s e u effs)
    (hu : u.activationId ≠ some a) : effs.countP (SlotEffect.delivers a) = 0 ∧
      effs.countP (SlotEffect.fences a) = 0 ∧ ¬ AcceptsDrain a ⟨s, e, u⟩ := by
  rw [acceptsDrain_iff]
  cases h with
  | activate st =>
    have hb : st.activationId ≠ a := fun hb => hu (congrArg some hb)
    rw [countP_deliveries, if_neg hb, countP_deliveries_fences]
    simp
  | fail =>
    rw [countP_append, countP_append, countP_rejections _ _ _ fun _ _ _ => rfl,
      countP_rejections _ _ _ fun _ _ _ => rfl]
    simp
  | late | resolve | resolveDraining =>
    rw [countP_returned _ _ fun _ _ _ => rfl, countP_returned _ _ fun _ _ _ => rfl]
    simp
  | release =>
    rw [countP_append, countP_append, countP_returned _ _ fun _ _ _ => rfl,
      countP_returned _ _ fun _ _ _ => rfl]
    simpa [activationId] using hu
  | ignore h =>
    refine ⟨rfl, rfl, ?_⟩
    rintro ⟨rfl, st, rfl, hb⟩
    exact h hb
  | _ => simp_all [activationId]

/-- **One decision keeps the invariant.** -/
theorem FenceInv.step (hi : FenceInv a tr s) (hstep : slotStep s e = some u)
    (hc : Correlated (tr ++ [⟨s, e, u⟩])) : FenceInv a (tr ++ [⟨s, e, u⟩]) u := by
  obtain ⟨-, hnew, hres⟩ := correlated_snoc.mp hc
  have hans : e.resolves a = true → resolutions a tr < deliveries a tr := hres a
  have hdrain := acceptsDrain_iff (a := a) (x := ⟨s, e, u⟩)
  have hmem : s.activationId = some a → a ∈ claimed (tr ++ [⟨s, e, u⟩]) := fun h => by
    rw [claimed_snoc]; exact mem_append_left _ (hi.claimed_of_current h)
  have hd := decides_of_step hstep
  generalize heff : emitted ⟨s, e, u⟩ = effs at hd
  have hcount : ∀ p, (emitted ⟨s, e, u⟩).countP p = effs.countP p := fun p => by rw [heff]
  by_cases hu : u.activationId = some a
  swap
  · obtain ⟨hdel, hfen, hdrained⟩ := hd.elsewhere hu
    exact hi.other hu ((hcount _).trans hdel) ((hcount _).trans hfen) hdrained hans
  cases hd with
  | claim b =>
    -- a fresh identity has done nothing yet
    obtain rfl : b = a := some.inj hu
    obtain ⟨h1, h2, h3, -⟩ := hi.fresh (hnew b rfl)
    have hr : resolutions b tr = 0 := by have := hi.answered; omega
    refine ⟨fun h => absurd (by simp [claims]) h, ?_, ?_, ?_, ?_, ?_⟩ <;>
      simp [heff, h1, h2, h3, hr, hdrain, resolves]
  | refuseClaim | refuse | stale =>
    exact hi.frame (by simp [heff]) (by simp [heff]) (by simp [hdrain]) (by simp [resolves])
  | wait st | cancel st =>
    obtain rfl : st.activationId = a := some.inj hu
    obtain ⟨h1, h2, h3⟩ := hi.activating st rfl rfl
    have hr : resolutions st.activationId tr = 0 := by have := hi.answered; omega
    refine ⟨fun h => absurd (hmem rfl) h, ?_, ?_, ?_, ?_, ?_⟩ <;>
      simp [heff, h1, h2, h3, hr, hdrain, resolves]
  | activate st endpoint =>
    -- the waiters become the first reservations
    have hdel := (hcount (SlotEffect.delivers a)).trans (countP_deliveries a _ endpoint st.waiters)
    have hfen := (hcount (SlotEffect.fences a)).trans
      (countP_deliveries_fences a _ endpoint st.waiters)
    obtain rfl : st.activationId = a := some.inj hu
    obtain ⟨h1, h2, h3⟩ := hi.activating st rfl rfl
    have hr : resolutions st.activationId tr = 0 := by have := hi.answered; omega
    refine ⟨fun h => absurd (hmem rfl) h, ?_, ?_, ?_, ?_, ?_⟩ <;>
      simp [hdel, hfen, h1, h2, h3, hr, hdrain, resolves]
  | fail | terminate => cases hu
  | reserve st =>
    obtain rfl : st.activationId = a := some.inj hu
    obtain ⟨h1, h2, h3⟩ := hi.active st rfl rfl
    refine ⟨fun h => absurd (hmem rfl) h, ?_, ?_, ?_, ?_, ?_⟩ <;>
      simp [heff, h2, h3, hdrain, resolves] <;> omega
  | late b _ hactive hdraining =>
    -- a resolution the slot did not count is not one of the current activation
    refine hi.frame ?_ ?_ (by simp [hdrain]) fun hr => ⟨hans hr, ?_, ?_⟩
    iterate 2
      · rw [heff]; exact countP_returned _ _ fun _ _ _ => rfl
    · intro st hs ha
      have hb : b = a := by simpa [resolves] using hr
      have h0 := hactive st hs (ha.trans hb.symm)
      have h1 := (hi.active st hs ha).1
      have h2 := hans hr
      rw [h0, ReservationCount.get] at h1
      omega
    · intro st hs ha
      have hb : b = a := by simpa [resolves] using hr
      have h0 := hdraining st hs (ha.trans hb.symm)
      have h1 := (hi.draining st hs ha).1
      have h2 := hans hr
      rw [h0, DrainProgress.get] at h1
      omega
  | resolve st _ _ h =>
    have hdel := (hcount (SlotEffect.delivers a)).trans (countP_returned _ _ fun _ _ _ => rfl)
    have hfen := (hcount (SlotEffect.fences a)).trans (countP_returned _ _ fun _ _ _ => rfl)
    obtain rfl : st.activationId = a := some.inj hu
    obtain ⟨h1, h2, h3⟩ := hi.active st rfl rfl
    refine ⟨fun h => absurd (hmem rfl) h, ?_, ?_, ?_, ?_, ?_⟩ <;>
      simp [hdel, hfen, h2, h3, hdrain, resolves] <;> omega
  | resolveDraining st _ n h =>
    have hdel := (hcount (SlotEffect.delivers a)).trans (countP_returned _ _ fun _ _ _ => rfl)
    have hfen := (hcount (SlotEffect.fences a)).trans (countP_returned _ _ fun _ _ _ => rfl)
    obtain rfl : st.activationId = a := some.inj hu
    obtain ⟨h1, h2, h3⟩ := hi.draining st rfl rfl
    rw [if_neg (progress_ne h)] at h3
    have hn : (DrainProgress.reservations n).get = n.1 := rfl
    refine ⟨fun h => absurd (hmem rfl) h, ?_, ?_, ?_, ?_, ?_⟩ <;>
      simp [hdel, hfen, h2, h3, hn, resolves] <;> omega
  | release st _ h =>
    obtain rfl : st.activationId = a := some.inj hu
    have hdel : _ = 0 := (hcount (SlotEffect.delivers st.activationId)).trans (by
      rw [countP_append, countP_returned _ _ fun _ _ _ => rfl]; simp)
    have hfen : _ = 1 := (hcount (SlotEffect.fences st.activationId)).trans (by
      rw [countP_append, countP_returned _ _ fun _ _ _ => rfl]; simp)
    obtain ⟨h1, h2, h3⟩ := hi.draining st rfl rfl
    rw [if_neg (progress_ne h)] at h3
    have hn : DrainProgress.fenceAcknowledgement.get = 0 := rfl
    refine ⟨fun h => absurd (hmem rfl) h, ?_, ?_, ?_, ?_, ?_⟩ <;>
      simp [hdel, hfen, h2, h3, hn, resolves] <;> omega
  | drainFenced st h =>
    obtain rfl : st.activationId = a := some.inj hu
    obtain ⟨h1, h2, h3⟩ := hi.active st rfl rfl
    rw [h, ReservationCount.get] at h1
    have hn : DrainProgress.fenceAcknowledgement.get = 0 := rfl
    refine ⟨fun h => absurd (hmem rfl) h, ?_, ?_, ?_, ?_, ?_⟩ <;>
      simp [heff, h2, hn, hdrain, resolves] <;> omega
  | drainReserved st n h =>
    obtain rfl : st.activationId = a := some.inj hu
    obtain ⟨h1, h2, h3⟩ := hi.active st rfl rfl
    rw [h, ReservationCount.get] at h1
    have hn : (DrainProgress.reservations n).get = n.1 := rfl
    refine ⟨fun h => absurd (hmem rfl) h, ?_, ?_, ?_, ?_, ?_⟩ <;>
      simp [heff, h2, hn, hdrain, resolves] <;> omega
  | acknowledge st | force st =>
    obtain rfl : st.activationId = a := some.inj hu
    refine ⟨fun h => absurd (hmem rfl) h, ?_, ?_, ?_, ?_, ?_⟩ <;>
      simp [heff, resolves, hi.answered, hi.once]
  | ignore h =>
    have hne : ¬ AcceptsDrain a ⟨s, e, s⟩ := by
      rw [hdrain]
      rintro ⟨rfl, st, rfl, hb⟩
      exact h hb
    have hr : e.resolves a = false := by cases e <;> first | rfl | exact h.elim
    exact hi.frame (by simp [heff]) (by simp [heff]) hne (by simp [hr])

/-- **The invariant holds after every run** of a slot whose callers keep their promise. -/
theorem fenceInv_run (h : Run slotStep .inactive tr s) (hc : Correlated tr) (a : ActivationId) :
    FenceInv a tr s := by
  refine h.history (fun _ => fenceInv_nil a) ?_ hc
  intro tr t e u _ ih hstep hc
  exact (ih hc.left).step hstep hc

/-! ## What emits what

Three readings of the rules: where a delivery, a fence and a graceful retirement come from. -/

variable {effs : List (SlotEffect C E L)}

theorem source_of_delivers (h : Decides s e u effs) {eff}
    (hmem : eff ∈ effs) (hdel : eff.delivers a = true) :
    (∃ st, s = .activating st ∧ st.activationId = a ∧
        ∃ endpoint lease, e = .activationSucceeded a endpoint lease) ∨
      ∃ st, s = .active st ∧ st.activationId = a ∧ ∃ d c, e = .dispatch d c := by
  cases h with
  | activate st endpoint lease =>
    obtain ⟨w, -, rfl⟩ := mem_map.mp hmem
    have ha : st.activationId = a := by simpa using hdel
    exact Or.inl ⟨st, rfl, ha, endpoint, lease, by rw [ha]⟩
  | reserve st d c =>
    obtain rfl := mem_singleton.mp hmem
    exact Or.inr ⟨st, rfl, by simpa using hdel, d, c, rfl⟩
  | fail =>
    rcases mem_append.mp hmem with hmem | hmem
    · obtain ⟨w, -, rfl⟩ := mem_map.mp hmem
      simp at hdel
    · obtain rfl := mem_singleton.mp hmem
      simp at hdel
  | late | resolve | resolveDraining =>
    obtain ⟨p, -, rfl⟩ := mem_map.mp hmem
    simp at hdel
  | release =>
    rcases mem_append.mp hmem with hmem | hmem
    · obtain ⟨p, -, rfl⟩ := mem_map.mp hmem
      simp at hdel
    · obtain rfl := mem_singleton.mp hmem
      simp at hdel
  | wait | cancel | drainReserved | ignore => simp at hmem
  | _ =>
    obtain rfl := mem_singleton.mp hmem
    simp at hdel

theorem target_of_fence {endpoint : E} (h : Decides s e u effs)
    (hmem : .enqueueFence a endpoint ∈ effs) :
    ∃ st, u = .draining st ∧ st.activationId = a ∧ st.progress = .fenceAcknowledgement := by
  cases h with
  | release =>
    rcases mem_append.mp hmem with hmem | hmem
    · simp [returned] at hmem
    · cases mem_singleton.mp hmem
      exact ⟨_, rfl, rfl, rfl⟩
  | drainFenced =>
    cases mem_singleton.mp hmem
    exact ⟨_, rfl, rfl, rfl⟩
  | _ => simp [returned] at hmem

theorem source_of_graceful {lease : L} (h : Decides s e u effs)
    (hmem : .retire a lease .graceful ∈ effs) : e = .fenceAcknowledged a ∧
      ∃ st, s = .draining st ∧ st.activationId = a ∧ st.progress = .fenceAcknowledgement := by
  cases h with
  | acknowledge st hp =>
    cases mem_singleton.mp hmem
    exact ⟨rfl, st, rfl, rfl, hp⟩
  | _ => simp [returned] at hmem

/-! ## Fence safety -/

/-- **The processing fence is safe.**  Fold any facts through a slot, from inactive, and let the
callers keep their promise.  Then the fence of an activation is enqueued at most once, after its
drain was accepted and when every delivery emitted for it has been resolved; no delivery is emitted
from the drain on; the count a slot holds is the number of its unresolved deliveries; and a
graceful retirement only ever answers the acknowledgement of a fence enqueued before. -/
theorem fence_safety (es : List (SlotEvent C E L))
    (hc : Correlated (history (.inactive : EntitySlot C E L) es)) :
    (∀ a, enqueued a (history (.inactive : EntitySlot C E L) es) ≤ 1) ∧
    (∀ pre x post a endpoint, history .inactive es = pre ++ x :: post →
      .enqueueFence a endpoint ∈ emitted x →
      Drained a (pre ++ [x]) ∧ resolutions a (pre ++ [x]) = deliveries a (pre ++ [x])) ∧
    (∀ pre x post a, history .inactive es = pre ++ x :: post → AcceptsDrain a x →
      ∀ y ∈ x :: post, ∀ eff ∈ emitted y, eff.delivers a = false) ∧
    (∀ st : ActiveSlot E L, (decideAll .inactive es).state = .active st →
      st.reservations.get + resolutions st.activationId (history .inactive es)
        = deliveries st.activationId (history .inactive es)) ∧
    (∀ st : DrainingSlot E L, (decideAll .inactive es).state = .draining st →
      st.progress.get + resolutions st.activationId (history .inactive es)
        = deliveries st.activationId (history .inactive es)) ∧
    (∀ pre x post a lease, history .inactive es = pre ++ x :: post →
      .retire a lease .graceful ∈ emitted x →
      x.input = .fenceAcknowledged a ∧ enqueued a pre = 1) := by
  have hrun := history_run (.inactive : EntitySlot C E L) es
  have hinv := fenceInv_run hrun hc
  refine ⟨fun a => (hinv a).once, ?_, ?_, fun st hs => ((hinv _).active st hs rfl).1,
    fun st hs => ((hinv _).draining st hs rfl).1, ?_⟩
  · intro pre x post a endpoint htr hmem
    rw [htr] at hrun hc
    obtain ⟨hpre, hstep, -⟩ := hrun.at
    have hc' : Correlated (pre ++ [x]) := by
      rw [show pre ++ x :: post = (pre ++ [x]) ++ post by simp] at hc
      exact hc.left
    obtain ⟨st, hu, ha, hp⟩ := target_of_fence (decides_of_step hstep) hmem
    obtain ⟨hcount, hdrained, -⟩ :=
      (fenceInv_run (hpre.snoc hstep) hc' a).draining st hu ha
    rw [hp, DrainProgress.get, Nat.zero_add] at hcount
    exact ⟨hdrained, hcount⟩
  · intro pre x post a htr hx y hy eff heff
    by_contra hne
    have hdel : eff.delivers a = true := by simpa using hne
    -- split the history at `y`, at or after the accepted drain
    obtain ⟨pre', post', hsplit⟩ := append_of_mem hy
    have htr' : history .inactive es = (pre ++ pre') ++ y :: post' := by
      rw [htr, hsplit, append_assoc]
    rw [htr'] at hrun hc
    obtain ⟨hpre, hstep, -⟩ := hrun.at
    have hinv' := fenceInv_run hpre hc.left a
    have hsource := source_of_delivers (decides_of_step hstep) heff hdel
    have hnot : ¬ Drained a (pre ++ pre') := by
      rcases hsource with ⟨st, hs, ha, -⟩ | ⟨st, hs, ha, -⟩
      · exact (hinv'.activating st hs ha).2.2
      · exact (hinv'.active st hs ha).2.2
    cases pre' with
    | nil =>
      cases hsplit
      rcases hsource with ⟨st, -, -, endpoint, lease, he⟩ | ⟨st, -, -, d, c, he⟩
      · rw [hx.1] at he; cases he
      · rw [hx.1] at he; cases he
    | cons =>
      cases hsplit
      exact hnot ⟨x, by simp, hx⟩
  · intro pre x post a lease htr hmem
    rw [htr] at hrun hc
    obtain ⟨hpre, hstep, -⟩ := hrun.at
    obtain ⟨he, st, hs, ha, hp⟩ := source_of_graceful (decides_of_step hstep) hmem
    have h := ((fenceInv_run hpre hc.left a).draining st hs ha).2.2
    rw [if_pos hp] at h
    exact ⟨he, h⟩

/-- One activation from claim to graceful retirement, its only command still in delivery when the
drain begins. -/
def drainedLife (a : ActivationId) (d : DispatchId) : List (SlotEvent ℕ ℕ ℕ) :=
  [.claimActivation a d 7 ⟨1, Nat.one_pos⟩, .activationSucceeded a 2 3, .beginDrain a,
    .deliveryResolved a none, .fenceAcknowledged a]

theorem drainedLife_correlated (a : ActivationId) (d : DispatchId) :
    Correlated (history .inactive (drainedLife a d)) := by
  show Correlated ([] ++ [_] ++ [_] ++ [_] ++ [_] ++ [_])
  simp only [correlated_snoc, claims, resolves]
  refine ⟨⟨⟨⟨⟨⟨by simp [claimed], by simp⟩, by simp [claimed], by simp⟩, by simp, by simp⟩,
    by simp, by simp⟩, by simp, ?_⟩, by simp, by simp⟩
  -- the one resolution answers the delivery of the waiter
  intro b hb
  obtain rfl : a = b := by simpa using hb
  simp [resolutions, deliveries, effects, emitted, EntitySlot.decide, decideInactive,
    decideActivating, decideActive, finishActivation, beginDrain, ActivationId.classify_eq,
    traversed, ReservationCount.fromLen, NonZeroUsize.new,
    resolves]

/-- The life of `drainedLife` meets the promise and does enqueue a fence and retire gracefully. -/
theorem fence_safety_drainedLife :
    Correlated (history .inactive (drainedLife ⟨1, by decide⟩ ⟨1, by decide⟩)) ∧
      enqueued ⟨1, by decide⟩ (history .inactive (drainedLife ⟨1, by decide⟩ ⟨1, by decide⟩)) = 1 ∧
      effects (history .inactive (drainedLife ⟨1, by decide⟩ ⟨1, by decide⟩))
        = [.startActivation ⟨1, by decide⟩, .deliver ⟨1, by decide⟩ ⟨1, by decide⟩ 2 7,
          .enqueueFence ⟨1, by decide⟩ 2, .retire ⟨1, by decide⟩ 3 .graceful] := by
  have hc := drainedLife_correlated ⟨1, by decide⟩ ⟨1, by decide⟩
  have h := (fence_safety _ hc).1 ⟨1, by decide⟩
  refine ⟨hc, Nat.le_antisymm h ?_, by decide⟩
  decide

end Entity
