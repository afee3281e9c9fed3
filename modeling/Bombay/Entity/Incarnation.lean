import Mathlib.Data.List.Nodup
import Bombay.Entity.Ledger

/-!
# One incarnation per entity

The directory promises at most one incarnation of an entity at a time.  What makes it delicate is
that the lock of a shard is released before the slot in it is submitted to, that effects are
interpreted by whoever happens to dispatch the slot, and that an entry is removed in yet another
section: an entry may go, and a replacement may be claimed, while facts and effects of the old slot
are still about.

The argument has two halves.  While admission is open, a slot that is not inactive is still mapped
under its entity (`Sole.mapped`), so that a new slot is claimed only when every older slot of the
entity is inactive; and by the ledger an inactive slot has nothing under way.  Once admission is
closed no slot is claimed at all.  So at most one slot of an entity is *busy* at any time
(`Sole.sole`), where a slot is busy that is not inactive or still has a consequence under way.
-/

set_option autoImplicit false

namespace Entity

open Machine List Option EntityRuntime LocalDirectory

variable {R : LocalEntityRuntime} [DecidableEq R.Id]

/-! ## Entries -/

section Acts

variable {s s' : Shared R} {self fresh : ℕ} {p p' : Pc R} {q : Option (Pc R)} {i : Input R}

/-- Only two kinds of section remove an entry: the one that takes the slot of a `Remove`, and the
one that drains a shard for a shutdown. -/
theorem Acts.unmaps (h : Acts s self fresh p i s' p' q) {n : ℕ} {row : R.Row}
    (hrow : row ∈ s.directory.shards n) (hgone : row ∉ s'.directory.shards n) :
    (∃ id ret, p = .takeSlot id row.2 n ret) ∨ ∃ owned rows, p = .takeFamily owned n rows := by
  cases h with
  | routeClaimed id _ _ directory _ _ _ claimed =>
    obtain ⟨_, _, hshards, _⟩ := claim_spec claimed
    refine absurd ?_ hgone
    show row ∈ directory.shards n
    rw [hshards]
    by_cases hn : n = s.directory.shardIndex id
    · subst hn
      rw [Function.update_self]
      exact mem_cons_of_mem _ hrow
    · rw [Function.update_of_ne hn]
      exact hrow
  | taken id slot shard ret =>
    by_cases hn : n = shard
    · subst hn
      by_cases hslot : row.2 = slot
      · subst hslot
        exact .inl ⟨id, ret, rfl⟩
      · refine absurd ?_ hgone
        simp only [takeSlot, Function.update_self]
        exact (mem_eraseP_of_neg (by simpa using hslot)).mpr hrow
    · refine absurd ?_ hgone
      simp only [takeSlot, Function.update_of_ne hn]
      exact hrow
  | drainedShard owned shard rows =>
    by_cases hn : n = shard
    · subst hn
      exact .inr ⟨owned, rows, rfl⟩
    · refine absurd ?_ hgone
      simp only [drainShard, Function.update_of_ne hn]
      exact hrow
  | _ => exact absurd hrow hgone

end Acts

variable {k : SlotRef}

theorem LocalDirectory.not_mem_of_miss {d : LocalDirectory R} {id : R.Id}
    (h : d.get id = none) : (id, k) ∉ d.shards (d.shardIndex id) := by
  intro hmem
  have hne := lookup_eq_none_iff.mp h (id, k) hmem
  simp at hne

/-! ## The invariant -/

variable {v : Pool (Shared R) (Pc R)}

/-- A slot is busy that is not inactive or has a consequence of its claim under way. -/
def Busy (v : Pool (Shared R) (Pc R)) (k : SlotRef) (x : Allocation R) : Prop :=
  x.execution.state ≠ .inactive ∨ 0 < weight .charge v k

/-- While admission is open a slot in use is mapped, and an entity has at most one busy slot. -/
structure Sole (v : Pool (Shared R) (Pc R)) : Prop where
  mapped : v.shared.admission = .opened → ∀ (k : ℕ) (x : Allocation R),
    v.shared.directory.slots[k]? = some x → x.execution.state ≠ .inactive →
    (x.entityId, k) ∈ v.shared.directory.shards (v.shared.directory.shardIndex x.entityId)
  sole : ∀ (j k : ℕ) (x y : Allocation R), v.shared.directory.slots[j]? = some x →
    v.shared.directory.slots[k]? = some y → x.entityId = y.entityId → Busy v j x → Busy v k y →
    j = k

section Step

variable {s' : Shared R} {p p' : Pc R} {q : Option (Pc R)} {i : Input R} {t : ℕ}

variable {k : ℕ} {x' : Allocation R}

theorem Sole.act_mapped (hs : Sole v) (hv : WellNamed v) (hg : Gated v)
    (hp : v.threads[t]? = some p) (h : Acts v.shared t v.threads.length p i s' p' q)
    (hopen : s'.admission = .opened)
    (hx' : s'.directory.slots[k]? = some x') (hactive : x'.execution.state ≠ .inactive) :
    (x'.entityId, k) ∈ s'.directory.shards (s'.directory.shardIndex x'.entityId) := by
  have hn : p.Named v.shared.directory := hv.threads t p hp
  have hopened := h.opened hopen
  rcases h.slot_cases hn hx' with ⟨x, hx, hid, _, hin⟩ | ⟨rfl, id, hc⟩
  · have hstate : x.execution.state ≠ .inactive := fun hst => hactive (hin hst)
    rw [hid, h.shards.1]
    by_contra hgone
    rcases h.unmaps (hs.mapped hopened k x hx hstate) hgone with
      ⟨id, ret, rfl⟩ | ⟨owned, rows, rfl⟩
    · obtain ⟨_, ⟨y, hy, hyin⟩, _⟩ := hn
      obtain rfl := some.inj (hx.symm.trans hy)
      exact hstate hyin
    · cases (hg.closed t _ hp rfl).symm.trans hopened
  · rw [h.shards.1, hc.claimed.entityId, hc.shards, Function.update_self]
    exact mem_cons_self ..

/-- A slot is busy after a section only if it was before, or if it has just been claimed. -/
theorem busy_act (hv : WellNamed v) (hp : v.threads[t]? = some p)
    (h : Acts v.shared t v.threads.length p i s' p' q) (hx' : s'.directory.slots[k]? = some x')
    (hbusy : Busy ⟨s', v.threads.set t p' ++ q.toList⟩ k x') :
    (∃ x, v.shared.directory.slots[k]? = some x ∧ x.entityId = x'.entityId ∧ Busy v k x) ∨
      k = v.shared.directory.slots.length ∧ Claims v.shared s' p p' q x'.entityId x' := by
  rcases h.slot_cases (hv.threads t p hp) hx' with ⟨x, hx, hid, _, hin⟩ | ⟨hk, id, hc⟩
  · have hlt := lt_of_get hx
    refine .inl ⟨x, hx, hid.symm, hbusy.imp (fun hst hst' => hst (hin hst')) fun hpos => ?_⟩
    exact Nat.lt_of_lt_of_le hpos (charge_act hv hp h hlt)
  · obtain rfl := hc.claimed.entityId
    exact .inr ⟨hk, hc⟩

theorem Claims.alone {id : R.Id} {x y : Allocation R} (hc : Claims v.shared s' p p' q id x)
    (hs : Sole v) (hl : Ledger v) (hg : Gated v) (hp : v.threads[t]? = some p)
    (hy : v.shared.directory.slots[k]? = some y) (hid : y.entityId = id) : ¬Busy v k y := by
  obtain ⟨pending, d, rfl⟩ := hc.place
  have hopened : v.shared.admission = .opened := hg.opened t (hg.held t _ hp rfl)
  by_cases hstate : y.execution.state = .inactive
  · have hzero := hl.settled hopened k y hy hstate
    rintro (hst | hpos)
    · exact hst hstate
    · omega
  · have hmem := hs.mapped hopened k y hy hstate
    rw [hid] at hmem
    exact absurd hmem (not_mem_of_miss hc.miss)

theorem Sole.act (hs : Sole v) (hl : Ledger v) (hv : WellNamed v) (hg : Gated v)
    (hp : v.threads[t]? = some p) (h : Acts v.shared t v.threads.length p i s' p' q) :
    Sole ⟨s', v.threads.set t p' ++ q.toList⟩ := by
  refine ⟨fun hopen k x' hx' hactive => hs.act_mapped hv hg hp h hopen hx' hactive,
    fun j k x' y' hx' hy' hid hbx hby => ?_⟩
  rcases busy_act hv hp h hx' hbx with ⟨x, hx, hxid, hbx⟩ | ⟨rfl, hcx⟩ <;>
    rcases busy_act hv hp h hy' hby with ⟨y, hy, hyid, hby⟩ | ⟨rfl, hcy⟩
  · exact hs.sole j k x y hx hy (by rw [hxid, hyid, hid]) hbx hby
  · exact absurd hbx (hcy.alone hs hl hg hp hx (by rw [hxid, hid]))
  · exact absurd hby (hcx.alone hs hl hg hp hy (by rw [hyid, hid]))
  · rfl

end Step

variable {config : DirectoryConfig} {hash : R.Id → ℕ} {tr : RuntimeHistory R}

theorem sole_run (h : Reaches config hash tr v) : Sole v := by
  refine h.invariant ?_ (fun v p hv hp => ?_) fun _ v t i p s p' q hrun hv hp hact =>
    hv.act (ledger_run hrun) (named_run hrun) (gated_run hrun) hp hact
  · have hnone (k : ℕ) (x : Allocation R)
        (hx : (new config hash).shared.directory.slots[k]? = some x) : False := by
      simp [new, Shared.new, withHasher] at hx
    exact ⟨fun _ k x hx => (hnone k x hx).elim, fun j k x y hx => (hnone j x hx).elim⟩
  · have hsame (k : SlotRef) (x : Allocation R) :
        Busy ⟨v.shared, v.threads ++ [p]⟩ k x → Busy v k x := by
      simp [Busy, weight, Pc.isCall_weigh .charge k hp]
    exact ⟨hv.mapped, fun j k x y hx hy hid hbx hby =>
      hv.sole j k x y hx hy hid (hsame j x hbx) (hsame k y hby)⟩

/-! ## Claims -/

/-- The slot to which the section at a place submits a `ClaimActivation`. -/
def Pc.claims (s : Shared R) : Pc R → Option SlotRef
  | .route id _ _ =>
    -- `dispatch` finds no entry and has an identity left
    if s.directory.get id = none ∧ (allocate s.directory.nextActivation).isSome then
      some s.directory.slots.length
    else none
  | .submit _ slot (.claimActivation ..) _ => some slot
  | _ => none

/-- The transition submits a `ClaimActivation` to the slot. -/
def claimsSlot (k : SlotRef) (x : Transition (Pool (Shared R) (Pc R)) (Schedule (Pc R) (Input R))) :
    Bool :=
  match x.input with
  | .call _ => false
  | .run t _ => x.source.threads[t]?.bind (Pc.claims x.source.shared) = some k

variable {s s' : Shared R} {self fresh : ℕ} {p p' : Pc R} {q : Option (Pc R)} {i : Input R}

/-- A section that submits a `ClaimActivation` submits it to a slot it allocates. -/
theorem Acts.claims_new (h : Acts s self fresh p i s' p' q) (hn : p.Named s.directory)
    (hk : p.claims s = some k) :
    k = s.directory.slots.length ∧ s'.directory.slots.length = s.directory.slots.length + 1 := by
  cases h with
  | routeClaimed _ _ _ directory _ _ _ claimed =>
    obtain ⟨_, ⟨x, hslots, _⟩, _, _⟩ := claim_spec claimed
    simp only [Pc.claims] at hk
    split at hk
    · refine ⟨(some.inj hk).symm, ?_⟩
      show directory.slots.length = _
      rw [hslots, length_append, length_singleton]
    · cases hk
  | routeHit _ _ _ _ hit => simp [Pc.claims, hit] at hk
  | routeExhausted _ _ _ _ full =>
    have hfull : allocate s.directory.nextActivation = none := by
      simp only [claim] at full
      split at full
      · assumption
      · cases full
    simp [Pc.claims, hfull] at hk
  | submitted _ _ event =>
    obtain ⟨⟨a, _, hevent⟩, _⟩ := hn
    cases event with
    | claimActivation => exact hevent.elim
    | _ => cases hk
  | panic p _ h => cases p <;> first | cases hk | exact h.elim
  | _ => cases hk

theorem claims_le_one
    (h : Reaches config hash tr v) (k : SlotRef) : tr.countP (claimsSlot k) ≤ 1 := by
  refine (h.crosses_once (m := fun w => w.shared.directory.slots.length) k
    (fun x hx => ?_) fun x hx hk => ?_).1
  all_goals
    obtain ⟨pre, post, -, hrun, hstep⟩ := h.of_mem hx
    rcases step_cases hstep with
      ⟨p, hi, _, hw⟩ | ⟨t, i, p, s, p', q, hi, hp, hact, hw⟩
  · exact Nat.le_of_eq (by rw [hw])
  · rw [hw]
    rcases hact.claims with hlen | ⟨id, y, hc⟩
    · exact Nat.le_of_eq hlen.symm
    · show _ ≤ s.directory.slots.length
      rw [hc.slots, length_append]
      exact Nat.le_add_right ..
  · simp [claimsSlot, hi] at hk
  · have hk' : p.claims x.source.shared = some k := by simpa [claimsSlot, hi, hp] using hk
    obtain ⟨rfl, hlen⟩ := hact.claims_new ((named_run hrun).threads t p hp) hk'
    rw [hw]
    exact ⟨Nat.le_refl _, by rw [hlen]; exact Nat.lt_succ_self _⟩

/-! ## Removals -/

/-- The slot whose `Remove` is interpreted at a place. -/
def Pc.removing : Pc R → Option SlotRef
  | .interpretEffect _ (.mapped slot) (.remove _) _ | .takeSlot _ slot _ _ => some slot
  | _ => none

/-- In this transition the thread takes a `Remove` of the slot's own activation off the queue of the
slot. -/
def TakesRemove (t : ℕ) (slot : SlotRef)
    (x : Transition (Pool (Shared R) (Pc R)) (Schedule (Pc R) (Input R))) : Prop :=
  ∃ i id ret y effects, x.input = .run t i ∧
    x.source.threads[t]? = some (.next id (.mapped slot) ret) ∧
    x.source.shared.directory.slots[slot]? = some y ∧
    y.execution.pending = .remove y.activationId :: effects

section Places

omit [DecidableEq R.Id]

@[simp] theorem After.removing_pc (after : After R) : after.pc.removing = none := by
  cases after <;> rfl

@[simp] theorem Return.removing_pc (ret : Return R) : ret.pc.removing = none := by
  cases ret with
  | closeSlot _ _ _ retirement => rcases retirement with _ | ⟨_, _, _, _⟩ <;> rfl
  | _ => rfl

@[simp] theorem Cont.removing_pc (cont : Cont R) : cont.pc.removing = none := by
  cases cont <;> rfl

@[simp] theorem submitOwned_removing (id : R.Id) (slot : Option SlotRef) (event : R.Event)
    (ret : SlotRef → Return R) : (submitOwned id slot event ret).removing = none := by
  cases slot <;> rfl

theorem Pc.isCall_removing (h : p.isCall) : p.removing = none := by
  cases p <;> first | rfl | cases h

end Places

/-- A thread comes to interpret a `Remove` by taking it off the queue of its slot. -/
theorem Acts.removing_of (h : Acts s self fresh p i s' p' q) {slot : SlotRef}
    (hr : p'.removing = some slot) :
    p.removing = some slot ∨ ∃ id ret x a effects, p = .next id (.mapped slot) ret ∧
      s.directory.slots[slot]? = some x ∧ x.execution.pending = .remove a :: effects := by
  cases h with
  | popped id _ ret x effect effects hx pending =>
    cases effect with
    | remove a =>
      obtain rfl := some.inj hr
      exact .inr ⟨id, ret, x, a, effects, rfl, hx, pending⟩
    | _ => cases hr
  | removing | takeNext => exact .inl hr
  | released | busy | emptied | transientDone | tracked => simp at hr
  | delivered | fenced | retired | recorded => simp [terminated] at hr
  | _ => cases hr

/-- Where a thread interprets a `Remove`, the history shows that it took it off the queue of the
slot. -/
theorem removing_history (h : Reaches config hash tr v) :
    Each (fun t p => ∀ slot, p.removing = some slot → ∃ x ∈ tr, TakesRemove t slot x)
    v.threads := by
  refine h.history (each_nil _) fun tr w a w' hrun hw hstep => ?_
  -- what the history showed before, it still shows
  have hold : Each (fun t p => ∀ slot, p.removing = some slot →
      ∃ x ∈ tr ++ [⟨w, a, w'⟩], TakesRemove t slot x) w.threads := fun t p hp slot hr =>
    (hw t p hp slot hr).imp fun x hx => ⟨mem_append_left _ hx.1, hx.2⟩
  rcases step_cases hstep with
    ⟨p, rfl, hcall, rfl⟩ | ⟨t, i, p, s, p', q, rfl, hp, hact, rfl⟩
  · refine each_append (q := some p) hold fun r hr slot hremove => ?_
    obtain rfl := some.inj hr
    cases (Pc.isCall_removing hcall).symm.trans hremove
  · refine each_move hold hp (fun hbefore slot hremove => ?_) (fun _ _ _ hr => hr)
      fun r hr slot hremove => ?_
    · rcases hact.removing_of hremove with hr | ⟨id, ret, x, b, effects, rfl, hx, hpend⟩
      · exact hbefore slot hr
      · -- the effects in the queue of a slot are tagged with its activation
        have hb : b = x.activationId :=
          ((named_run hrun).tagged slot x hx).pending (.remove b) (hpend ▸ mem_cons_self ..)
        subst hb
        exact ⟨_, mem_append_right _ (mem_singleton_self _),
          i, id, ret, x, effects, rfl, hp, hx, hpend⟩
    · obtain ⟨task, cont, _, rfl⟩ := hact.started hr
      cases hremove

/-! ## Single incarnation -/

/-- The transition `x`, after the history `pre`, removes the entry `row` from the shard `n` for one
of two reasons.  Either its thread interprets a `Remove` which it took off the queue of the slot in
the entry, and that slot is `Inactive`; or it drains the directory in a shutdown, and admission is
closed. -/
def Removal (pre : RuntimeHistory R)
    (x : Transition (Pool (Shared R) (Pc R)) (Schedule (Pc R) (Input R))) (n : ℕ) (row : R.Row) :
    Prop :=
  ∃ t i p, x.input = .run t i ∧ x.source.threads[t]? = some p ∧
    ((∃ id ret, p = .takeSlot id row.2 n ret ∧ (∃ y ∈ pre, TakesRemove t row.2 y) ∧
      ∃ y, x.source.shared.directory.slots[row.2]? = some y ∧ y.entityId = row.1 ∧
        y.execution.state.phase = .inactive) ∨
    ∃ claim rows, p = .takeFamily claim n rows ∧ x.source.shared.admission = .closed)

/-- What holds of a runtime that came to `v` by the history `tr`. -/
structure SingleIncarnation (tr : RuntimeHistory R) (v : Pool (Shared R) (Pc R)) : Prop where
  /-- At most one slot of an entity is in a phase other than `Inactive`. -/
  phase : ∀ (j k : ℕ) (x y : Allocation R), v.shared.directory.slots[j]? = some x →
    v.shared.directory.slots[k]? = some y → x.entityId = y.entityId →
    x.execution.state.phase ≠ .inactive → y.execution.state.phase ≠ .inactive → j = k
  /-- A slot receives at most one `ClaimActivation`. -/
  claims : ∀ k, tr.countP (claimsSlot k) ≤ 1
  /-- An entry is removed for a `Remove` of the very slot in it, when that is `Inactive`, or by a
  shutdown. -/
  removals : ∀ pre x post, tr = pre ++ x :: post → ∀ n row,
    row ∈ x.source.shared.directory.shards n → row ∉ x.target.shared.directory.shards n →
    Removal pre x n row
  /-- No entity has two live leases. -/
  leases : (v.shared.live.map Prod.fst).Nodup

theorem removal_of_run {pre post} {x} (h : Reaches config hash tr v) (htr : tr = pre ++ x :: post)
    {n : ℕ} {row : R.Row} (hrow : row ∈ x.source.shared.directory.shards n)
    (hgone : row ∉ x.target.shared.directory.shards n) : Removal pre x n row := by
  subst htr
  obtain ⟨hrun, hstep, -⟩ := h.at
  rcases step_cases hstep with
    ⟨p, _, _, hw⟩ | ⟨t, i, p, s, p', q, hi, hp, hact, hw⟩
  · rw [hw] at hgone
    exact absurd hrow hgone
  · rw [hw] at hgone
    refine ⟨t, i, p, hi, hp, ?_⟩
    rcases hact.unmaps hrow hgone with ⟨id, ret, rfl⟩ | ⟨claim, rows, rfl⟩
    · have hv := named_run hrun
      obtain ⟨_, ⟨y, hy, hinact⟩, _⟩ := hv.threads t _ hp
      obtain ⟨_, z, hz, hid⟩ := hv.entries n row hrow
      obtain rfl := some.inj (hy.symm.trans hz)
      exact .inl ⟨id, ret, rfl, removing_history hrun t _ hp row.2 rfl, y, hy, hid,
        by rw [hinact]; rfl⟩
    · exact .inr ⟨claim, rows, rfl, (gated_run hrun).closed t _ hp rfl⟩

theorem Sole.live_nodup (hs : Sole v) (hl : Ledger v) : (v.shared.live.map Prod.fst).Nodup := by
  -- a live lease is under way, so its slot is busy
  have hbusy (y : R.Id × ActivationId) (hy : y ∈ v.shared.live) :
      ∃ k x, v.shared.directory.slots[k]? = some x ∧ (x.entityId, x.activationId) = y ∧
        v.shared.live.count y ≤ 1 ∧ Busy v k x := by
    obtain ⟨k, x, hx, hid, ha⟩ := hl.live y hy
    have hxy : (x.entityId, x.activationId) = y := Prod.ext hid ha
    have hcount : v.shared.live.count y = weight .leases v k := hxy ▸ hl.leases k x hx
    have hpos : 0 < v.shared.live.count y := count_pos_iff.mpr hy
    have hle := leases_le_charge v k
    have hone := hl.charge k x hx
    exact ⟨k, x, hx, hxy, by omega, .inr (by omega)⟩
  refine List.Nodup.map_on (fun y hy z hz hid => ?_) (nodup_iff_count_le_one.mpr fun y => ?_)
  · obtain ⟨j, x, hx, rfl, _, hbx⟩ := hbusy y hy
    obtain ⟨k, x', hx', rfl, _, hbx'⟩ := hbusy z hz
    obtain rfl := hs.sole j k x x' hx hx' hid hbx hbx'
    rw [some.inj (hx.symm.trans hx')]
  · by_cases hy : y ∈ v.shared.live
    · obtain ⟨_, _, _, _, hle, _⟩ := hbusy y hy
      exact hle
    · rw [count_eq_zero_of_not_mem hy]
      exact Nat.zero_le 1

/-- **An entity has at most one incarnation.**  In every run of the runtime, whatever is called and
dropped, whichever tasks resolve, fail or are cancelled, and in whichever order the sections
interleave. -/
theorem single_incarnation {config : DirectoryConfig} {hash : R.Id → ℕ} {tr : RuntimeHistory R}
    (h : Reaches config hash tr v) : SingleIncarnation tr v where
  phase j k x y hx hy hid hpx hpy :=
    (sole_run h).sole j k x y hx hy hid (.inl fun hst => hpx (by rw [hst]; rfl))
      (.inl fun hst => hpy (by rw [hst]; rfl))
  claims := claims_le_one h
  removals _ _ _ htr _ _ hrow hgone := removal_of_run h htr hrow hgone
  leases := (sole_run h).live_nodup (ledger_run h)

def oneShard : DirectoryConfig := ⟨⟨1, Nat.one_pos⟩, ⟨1, Nat.one_pos⟩, by decide⟩

/-- `n` sections of thread `t`. -/
def sections (n t : ℕ) : List (Schedule (Pc numbers) (Input numbers)) :=
  List.replicate n (.run t .advance)

/-- Admit a command to entity 5, passivate the entity, and admit another command while the thread
that removed the entry is still at work on the old slot. -/
def replacement : List (Schedule (Pc numbers) (Input numbers)) :=
  [.call (.admitCommand 0 5 7)] ++ sections 11 0 ++
  -- the activation, and the delivery of the command
  [.run 1 (.activated (.ok (2, 3)))] ++ sections 8 1 ++
  [.run 2 (.delivered (.ok ()))] ++ sections 3 2 ++
  -- the passivation, its fence, the retirement and the removal
  [.call (.passivate 5)] ++ sections 13 3 ++
  [.run 4 (.fenced (.ok ()))] ++ sections 8 4 ++
  [.run 5 (.retired (.ok ()))] ++ sections 5 5 ++
  -- the second slot and its activation
  [.call (.admitCommand 0 5 8)] ++ sections 11 6 ++
  [.run 7 (.activated (.ok (4, 6)))] ++ sections 1 7

/-- The run of `replacement` leaves entity 5 with two slots, one of them inactive, and one lease. -/
theorem single_incarnation_replacement :
    ∃ tr v, Reaches (R := numbers) oneShard (fun _ => 0) tr v ∧
      (v.shared.directory.slots.map fun x => (x.entityId, x.execution.state.phase))
        = [(5, .inactive), (5, .active)] ∧
      v.shared.live.map Prod.fst = [5] ∧ SingleIncarnation tr v := by
  have hexec : ((exec (EntityRuntime.step (R := numbers)) (new oneShard fun _ => 0)
      replacement).map fun r =>
        (r.2.shared.directory.slots.map fun x => (x.entityId, x.execution.state.phase),
          r.2.shared.live.map Prod.fst))
      = some ([(5, .inactive), (5, .active)], [5]) := by decide +kernel
  obtain ⟨⟨tr, v⟩, hrun, hv⟩ := map_eq_some_iff.mp hexec
  obtain ⟨hslots, hlive⟩ := Prod.mk.inj hv
  exact ⟨tr, v, exec_run hrun, hslots, hlive, single_incarnation (exec_run hrun)⟩

end Entity
