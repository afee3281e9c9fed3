import Bombay.Entity.Names

/-!
# The ledger of a slot

A slot is claimed once, and the claim has consequences: an activation is started, a lease comes out
of it or it fails, the lease is retired, and its retirement is submitted.  At any moment the next
consequence is in exactly one place: in the state of the slot, in its queue, in the hands of a
thread that interprets the queue, in a task, or in a fact on its way back.  This file does the
bookkeeping.

A `Weights` says what a consequence of each kind weighs.  Two sets of weights are used:

* `Weights.charge` counts all of them.  No section raises the charge of a slot, and a claim sets it
  to one, so there is never more than one consequence under way;
* `Weights.leases` counts the leases, and what it counts is what the port has handed out.

`Acts.trade` says what each section does to the weight of a slot, for arbitrary weights; the two
invariants in `ledger_run` are read off it.
-/

set_option autoImplicit false

namespace Entity

open Machine List Option Shared

/-- What the consequences of a claim weigh. -/
structure Weights where
  /-- An activation that has not resolved. -/
  start : ℕ
  /-- A lease that has not been retired. -/
  lease : ℕ
  /-- An activation failure that the slot has not seen. -/
  failed : ℕ
  /-- A termination that the slot has not seen. -/
  ended : ℕ

/-- Every consequence counts. -/
def Weights.charge : Weights := ⟨1, 1, 1, 1⟩

/-- Only leases count. -/
def Weights.leases : Weights := ⟨0, 1, 0, 0⟩

@[simp] theorem Weights.leases_start : Weights.leases.start = 0 := rfl

@[simp] theorem Weights.leases_lease : Weights.leases.lease = 1 := rfl

@[simp] theorem Weights.leases_failed : Weights.leases.failed = 0 := rfl

@[simp] theorem Weights.leases_ended : Weights.leases.ended = 0 := rfl

/-! ## One slot -/

section Slot

variable {C E L : Type} (w : Weights)

@[simp] def SlotEvent.weigh : SlotEvent C E L → ℕ
  | .activationSucceeded .. => w.lease
  | .activationFailed _ => w.failed
  | .terminated _ => w.ended
  | _ => 0

/-- What a fact leaves with the slot it is submitted to. -/
def SlotEvent.brings : SlotEvent C E L → ℕ
  | .activationSucceeded .. => w.lease
  | _ => 0

@[simp] def SlotEffect.weigh : SlotEffect C E L → ℕ
  | .startActivation _ => w.start
  | .retire .. => w.lease
  | _ => 0

def EntitySlot.weigh : EntitySlot C E L → ℕ
  | .active _ | .draining _ => w.lease
  | _ => 0

/-- What a batch of effects weighs. -/
def weighAll (effects : List (SlotEffect C E L)) : ℕ := (effects.map (·.weigh w)).sum

@[simp] theorem weighAll_nil : weighAll w ([] : List (SlotEffect C E L)) = 0 := rfl

@[simp] theorem weighAll_cons (f : SlotEffect C E L) (effs : List (SlotEffect C E L)) :
    weighAll w (f :: effs) = f.weigh w + weighAll w effs := by
  simp [weighAll]

@[simp] theorem weighAll_append (effs effs' : List (SlotEffect C E L)) :
    weighAll w (effs ++ effs') = weighAll w effs + weighAll w effs' := by
  simp [weighAll]

@[simp] theorem weighAll_returned (failure : Option (DispatchId × C)) :
    weighAll w (returned failure : List (SlotEffect C E L)) = 0 := by
  cases failure <;> rfl

@[simp] theorem weighAll_rejected (reason : Refusal) (waiters : List (ActivationWaiter C)) :
    weighAll w (waiters.map fun x => (SlotEffect.reject x.dispatchId x.command reason :
      SlotEffect C E L)) = 0 := by
  simp [weighAll, Function.comp_def]

@[simp] theorem weighAll_delivered (a : ActivationId) (endpoint : E)
    (waiters : List (ActivationWaiter C)) :
    weighAll w (waiters.map fun x => (SlotEffect.deliver a x.dispatchId endpoint x.command :
      SlotEffect C E L)) = 0 := by
  simp [weighAll, Function.comp_def]

variable {w}

variable {s : EntitySlot C E L} {e : SlotEvent C E L} {effs : List (SlotEffect C E L)}

/-- **One decision balances**: what a slot and its effects weigh after a fact is what the slot
weighed before and what the fact brought. -/
theorem Decides.weigh {a} {u} (h : Decides s e u effs) (he : e.Names a) :
    u.weigh w + weighAll w effs = s.weigh w + e.brings w := by
  cases h with
  | claim | refuseClaim => exact he.elim
  | ignore hidle =>
    cases e with
    | activationSucceeded => exact hidle.elim
    | _ => rfl
  | _ => simp [EntitySlot.weigh, SlotEvent.brings]

/-- A slot becomes inactive on the failure of its activation or on its termination. -/
theorem Decides.ends (h : Decides s e .inactive effs) (hs : s ≠ .inactive) :
    (∃ a, e = .activationFailed a) ∨ ∃ a, e = .terminated a := by
  cases h with
  | fail => exact .inl ⟨_, rfl⟩
  | terminate => exact .inr ⟨_, rfl⟩
  | _ => exact absurd rfl hs

theorem closeFamily_weigh (s : EntitySlot C E L) :
    s.closeFamily.1.weigh w + weighAll w s.closeFamily.2.1
      + (if s.closeFamily.2.2.isSome then w.lease else 0) = s.weigh w := by
  cases s <;> simp [EntitySlot.closeFamily, EntitySlot.weigh]

end Slot

variable {R : LocalEntityRuntime}

def SlotExecution.weigh (w : Weights) (x : SlotExecution R) : ℕ :=
  x.state.weigh w + weighAll w x.pending

/-- What the slot `k` weighs. -/
def Shared.weigh (w : Weights) (s : Shared R) (k : SlotRef) : ℕ :=
  (s.directory.slots[k]?.map (·.execution.weigh w)).getD 0

/-! ## The threads -/

/-- A weight that belongs to `slot`, seen from the slot `k`. -/
def share (k : SlotRef) (slot : Option SlotRef) (n : ℕ) : ℕ := if slot = some k then n else 0

@[simp] theorem share_none (k : SlotRef) (n : ℕ) : share k none n = 0 := rfl

@[simp] theorem share_self (k : SlotRef) (n : ℕ) : share k (some k) n = n := by simp [share]

@[simp] theorem share_zero (k : SlotRef) (slot : Option SlotRef) : share k slot 0 = 0 := by
  simp [share]

variable {k slot : SlotRef}

theorem share_ne (h : slot ≠ k) (n : ℕ) : share k (some slot) n = 0 := by
  simp [share, h]

section Threads

variable (w : Weights) (k : SlotRef)

@[simp] def Task.weigh : Task R → ℕ
  | .activation _ slot _ => share k slot w.start
  | .retire _ slot .. => share k slot w.lease
  | .closedFence _ slot .. => share k (some slot) w.lease
  | _ => 0

/-- A dead task may have left a lease behind. -/
def Ending.weigh : Ending R → ℕ
  | .died (.retire _ slot ..) _ => share k slot w.lease
  | .died (.closedFence _ slot ..) _ => share k (some slot) w.lease
  | _ => 0

def Return.weigh : Return R → ℕ
  | .closeSlot _ _ slot retirement _ =>
    share k (some slot) (if retirement.isSome then w.lease else 0)
  | _ => 0

def Purpose.weigh : Purpose R → ℕ
  | .task ret => ret.weigh w k
  | _ => 0

def Cont.weigh : Cont R → ℕ
  | .interpret _ _ ret => ret.weigh w k
  | .closeSlots .. => 0

/-- What a thread holds of the slot `k`. -/
@[simp] def Pc.weigh : Pc R → ℕ
  | .submitOrInactive _ _ purpose => purpose.weigh w k
  | .submit _ slot event purpose => share k (some slot) (event.weigh w) + purpose.weigh w k
  | .acquire _ _ ret | .next _ _ ret | .takeSlot _ _ _ ret | .retainRetired _ _ _ ret =>
    ret.weigh w k
  | .interpretEffect _ source effect ret => share k source.slot? (effect.weigh w) + ret.weigh w k
  | .begin work cont | .spawn work cont => work.weigh w k + cont.weigh w k
  | .track _ cont => cont.weigh w k
  | .task work => work.weigh w k
  | .retirementFailed r => share k r.slot w.ended
  | .finish ending | .publishIdle _ ending | .exit ending | .ended ending => ending.weigh w k
  | .panicked place => place.weigh
  | _ => 0

@[simp] theorem After.weigh_pc (after : After R) : after.pc.weigh w k = 0 := by
  cases after <;> rfl

@[simp] theorem Return.weigh_pc (ret : Return R) : ret.pc.weigh w k = ret.weigh w k := by
  rcases ret with _ | _ | _ | _ | ⟨_, _, _, _ | ⟨_, _, _, _ | _⟩, _⟩ | _ <;>
    simp [Return.pc, Return.weigh, Ending.weigh, closedTask, Cont.weigh]

@[simp] theorem Cont.weigh_pc (cont : Cont R) : cont.pc.weigh w k = cont.weigh w k := by
  cases cont <;> rfl

@[simp] theorem Purpose.weigh_ret (purpose : Purpose R) (id : R.Id)
    (installed : InstalledSlotEvidence) :
    (purpose.ret id installed).weigh w k = purpose.weigh w k := by
  cases purpose <;> rfl

theorem weigh_submitOwned (id : R.Id) (slot : Option SlotRef) (event : R.Event)
    (ret : SlotRef → Return R) (h : ∀ slot, (ret slot).weigh w k = 0) :
    (submitOwned id slot event ret).weigh w k = share k slot (event.weigh w) := by
  cases slot with
  | none => rfl
  | some => simp [submitOwned, Purpose.weigh, h]

@[simp] theorem weigh_terminated (id : R.Id) (slot : Option SlotRef) (a : ActivationId)
    (mode : RetirementMode) : (terminated id slot a mode).weigh w k = share k slot w.ended :=
  weigh_submitOwned w k id slot _ _ fun _ => rfl

theorem Pc.isCall_weigh {p : Pc R} (h : p.isCall) : p.weigh w k = 0 := by
  cases p with
  | admitCommand | passivate | retireEntity | shutdown => rfl
  | _ => cases h

end Threads

/-! Leases are consequences. -/

theorem share_le {slot} {m n : ℕ} (h : m ≤ n) : share k slot m ≤ share k slot n := by
  by_cases hs : slot = some k <;> simp [share, hs, h]

theorem Task.leases_le (task : Task R) (k : SlotRef) :
    task.weigh .leases k ≤ task.weigh .charge k := by
  cases task with
  | activation => exact share_le (Nat.zero_le _)
  | _ => exact Nat.le_refl _

theorem Return.leases_le (ret : Return R) (k : SlotRef) :
    ret.weigh .leases k ≤ ret.weigh .charge k := by
  cases ret <;> exact Nat.le_refl _

theorem Purpose.leases_le (purpose : Purpose R) (k : SlotRef) :
    purpose.weigh .leases k ≤ purpose.weigh .charge k := by
  cases purpose with
  | task ret => exact ret.leases_le k
  | _ => exact Nat.le_refl _

theorem Cont.leases_le (cont : Cont R) (k : SlotRef) :
    cont.weigh .leases k ≤ cont.weigh .charge k := by
  cases cont with
  | interpret _ _ ret => exact ret.leases_le k
  | closeSlots => exact Nat.le_refl _

theorem Ending.leases_le (ending : Ending R) (k : SlotRef) :
    ending.weigh .leases k ≤ ending.weigh .charge k := by
  cases ending with
  | returned => exact Nat.le_refl _
  | died task => cases task <;> exact Nat.le_refl _

variable {C E L : Type}

theorem SlotEvent.leases_le (e : SlotEvent C E L) : e.weigh .leases ≤ e.weigh .charge := by
  cases e <;> first | exact Nat.le_refl _ | exact Nat.zero_le _

theorem SlotEffect.leases_le (f : SlotEffect C E L) : f.weigh .leases ≤ f.weigh .charge := by
  cases f <;> first | exact Nat.le_refl _ | exact Nat.zero_le _

theorem Pc.leases_le (p : Pc R) (k : SlotRef) : p.weigh .leases k ≤ p.weigh .charge k := by
  induction p with
  | submitOrInactive _ _ purpose => exact purpose.leases_le k
  | submit _ _ event purpose =>
    exact Nat.add_le_add (share_le event.leases_le) (purpose.leases_le k)
  | acquire _ _ ret | next _ _ ret | takeSlot _ _ _ ret | retainRetired _ _ _ ret =>
    exact ret.leases_le k
  | interpretEffect _ _ effect ret =>
    exact Nat.add_le_add (share_le effect.leases_le) (ret.leases_le k)
  | begin work cont | spawn work cont => exact Nat.add_le_add (work.leases_le k) (cont.leases_le k)
  | track _ cont => exact cont.leases_le k
  | task work => exact work.leases_le k
  | retirementFailed => exact share_le (Nat.zero_le _)
  | finish ending | publishIdle _ ending | exit ending | ended ending => exact ending.leases_le k
  | panicked _ ih => exact ih
  | _ => exact Nat.le_refl _

theorem Shared.leases_le (s : Shared R) (k : SlotRef) : s.weigh .leases k ≤ s.weigh .charge k := by
  rw [weigh, weigh]
  cases s.directory.slots[k]? with
  | none => exact Nat.le_refl _
  | some x =>
    have hall (effs : List R.Effect) : weighAll .leases effs ≤ weighAll .charge effs := by
      induction effs with
      | nil => exact Nat.le_refl _
      | cons f _ ih =>
        rw [weighAll_cons, weighAll_cons]
        exact Nat.add_le_add f.leases_le ih
    exact Nat.add_le_add (by cases x.execution.state <;> exact Nat.le_refl _)
      (hall x.execution.pending)

/-! Nobody holds anything of a slot that has not been allocated. -/

section Fresh

variable {w : Weights} {d : LocalDirectory R} {k : SlotRef}

theorem LocalDirectory.Owns.share_eq {id : R.Id} {slot : SlotRef} (h : d.Owns id slot)
    (hk : d.slots.length ≤ k) (n : ℕ) : share k (some slot) n = 0 := by
  obtain ⟨x, hx, _⟩ := h
  have hlt := lt_of_get hx
  exact share_ne (Nat.ne_of_lt (Nat.lt_of_lt_of_le hlt hk)) n

theorem Task.Named.weigh_eq {task : Task R} (h : task.Named d) (hk : d.slots.length ≤ k) :
    task.weigh w k = 0 := by
  obtain ⟨slot, hslot, hn⟩ := h
  cases task with
  | activation | retire | closedFence =>
    cases hslot
    exact hn.owns.share_eq hk _
  | _ => rfl

theorem Ending.Named.weigh_eq {ending : Ending R} (h : ending.Named d) (hk : d.slots.length ≤ k) :
    ending.weigh w k = 0 := by
  cases ending with
  | returned => rfl
  | died task =>
    cases task with
    | retire | closedFence => exact Task.Named.weigh_eq h hk
    | _ => rfl

theorem Return.Named.weigh_eq {ret : Return R} (h : ret.Named d) (hk : d.slots.length ≤ k) :
    ret.weigh w k = 0 := by
  cases ret with
  | closeSlot => exact h.2.2.1.share_eq hk _
  | _ => rfl

theorem Purpose.Named.weigh_eq {purpose : Purpose R} (h : purpose.Named d)
    (hk : d.slots.length ≤ k) : purpose.weigh w k = 0 := by
  cases purpose with
  | task => exact Return.Named.weigh_eq h hk
  | _ => rfl

theorem Cont.Named.weigh_eq {cont : Cont R} (h : cont.Named d) (hk : d.slots.length ≤ k) :
    cont.weigh w k = 0 := by
  cases cont with
  | interpret => exact Return.Named.weigh_eq h.2 hk
  | closeSlots => rfl

theorem Pc.Named.weigh_eq {p : Pc R} (h : p.Named d) (hk : d.slots.length ≤ k) :
    p.weigh w k = 0 := by
  induction p with
  | submitOrInactive => exact Purpose.Named.weigh_eq h.2 hk
  | submit =>
    obtain ⟨⟨a, hn, _⟩, hpurpose⟩ := h
    rw [Pc.weigh, hn.owns.share_eq hk, Purpose.Named.weigh_eq hpurpose hk]
  | acquire | retainRetired | next => exact Return.Named.weigh_eq h.2 hk
  | takeSlot => exact Return.Named.weigh_eq h.2.2 hk
  | interpretEffect =>
    obtain ⟨⟨slot, a, rfl, hn, _⟩, hret⟩ := h
    rw [Pc.weigh, Return.Named.weigh_eq hret hk]
    exact hn.owns.share_eq hk _
  | begin | spawn => rw [Pc.weigh, Task.Named.weigh_eq h.1 hk, Cont.Named.weigh_eq h.2 hk]
  | track => exact Cont.Named.weigh_eq h hk
  | task => exact Task.Named.weigh_eq h hk
  | retirementFailed =>
    obtain ⟨slot, hslot, hn⟩ := h
    rw [Pc.weigh, hslot]
    exact hn.owns.share_eq hk _
  | finish | publishIdle | exit | ended => exact Ending.Named.weigh_eq h hk
  | panicked _ ih => exact ih h
  | _ => rfl

end Fresh

/-! ## What a section does to the weight of a slot -/

variable {w : Weights} {s : Shared R} {x : Allocation R}

theorem Shared.weigh_of_some
    (h : s.directory.slots[k]? = some x) : s.weigh w k = x.execution.weigh w := by
  simp [weigh, h]

variable {s' : Shared R}

theorem Shared.weigh_congr
    (h : s'.directory.slots[k]? = s.directory.slots[k]?) : s'.weigh w k = s.weigh w k := by
  simp [weigh, h]

/-- A section under the lock of `slot` changes what `slot` weighs and nothing else. -/
theorem Shared.weigh_put
    (h : s.directory.slots[slot]? = some x) (e : SlotExecution R) (k : SlotRef) :
    (s.put slot x e).weigh w k + share k (some slot) (x.execution.weigh w)
      = s.weigh w k + share k (some slot) (e.weigh w) := by
  by_cases hk : slot = k
  · subst hk
    have hlt := lt_of_get h
    have hself : (s.put slot x e).directory.slots[slot]? = some { x with execution := e } :=
      getElem?_set_self hlt
    rw [weigh_of_some h, weigh_of_some hself, share_self, share_self]
    exact Nat.add_comm _ _
  · rw [share_ne hk, share_ne hk]
    exact congrArg (· + 0) (weigh_congr (getElem?_set_ne hk))

/-- What a fact weighs it brings, or it is a failure or a termination and brings nothing. -/
theorem SlotEvent.weigh_cases (w : Weights) (e : SlotEvent C E L) :
    e.weigh w = e.brings w ∨ e.brings w = 0 ∧ (e.weigh w = w.failed ∨ e.weigh w = w.ended) := by
  cases e with
  | activationFailed => exact .inr ⟨rfl, .inl rfl⟩
  | terminated => exact .inr ⟨rfl, .inr rfl⟩
  | _ => exact .inl rfl

theorem SlotEvent.Silent.weigh {e : SlotEvent C E L} (h : e.Silent) : e.weigh w = 0 := by
  cases e with
  | cancelWaiter | beginDrain => rfl
  | _ => exact h.elim

theorem share_add (k : SlotRef) (slot : Option SlotRef) (m n : ℕ) :
    share k slot (m + n) = share k slot m + share k slot n := by
  by_cases h : slot = some k <;> simp [share, h]

variable {e : SlotExecution R}

theorem weigh_submitted {event : R.Event} (hx : s.directory.slots[slot]? = some x)
    (he : event.Names x.activationId) (hs : e.state = (x.execution.state.decide event).state)
    (hp : e.pending = x.execution.pending ++ (x.execution.state.decide event).effects)
    (k : SlotRef) :
    (s.put slot x e).weigh w k = s.weigh w k + share k (some slot) (event.brings w) := by
  have hd := (decide_decides x.execution.state event).weigh (w := w) he
  have hweigh : e.weigh w = x.execution.weigh w + event.brings w := by
    rw [SlotExecution.weigh, SlotExecution.weigh, hs, hp, weighAll_append]
    omega
  have hput := weigh_put (w := w) hx e k
  rw [hweigh, share_add] at hput
  omega

variable {s s' : Shared R} {self fresh : ℕ} {p p' : Pc R} {q : Option (Pc R)} {i : Input R}
  {w : Weights}

/-- A section that keeps the state of a slot and its queue keeps what it weighs. -/
theorem weigh_unchanged
    (hx : s.directory.slots[slot]? = some x) (he : e.weigh w = x.execution.weigh w)
    (k : SlotRef) : (s.put slot x e).weigh w k = s.weigh w k := by
  have hput := weigh_put (w := w) hx e k
  rw [he] at hput
  omega

theorem weigh_retirement {name} {r} (hx : s.directory.slots[slot]? = some x)
    (h : x.execution.beginRetirement name = (e, r))
    (k : SlotRef) : (s.put slot x e).weigh w k = s.weigh w k := by
  rcases SlotExecution.beginRetirement_cases h with rfl | ⟨_, a, hs, hp⟩
  · exact weigh_unchanged hx rfl k
  · have he : (SlotEvent.beginDrain a : R.Event).Names x.activationId := trivial
    rw [weigh_submitted hx he hs hp]
    simp [SlotEvent.brings]

variable {id : R.Id}

theorem weigh_effectTask {slot} {effect : R.Effect} {task : Task R}
    (h : effectTask id slot effect = some task) (k : SlotRef) :
    task.weigh w k = share k slot (effect.weigh w) := by
  cases effect with
  | startActivation | retire =>
    obtain rfl := some.inj h
    rfl
  | deliver | enqueueFence =>
    obtain rfl := some.inj h
    simp
  | _ => cases h

variable {d : LocalDirectory R} {a : ActivationId}

theorem LocalDirectory.Numbered.names_ne (hd : d.Numbered) (hn : d.Names id slot a)
    (hx : d.slots[k]? = some x) (hne : slot ≠ k) : (id, a) ≠ (x.entityId, x.activationId) := by
  intro heq
  obtain ⟨y, hy, _, rfl⟩ := hn
  have hact : y.activationId = x.activationId := (Prod.mk.inj heq).2
  have hnum : slot + 1 = k + 1 := by rw [← hd.slots slot y hy, ← hd.slots k x hx, hact]
  exact hne (Nat.succ.inj hnum)

theorem LocalDirectory.Numbered.names_le (hd : d.Numbered)
    (hn : d.Names id k a) : a.get.1 ≤ d.slots.length := by
  obtain ⟨y, hy, _, rfl⟩ := hn
  rw [hd.slots k y hy]
  exact lt_of_get hy

theorem LocalDirectory.Names.eq (hn : d.Names id k a) (hx : d.slots[k]? = some x) :
    (id, a) = (x.entityId, x.activationId) := by
  obtain ⟨y, hy, rfl, rfl⟩ := hn
  obtain rfl := some.inj (hx.symm.trans hy)
  rfl

variable [DecidableEq R.Id]

/-- What a section does to the weight of the slot `k`, from `before` to `after`, and to the leases
that are out. -/
inductive Trade (w : Weights) (k : SlotRef) (s s' : Shared R) (before after : ℕ) : Prop
  | even (h : after = before) (live : s'.live = s.live)
  /-- An activation is dropped, or the slot has seen a failure or a termination. -/
  | spent (slot : Option SlotRef) (n : ℕ) (hn : n = w.start ∨ n = w.failed ∨ n = w.ended)
      (h : after + share k slot n = before) (live : s'.live = s.live)
  /-- `activate` hands out a lease. -/
  | activated (id : R.Id) (slot : SlotRef) (a : ActivationId) (named : s.directory.Names id slot a)
      (h : after + share k (some slot) w.start = before + share k (some slot) w.lease)
      (live : s'.live = (id, a) :: s.live)
  | unactivated (slot : SlotRef)
      (h : after + share k (some slot) w.start = before + share k (some slot) w.failed)
      (live : s'.live = s.live)
  /-- `retire` resolves. -/
  | retired (id : R.Id) (slot : SlotRef) (a : ActivationId) (named : s.directory.Names id slot a)
      (h : after + share k (some slot) w.lease = before + share k (some slot) w.ended)
      (live : s'.live = s.live.erase (id, a))

/-- With all consequences counted, a section trades one for another or drops one. -/
theorem Trade.charge_le {before after : ℕ}
    (h : Trade .charge k s s' before after) : after ≤ before := by
  cases h with
  | even heq => exact Nat.le_of_eq heq
  | spent _ _ _ heq => exact Nat.le.intro heq
  | activated _ _ _ _ heq | unactivated _ heq | retired _ _ _ _ heq =>
    exact Nat.le_of_eq (Nat.add_right_cancel heq)

/-- **Every section balances.** -/
theorem Acts.trade (h : Acts s self fresh p i s' p' q) (hn : p.Named s.directory)
    (hk : k < s.directory.slots.length) : Trade w k s s' (s.weigh w k + p.weigh w k)
      (s'.weigh w k + p'.weigh w k + total (Pc.weigh w k) q.toList) := by
  cases h with
  | routeClaimed _ _ _ directory _ _ _ claimed =>
    obtain ⟨_, ⟨x, hslots, _⟩, _⟩ := LocalDirectory.claim_spec claimed
    refine .even ?_ rfl
    have hsame : ({ s with directory := directory } : Shared R).weigh w k = s.weigh w k :=
      weigh_congr (by
        show directory.slots[k]? = s.directory.slots[k]?
        rw [hslots, getElem?_append_left hk])
    rw [hsame]
    rfl
  | released | tracked | recorded => exact .even (by simp [weigh]) rfl
  | retirementBegun _ slot x e _ _ hx begun =>
    have hsame : ({ s.put slot x e with fresh := s.fresh + 1 } : Shared R).weigh w k =
        s.weigh w k :=
      weigh_retirement hx begun k
    exact .even (by rw [hsame]; rfl) rfl
  | retirementRefused _ _ _ _ _ hx refused =>
    exact .even (by rw [weigh_retirement hx refused]; rfl) rfl
  | submitted _ slot event _ x hx =>
    obtain ⟨⟨a, ⟨y, hy, _, rfl⟩, he⟩, _⟩ := hn
    obtain rfl : x = y := some.inj (hx.symm.trans hy)
    have hput := weigh_submitted (w := w) hx he rfl rfl k (e := (x.execution.submit event).1)
    rcases event.weigh_cases w with hbrings | ⟨hbrings, hspent⟩
    · refine .even ?_ rfl
      rw [hput]
      simp only [Pc.weigh, Purpose.weigh_ret, toList_none, total_nil, hbrings]
      omega
    · refine .spent (some slot) (event.weigh w) (.inr hspent) ?_ rfl
      rw [hput, hbrings]
      simp only [Pc.weigh, Purpose.weigh_ret, toList_none, total_nil, share_zero]
      omega
  | acquired _ _ _ x hx =>
    refine .even ?_ rfl
    obtain ⟨hs, hp⟩ := x.execution.acquire_fst
    rw [weigh_unchanged hx (by rw [SlotExecution.weigh, hs, hp]; rfl)]
    rfl
  | busy | transientDone | absent => exact .even (by simp) rfl
  | emptied _ _ _ x hx pending =>
    refine .even ?_ rfl
    obtain ⟨hs, hp⟩ := x.execution.next_fst
    rw [weigh_unchanged hx (by rw [SlotExecution.weigh, SlotExecution.weigh, hs, hp, pending]; rfl)]
    simp
  | popped _ _ _ x effect _ hx pending =>
    refine .even ?_ rfl
    have hput := weigh_put (w := w) hx x.execution.next.1 k
    have hpop : x.execution.weigh w = x.execution.next.1.weigh w + effect.weigh w := by
      obtain ⟨hs, hp⟩ := x.execution.next_fst
      rw [SlotExecution.weigh, SlotExecution.weigh, hs, hp, pending, weighAll_cons, tail_cons]
      omega
    rw [hpop, share_add] at hput
    simp only [Pc.weigh, InstalledEffectSource.slot?, toList_none, total_nil]
    omega
  | routeHit => exact .even (by simp [Purpose.weigh]) rfl
  | located => exact .even (by simp [hn.1.weigh, -SlotEvent.weigh]) rfl
  | transientNext => exact .even (by simp [InstalledEffectSource.slot?]) rfl
  | skipped _ source =>
    refine .spent source.slot? w.start (.inl rfl) ?_ rfl
    simp only [Pc.weigh, SlotEffect.weigh, toList_none, total_nil]
    omega
  | scheduled _ _ _ _ _ _ htask =>
    refine .even ?_ rfl
    simp only [Pc.weigh, weigh_effectTask htask, Cont.weigh, toList_none, total_nil]
    omega
  | rejected | removing | removeAbsent =>
    exact .even (by simp [Shared.reject, weigh]) rfl
  | spawned =>
    refine .even ?_ rfl
    simp only [Pc.weigh, toList_some, total_cons, total_nil]
    omega
  | activated id slot a =>
    obtain ⟨_, hslot, hnames⟩ := hn
    cases hslot
    refine .activated id slot a hnames ?_ rfl
    simp only [Pc.weigh, Task.weigh, SlotEvent.weigh, Purpose.weigh, Return.weigh,
      toList_none, total_nil, weigh]
    omega
  | unactivated _ slot =>
    refine .unactivated slot ?_ rfl
    simp only [Pc.weigh, Task.weigh, SlotEvent.weigh, Purpose.weigh, Return.weigh,
      toList_none, total_nil]
    omega
  | delivered =>
    refine .even ?_ rfl
    rw [weigh_submitOwned _ _ _ _ _ _ fun _ => rfl]
    simp [weigh]
  | undelivered | undeliverable =>
    exact .even (by simp [Purpose.weigh, Return.weigh, Ending.weigh, Shared.reject, weigh]) rfl
  | fenced _ _ _ _ result =>
    refine .even ?_ rfl
    rw [weigh_submitOwned _ _ _ _ _ _ fun _ => rfl]
    cases result <;> simp [fenceFact]
  | retired id _ a =>
    obtain ⟨k', hslot, hnames⟩ := hn
    cases hslot
    refine .retired id k' a hnames ?_ rfl
    simp only [weigh_terminated, Pc.weigh, Task.weigh, toList_none, total_nil, weigh]
    omega
  | unretired id _ a =>
    obtain ⟨k', hslot, hnames⟩ := hn
    cases hslot
    refine .retired id k' a hnames ?_ rfl
    simp only [Pc.weigh, Task.weigh, toList_none, total_nil, weigh]
    omega
  | aborted task =>
    cases task with
    | activation _ slot =>
      refine .spent slot w.start (.inl rfl) ?_ rfl
      simp only [Pc.weigh, Task.weigh, Ending.weigh, toList_none, total_nil]
      omega
    | _ => exact .even rfl rfl
  | retirementCompleted _ _ x _ hx | unobserved _ _ x hx =>
    refine .even ?_ rfl
    rw [weigh_unchanged (e := x.execution.completeRetirement.1) hx rfl]
    rfl
  | familyClosed _ _ _ _ x hx =>
    refine .even ?_ rfl
    have hput := weigh_put (w := w) hx x.execution.closeFamily.1 k
    have hclose : x.execution.weigh w = x.execution.closeFamily.1.weigh w
        + (if x.execution.closeFamily.2.isSome then w.lease else 0) := by
      have hstate := closeFamily_weigh (w := w) x.execution.state
      have hfst : x.execution.closeFamily.1.weigh w = x.execution.state.closeFamily.1.weigh w
          + weighAll w (x.execution.pending ++ x.execution.state.closeFamily.2.1) := rfl
      have hsnd : x.execution.closeFamily.2 = x.execution.state.closeFamily.2.2 := rfl
      rw [hfst, hsnd, weighAll_append, SlotExecution.weigh]
      omega
    rw [hclose, share_add] at hput
    simp only [Pc.weigh, Return.weigh, toList_none, total_nil]
    omega
  | _ => exact .even rfl rfl

/-! ## Claiming and settling -/

/-- A section that allocates a slot: it found no entry, and it inserted one. -/
structure Claims (s s' : Shared R) (p p' : Pc R) (q : Option (Pc R)) (id : R.Id)
    (x : Allocation R) : Prop where
  place : ∃ pending d, p = .route id pending d
  goes : ∃ after, p' = .acquire id s.directory.slots.length (.release after) ∧ q = none
  miss : s.directory.get id = none
  slots : s'.directory.slots = s.directory.slots ++ [x]
  claimed : s.directory.Claimed id x
  shards : s'.directory.shards = Function.update s.directory.shards (s.directory.shardIndex id)
    ((id, s.directory.slots.length) :: s.directory.shards (s.directory.shardIndex id))
  live : s'.live = s.live
  admission : s'.admission = s.admission

theorem Acts.claims (h : Acts s self fresh p i s' p' q) :
    s'.directory.slots.length = s.directory.slots.length ∨ ∃ id x, Claims s s' p p' q id x := by
  cases h with
  | routeClaimed id _ _ _ _ _ miss claimed =>
    obtain ⟨rfl, ⟨x, hslots, hx⟩, hshards, _⟩ := LocalDirectory.claim_spec claimed
    exact .inr ⟨id, x, ⟨_, _, rfl⟩, ⟨_, rfl, rfl⟩, miss, hslots, hx, hshards, rfl, rfl⟩
  | retirementBegun | retirementRefused | submitted | acquired | popped | emptied
  | retirementCompleted | unobserved | familyClosed => exact .inl (length_set ..)
  | _ => exact .inl rfl

omit [DecidableEq R.Id] in
theorem Shared.put_slots {y} (hx : s.directory.slots[slot]? = some x)
    (hy : (s.put slot x e).directory.slots[k]? = some y) :
    slot = k ∧ y = { x with execution := e } ∨ s.directory.slots[k]? = some y := by
  have hlt := lt_of_get hx
  by_cases hk : slot = k
  · subst hk
    rw [put, getElem?_set_self hlt] at hy
    exact .inl ⟨rfl, (some.inj hy).symm⟩
  · rw [put, getElem?_set_ne hk] at hy
    exact .inr hy

variable {x' : Allocation R}

/-- A slot becomes inactive when a shutdown closes it, or at the expense of its charge. -/
theorem Acts.settles (h : Acts s self fresh p i s' p' q) (hn : p.Named s.directory)
    (hx : s.directory.slots[k]? = some x) (hx' : s'.directory.slots[k]? = some x')
    (hactive : x.execution.state ≠ .inactive) (hinact : x'.execution.state = .inactive) :
    p.closing ∨ s'.weigh .charge k + p'.weigh .charge k + total (Pc.weigh .charge k) q.toList
      < s.weigh .charge k + p.weigh .charge k := by
  -- a section that does not touch the state of the slot cannot have settled it
  have hsame {y : Allocation R} (hy : s.directory.slots[k]? = some y)
      (hs : x'.execution.state = y.execution.state) : False := by
    obtain rfl := some.inj (hx.symm.trans hy)
    exact hactive (hs.symm.trans hinact)
  have hkeep {slot : SlotRef} {y : Allocation R} {e : SlotExecution R}
      (hy : s.directory.slots[slot]? = some y) (hs : e.state = y.execution.state)
      (hput : (s.put slot y e).directory.slots[k]? = some x') : False := by
    rcases put_slots hy hput with ⟨rfl, rfl⟩ | hold
    · exact hsame hy hs
    · exact hsame hold rfl
  have hbegin {slot : SlotRef} {y : Allocation R} {e : SlotExecution R} {name : Publication}
      {r : Except EntityRetirementError (InstalledSlotEvidence × Publication)}
      (hy : s.directory.slots[slot]? = some y) (hr : y.execution.beginRetirement name = (e, r))
      (hput : (s.put slot y e).directory.slots[k]? = some x') : False := by
    rcases put_slots hy hput with ⟨rfl, rfl⟩ | hold
    · obtain rfl := some.inj (hx.symm.trans hy)
      rcases SlotExecution.beginRetirement_cases hr with rfl | ⟨_, a, hs, _⟩
      · exact hsame hy rfl
      · have hd := decide_decides x.execution.state (.beginDrain a)
        rw [← hs, hinact] at hd
        rcases hd.ends hactive with ⟨_, he⟩ | ⟨_, he⟩ <;> cases he
    · exact hsame hold rfl
  cases h with
  | routeClaimed _ _ _ _ _ _ _ claimed =>
    obtain ⟨_, ⟨y, hslots, _⟩, _⟩ := LocalDirectory.claim_spec claimed
    have hlt := lt_of_get hx
    refine (hsame (y := x') ?_ rfl).elim
    rw [← getElem?_append_left hlt, ← hslots]
    exact hx'
  | retirementBegun _ _ _ _ _ _ hy begun =>
    exact (hbegin hy begun hx').elim
  | retirementRefused _ _ _ _ _ hy refused => exact (hbegin hy refused hx').elim
  | submitted _ slot event _ _ hy =>
    rcases put_slots hy hx' with ⟨rfl, rfl⟩ | hold
    · obtain rfl := some.inj (hx.symm.trans hy)
      obtain ⟨⟨a, ⟨z, hz, _, rfl⟩, he⟩, _⟩ := hn
      obtain rfl : x = z := some.inj (hx.symm.trans hz)
      have hput := weigh_submitted (w := .charge) hx he rfl rfl slot
        (e := (x.execution.submit event).1)
      have hd := decide_decides x.execution.state event
      rw [show (x.execution.state.decide event).state = .inactive from hinact] at hd
      refine .inr ?_
      rw [hput]
      simp only [Pc.weigh, Purpose.weigh_ret, toList_none, total_nil, share_self]
      rcases hd.ends hactive with ⟨b, rfl⟩ | ⟨b, rfl⟩
      all_goals simp only [SlotEvent.brings, SlotEvent.weigh, Weights.charge]; omega
    · exact (hsame hold rfl).elim
  | acquired _ _ _ y hy => exact (hkeep hy y.execution.acquire_fst.1 hx').elim
  | popped _ _ _ y _ _ hy | emptied _ _ _ y hy =>
    exact (hkeep hy y.execution.next_fst.1 hx').elim
  | retirementCompleted _ _ y _ hy | unobserved _ _ y hy =>
    exact (hkeep (e := y.execution.completeRetirement.1) hy rfl hx').elim
  | familyClosed => exact .inl rfl
  | _ => exact (hsame hx' rfl).elim

/-! ## Along a run -/

/-- What the slot `k` weighs in all its places together. -/
def weight (w : Weights) (v : Pool (Shared R) (Pc R)) (k : SlotRef) : ℕ :=
  v.shared.weigh w k + total (Pc.weigh w k) v.threads

variable {v : Pool (Shared R) (Pc R)} {t : ℕ} {k : SlotRef}

omit [DecidableEq R.Id] in
/-- What a section does to the weight of a slot, it does between its own two places. -/
theorem weight_act (w : Weights) (k : SlotRef) (s' : Shared R) (p' : Pc R) (q : Option (Pc R))
    (hp : v.threads[t]? = some p) :
    weight w ⟨s', v.threads.set t p' ++ q.toList⟩ k + (v.shared.weigh w k + p.weigh w k)
      = weight w v k + (s'.weigh w k + p'.weigh w k + total (Pc.weigh w k) q.toList) := by
  have hmove := total_move (Pc.weigh w k) p' q hp
  simp only [weight]
  omega

omit [DecidableEq R.Id] in
theorem le_weight (hp : v.threads[t]? = some p) : v.shared.weigh w k + p.weigh w k ≤ weight w v k :=
  Nat.add_le_add_left (le_total _ hp) _

omit [DecidableEq R.Id] in
theorem leases_le_charge (v : Pool (Shared R) (Pc R)) (k : SlotRef) :
    weight .leases v k ≤ weight .charge v k :=
  Nat.add_le_add (v.shared.leases_le k) (total_le fun p _ => p.leases_le k)

theorem weight_claimed (hv : WellNamed v)
    (hp : v.threads[t]? = some p) (hc : Claims v.shared s' p p' q id x) :
    weight w ⟨s', v.threads.set t p' ++ q.toList⟩ v.shared.directory.slots.length = w.start := by
  obtain ⟨after, rfl, rfl⟩ := hc.goes
  obtain ⟨st, hst, _⟩ := hc.claimed.state
  have hzero : total (Pc.weigh w v.shared.directory.slots.length) v.threads = 0 :=
    total_eq_zero fun r hr => by
      obtain ⟨u, hu⟩ := getElem?_of_mem hr
      exact (hv.threads u r hu).weigh_eq (Nat.le_refl _)
  have hmove := total_move (Pc.weigh w v.shared.directory.slots.length)
    (.acquire id v.shared.directory.slots.length (.release after)) none hp
  have hnew : s'.directory.slots[v.shared.directory.slots.length]? = some x := by
    rw [hc.slots]
    simp
  have hself : s'.weigh w v.shared.directory.slots.length = w.start := by
    rw [weigh_of_some hnew, SlotExecution.weigh, hst, hc.claimed.pending]
    simp [EntitySlot.weigh]
  simp only [weight, hself]
  simp only [Pc.weigh, Return.weigh, toList_none, total_nil] at hmove ⊢
  omega

theorem charge_act (hv : WellNamed v) (hp : v.threads[t]? = some p)
    (h : Acts v.shared t v.threads.length p i s' p' q) (hk : k < v.shared.directory.slots.length) :
    weight .charge ⟨s', v.threads.set t p' ++ q.toList⟩ k ≤ weight .charge v k := by
  have hact := weight_act .charge k s' p' q hp
  have hle := (h.trade (hv.threads t p hp) hk).charge_le
  omega

/-- The leases of a slot that are out are those it weighs: a section keeps it so. -/
theorem leases_act (hv : WellNamed v) (hp : v.threads[t]? = some p)
    (h : Acts v.shared t v.threads.length p i s' p' q) (hx : v.shared.directory.slots[k]? = some x)
    (hlive : v.shared.live.count (x.entityId, x.activationId) = weight .leases v k) :
    s'.live.count (x.entityId, x.activationId)
      = weight .leases ⟨s', v.threads.set t p' ++ q.toList⟩ k := by
  have hact := weight_act .leases k s' p' q hp
  have hle := le_weight (w := .leases) (k := k) hp
  have hk := lt_of_get hx
  cases h.trade (w := .leases) (hv.threads t p hp) hk with
  | even _ live => rw [live]; omega
  | spent _ n hn heq live =>
    have hzero : n = 0 := hn.elim id fun hn => hn.elim id id
    rw [hzero, share_zero] at heq
    rw [live]
    omega
  | activated _ slot _ named heq live =>
    simp only [Weights.leases_start, Weights.leases_lease, share_zero] at heq
    rw [live]
    by_cases hslot : slot = k
    · subst hslot
      rw [share_self] at heq
      rw [named.eq hx, count_cons_self]
      omega
    · rw [share_ne hslot] at heq
      rw [count_cons_of_ne (hv.numbered.names_ne named hx hslot)]
      omega
  | unactivated _ heq live =>
    simp only [Weights.leases_start, Weights.leases_failed, share_zero] at heq
    rw [live]
    omega
  | retired _ slot _ named heq live =>
    simp only [Weights.leases_lease, Weights.leases_ended, share_zero] at heq
    rw [live]
    by_cases hslot : slot = k
    · subst hslot
      rw [share_self] at heq
      rw [named.eq hx, count_erase_self]
      omega
    · rw [share_ne hslot] at heq
      rw [count_erase_of_ne (hv.numbered.names_ne named hx hslot).symm]
      omega

/-- The ledger: a slot has at most one consequence under way, none once it is inactive as long as
family admission is open, and the leases that are out are those the slots account for. -/
structure Ledger (v : Pool (Shared R) (Pc R)) : Prop where
  charge : ∀ (k : ℕ) (x : Allocation R), v.shared.directory.slots[k]? = some x →
    weight .charge v k ≤ 1
  settled : v.shared.admission = .opened → ∀ (k : ℕ) (x : Allocation R),
    v.shared.directory.slots[k]? = some x → x.execution.state = .inactive →
    weight .charge v k = 0
  leases : ∀ (k : ℕ) (x : Allocation R), v.shared.directory.slots[k]? = some x →
    v.shared.live.count (x.entityId, x.activationId) = weight .leases v k
  live : ∀ y ∈ v.shared.live, ∃ k, v.shared.directory.Names y.1 k y.2

/-- A slot that exists after a section existed before, or it has just been claimed. -/
theorem Acts.slot_cases (h : Acts s self fresh p i s' p' q) (hn : p.Named s.directory) {k : ℕ}
    (hx' : s'.directory.slots[k]? = some x') :
    (∃ x, s.directory.slots[k]? = some x ∧ x'.entityId = x.entityId ∧
      x'.activationId = x.activationId ∧
      (x.execution.state = .inactive → x'.execution.state = .inactive)) ∨
    k = s.directory.slots.length ∧ ∃ id, Claims s s' p p' q id x' := by
  have hlt' := lt_of_get hx'
  by_cases hlt : k < s.directory.slots.length
  · obtain ⟨y, hy, hid, ha, hin⟩ := (h.writes hn).grows k _ (getElem?_eq_getElem hlt)
    obtain rfl := some.inj (hx'.symm.trans hy)
    exact .inl ⟨_, getElem?_eq_getElem hlt, hid, ha, hin⟩
  · rcases h.claims with hlen | ⟨id, x, hc⟩
    · omega
    · rw [hc.slots, length_append, length_singleton] at hlt'
      obtain rfl : k = s.directory.slots.length := by omega
      rw [hc.slots, getElem?_append_right (Nat.le_refl _), Nat.sub_self] at hx'
      obtain rfl : x = x' := by simpa using hx'
      exact .inr ⟨rfl, id, hc⟩

theorem Acts.live (h : Acts s self fresh p i s' p' q) (hn : p.Named s.directory) :
    s'.live = s.live ∨
      (∃ id slot a, s.directory.Names id slot a ∧ s'.live = (id, a) :: s.live) ∨
      ∃ id a, s'.live = s.live.erase (id, a) := by
  cases h with
  | activated id slot a =>
    obtain ⟨_, hslot, hnames⟩ := hn
    cases hslot
    exact .inr (.inl ⟨id, slot, a, hnames, rfl⟩)
  | retired id _ a | unretired id _ a => exact .inr (.inr ⟨id, a, rfl⟩)
  | _ => exact .inl rfl

theorem Ledger.act (hl : Ledger v) (hv : WellNamed v) (hg : Gated v)
    (hp : v.threads[t]? = some p) (h : Acts v.shared t v.threads.length p i s' p' q) :
    Ledger ⟨s', v.threads.set t p' ++ q.toList⟩ := by
  have hn : p.Named v.shared.directory := hv.threads t p hp
  have hgrows := (h.writes hn).grows
  refine ⟨fun k x' hx' => ?_, fun hopen k x' hx' hin => ?_, fun k x' hx' => ?_, fun y hy => ?_⟩
  · rcases h.slot_cases hn hx' with ⟨x, hx, _⟩ | ⟨rfl, id, hc⟩
    · have hlt := lt_of_get hx
      exact Nat.le_trans (charge_act hv hp h hlt) (hl.charge k x hx)
    · exact Nat.le_of_eq (weight_claimed hv hp hc)
  · rcases h.slot_cases hn hx' with ⟨x, hx, _⟩ | ⟨rfl, id, hc⟩
    · have hlt := lt_of_get hx
      have hopened : v.shared.admission = .opened := h.opened hopen
      have hle := charge_act hv hp h hlt
      by_cases hstate : x.execution.state = .inactive
      · have hzero := hl.settled hopened k x hx hstate
        omega
      · rcases h.settles hn hx hx' hstate hin with hclosing | hlt'
        · cases (hg.closed t p hp hclosing).symm.trans hopened
        · have hact := weight_act .charge k s' p' q hp
          have hone := hl.charge k x hx
          omega
    · obtain ⟨st, hst, _⟩ := hc.claimed.state
      cases hst.symm.trans hin
  · rcases h.slot_cases hn hx' with ⟨x, hx, hid, ha, _⟩ | ⟨rfl, id, hc⟩
    · rw [hid, ha]
      exact leases_act hv hp h hx (hl.leases k x hx)
    · rw [weight_claimed hv hp hc]
      show s'.live.count (x'.entityId, x'.activationId) = 0
      rw [hc.live, count_eq_zero]
      intro hmem
      obtain ⟨j, hj⟩ := hl.live _ hmem
      have hold : x'.activationId.get.1 ≤ v.shared.directory.slots.length :=
        hv.numbered.names_le hj
      have hnew : x'.activationId.get.1 = v.shared.directory.slots.length + 1 := by
        rw [hc.claimed.activationId]
        exact hv.numbered.next
      omega
  · have hold : y ∈ v.shared.live ∨ ∃ k, v.shared.directory.Names y.1 k y.2 := by
      rcases h.live hn with hsame | ⟨id, slot, a, hnames, hcons⟩ | ⟨id, a, herase⟩
      · exact .inl (hsame ▸ hy)
      · rw [hcons] at hy
        rcases mem_cons.mp hy with rfl | hy
        · exact .inr ⟨slot, hnames⟩
        · exact .inl hy
      · rw [herase] at hy
        exact .inl (mem_of_mem_erase hy)
    obtain ⟨k, hk⟩ := hold.elim (hl.live y) id
    exact ⟨k, hk.mono hgrows⟩

/-- **The ledger along a run.** -/
theorem ledger_run {config} {hash : R.Id → ℕ} {tr} (h : Reaches config hash tr v) : Ledger v := by
  refine h.invariant ?_ (fun v p hv hp => ?_) fun _ v t i p s p' q hrun hv hp hact =>
    hv.act (named_run hrun) (gated_run hrun) hp hact
  · have hnone (k : ℕ) (x : Allocation R)
        (hx : (EntityRuntime.new config hash).shared.directory.slots[k]? = some x) : False := by
      simp [EntityRuntime.new, new, LocalDirectory.withHasher] at hx
    refine ⟨fun k x hx => (hnone k x hx).elim, fun _ k x hx => (hnone k x hx).elim,
      fun k x hx => (hnone k x hx).elim, fun y hy => ?_⟩
    cases hy
  · have hsame (w : Weights) (k : SlotRef) :
        weight w ⟨v.shared, v.threads ++ [p]⟩ k = weight w v k := by
      simp [weight, Pc.isCall_weigh w k hp]
    refine ⟨fun k x hx => ?_, fun hopen k x hx hin => ?_, fun k x hx => ?_, hv.live⟩
    · rw [hsame]; exact hv.charge k x hx
    · rw [hsame]; exact hv.settled hopen k x hx hin
    · rw [hsame]; exact hv.leases k x hx

end Entity
