import Bombay.Entity.Decides
import Bombay.Entity.Admission

/-!
# Names

A slot is allocated for one entity and claimed for one activation, and neither ever changes.  This
file shows that everything in the runtime that speaks of a slot speaks of it under these names: the
state of the slot, the effects it has queued, the tasks spawned for them, the facts those tasks
submit, and the rows of the directory and of a shutdown.  That is what makes a fact of one
incarnation harmless to another.

* `Allocation.Tagged`: the state and the queue of a slot are under its own activation, and a queued
  `Remove` says that the slot is inactive.
* `Pc.Named`: the locals of a thread are under the names of their slots.
* `LocalDirectory.Grows`: slots keep their names, and an inactive slot is never claimed again.

`named_run` is all of it, along every run.
-/

set_option autoImplicit false

namespace Entity

open Machine List Option EntitySlot EntityTaskState LocalDirectory

variable {C E L : Type}

/-! ## What a slot emits -/

/-- A fact that may be submitted to a slot claimed for `a`. -/
def SlotEvent.Names (a : ActivationId) : SlotEvent C E L → Prop
  | .claimActivation .. => False
  | .dispatch .. | .cancelWaiter .. | .beginDrain _ => True
  | .activationSucceeded b .. | .activationFailed b | .deliveryResolved b _
  | .fenceAcknowledged b | .forceDrain b _ | .terminated b => b = a

/-- A fact that owns nothing: submitted to an absent entry it has no effect. -/
def SlotEvent.Silent : SlotEvent C E L → Prop
  | .cancelWaiter .. | .beginDrain _ => True
  | _ => False

/-- An effect of a slot claimed for `a`. -/
@[simp] def SlotEffect.Names (a : ActivationId) : SlotEffect C E L → Prop
  | .reject .. => True
  | .startActivation b | .deliver b .. | .enqueueFence b _ | .retire b .. | .remove b => b = a

/-- A state of a slot claimed for `a`. -/
def EntitySlot.Names (a : ActivationId) (s : EntitySlot C E L) : Prop :=
  ∀ b, s.activationId = some b → b = a

variable {e : SlotEvent C E L}

theorem SlotEvent.Silent.names (h : e.Silent) (a : ActivationId) : e.Names a := by
  cases e with
  | cancelWaiter | beginDrain => trivial
  | _ => exact h.elim

theorem SlotEvent.Silent.absent (h : e.Silent) :
    ((inactive : EntitySlot C E L).decide e).effects = [] := by
  cases e with
  | cancelWaiter | beginDrain => rfl
  | _ => exact h.elim

theorem EntitySlot.names_inactive (a : ActivationId) : (inactive : EntitySlot C E L).Names a := by
  intro b hb
  cases hb

theorem names_returned (a : ActivationId) (failure : Option (DispatchId × C)) :
    ∀ f ∈ (returned failure : List (SlotEffect C E L)), f.Names a := by
  cases failure with
  | none => simp [returned]
  | some => simp [returned]

theorem names_rejected (a : ActivationId) (reason : Refusal) (waiters : List (ActivationWaiter C)) :
    ∀ f ∈ waiters.map fun w => (SlotEffect.reject w.dispatchId w.command reason :
      SlotEffect C E L), f.Names a := by
  intro f hf
  obtain ⟨w, _, rfl⟩ := mem_map.mp hf
  trivial

variable {a : ActivationId} {s u : EntitySlot C E L} {effs : List (SlotEffect C E L)}

theorem Decides.names (h : Decides s e u effs) (he : e.Names a)
    (hs : s.Names a) : u.Names a ∧ ∀ f ∈ effs, f.Names a := by
  cases h with
  | claim | refuseClaim => exact he.elim
  | refuse => exact ⟨hs, by simp⟩
  | wait | cancel | drainReserved | ignore => exact ⟨hs, by simp⟩
  | activate =>
    refine ⟨hs, fun f hf => ?_⟩
    obtain ⟨w, _, rfl⟩ := mem_map.mp hf
    exact he
  | stale | acknowledge | force =>
    exact ⟨hs, by simpa [SlotEvent.Names] using he⟩
  | fail =>
    refine ⟨names_inactive a, fun f hf => ?_⟩
    rcases mem_append.mp hf with hf | hf
    · exact names_rejected a _ _ f hf
    · obtain rfl := mem_singleton.mp hf
      exact he
  | reserve st | drainFenced st =>
    exact ⟨hs, by simpa using hs st.activationId rfl⟩
  | late | resolve | resolveDraining => exact ⟨hs, names_returned a _⟩
  | release =>
    refine ⟨hs, fun f hf => ?_⟩
    rcases mem_append.mp hf with hf | hf
    · exact names_returned a _ f hf
    · obtain rfl := mem_singleton.mp hf
      exact he
  | terminate => exact ⟨names_inactive a, by simpa [SlotEvent.Names] using he⟩

theorem Decides.inactive (h : Decides .inactive e u effs) (he : e.Names a) : u = .inactive := by
  cases h with
  | claim => exact he.elim
  | _ => rfl

variable {b : ActivationId}

theorem Decides.removes (h : Decides s e u effs) (hb : .remove b ∈ effs) : u = .inactive := by
  cases h with
  | fail | terminate => rfl
  | late _ failure | resolve _ failure | resolveDraining _ failure | release _ failure =>
    cases failure <;> simp [returned] at hb
  | _ => simp at hb

theorem closeFamily_names (hs : s.Names a) :
    s.closeFamily.1.Names a ∧ (∀ f ∈ s.closeFamily.2.1, f.Names a) ∧
      ∀ r, s.closeFamily.2.2 = some r → r.1 = a := by
  cases s with
  | inactive | retiring =>
    exact ⟨hs, by simp [closeFamily], by simp [closeFamily]⟩
  | activating st =>
    refine ⟨names_inactive a, fun f hf => ?_, by simp [closeFamily]⟩
    rcases mem_append.mp hf with hf | hf
    · exact names_rejected a _ _ f hf
    · obtain rfl := mem_singleton.mp hf
      exact hs st.activationId rfl
  | active st | draining st =>
    refine ⟨hs, by simp [closeFamily], ?_⟩
    rintro r ⟨⟩
    exact hs st.activationId rfl

theorem closeFamily_removes (hb : .remove b ∈ s.closeFamily.2.1) : s.closeFamily.1 = .inactive := by
  cases s with
  | inactive | activating => rfl
  | _ => simp [closeFamily] at hb

variable {R : LocalEntityRuntime}

/-! ## One slot -/

/-- The state and the queue of a slot are under its own activation, and a queued `Remove` says that
it is inactive. -/
structure Allocation.Tagged (x : Allocation R) : Prop where
  state : x.execution.state.Names x.activationId
  pending : ∀ f ∈ x.execution.pending, f.Names x.activationId
  removed : ∀ b, .remove b ∈ x.execution.pending → x.execution.state = .inactive

variable {x : Allocation R}

theorem Allocation.Tagged.frame (h : x.Tagged) {e}
    (hs : e.state = x.execution.state) (hp : ∀ f ∈ e.pending, f ∈ x.execution.pending) :
    ({ x with execution := e } : Allocation R).Tagged where
  state := by rw [hs]; exact h.state
  pending f hf := h.pending f (hp f hf)
  removed b hb := by rw [hs]; exact h.removed b (hp _ hb)

variable {event : R.Event}

theorem Allocation.Tagged.submit (h : x.Tagged) (he : event.Names x.activationId) {e}
    (hs : e.state = (x.execution.state.decide event).state)
    (hp : e.pending = x.execution.pending ++ (x.execution.state.decide event).effects) :
    ({ x with execution := e } : Allocation R).Tagged := by
  have hd := decide_decides x.execution.state event
  obtain ⟨hstate, heffects⟩ := hd.names he h.state
  refine ⟨by rw [hs]; exact hstate, fun f hf => ?_, fun b hb => ?_⟩
  · rw [hp] at hf
    exact (mem_append.mp hf).elim (h.pending f) (heffects f)
  · rw [hp] at hb
    rw [hs]
    rcases mem_append.mp hb with hb | hb
    · rw [h.removed b hb] at hd ⊢
      exact hd.inactive he
    · exact hd.removes hb

theorem Allocation.Tagged.closeFamily (h : x.Tagged) :
    ({ x with execution := x.execution.closeFamily.1 } : Allocation R).Tagged := by
  obtain ⟨hstate, heffects, _⟩ := closeFamily_names h.state
  refine ⟨hstate, fun f hf => (mem_append.mp hf).elim (h.pending f) (heffects f), fun b hb => ?_⟩
  rcases mem_append.mp hb with hb | hb
  · have hinact : x.execution.state = .inactive := h.removed b hb
    show x.execution.state.closeFamily.1 = .inactive
    rw [hinact]
    rfl
  · exact closeFamily_removes hb

variable {name : Publication}
    {r : Except EntityRetirementError (InstalledSlotEvidence × Publication)}

/-- What `begin_retirement` does to a slot: nothing, or it begins to drain the incarnation. -/
theorem SlotExecution.beginRetirement_cases {x e : SlotExecution R}
    (h : x.beginRetirement name = (e, r)) :
    e = x ∨ x.state ≠ .inactive ∧ ∃ a, e.state = (x.state.decide (.beginDrain a)).state ∧
      e.pending = x.pending ++ (x.state.decide (.beginDrain a)).effects := by
  rw [SlotExecution.beginRetirement] at h
  split at h
  iterate 3
    · exact .inl (Prod.mk.inj h).1.symm
  · next a ha hinact _ =>
    obtain ⟨rfl, _⟩ := Prod.mk.inj h
    refine .inr ⟨fun hs => ?_, a, rfl, rfl⟩
    rw [hs] at ha
    cases ha

/-! ## The directory -/

namespace LocalDirectory

/-- The slot `k` was allocated for the entity `id`. -/
def Owns (d : LocalDirectory R) (id : R.Id) (k : SlotRef) : Prop :=
  ∃ x, d.slots[k]? = some x ∧ x.entityId = id

/-- The slot `k` was allocated for the entity `id` and claimed for the activation `a`. -/
def Names (d : LocalDirectory R) (id : R.Id) (k : SlotRef) (a : ActivationId) : Prop :=
  ∃ x, d.slots[k]? = some x ∧ x.entityId = id ∧ x.activationId = a

def Inactive (d : LocalDirectory R) (k : SlotRef) : Prop :=
  ∃ x, d.slots[k]? = some x ∧ x.execution.state = .inactive

def Rows (d : LocalDirectory R) (rows : List R.Row) : Prop := ∀ row ∈ rows, d.Owns row.1 row.2

/-- Slots are never lost, keep their names, and never leave the inactive state. -/
def Grows (d d' : LocalDirectory R) : Prop :=
  ∀ (k : ℕ) (x : Allocation R), d.slots[k]? = some x → ∃ x', d'.slots[k]? = some x' ∧
    x'.entityId = x.entityId ∧ x'.activationId = x.activationId ∧
    (x.execution.state = .inactive → x'.execution.state = .inactive)

variable {d d' : LocalDirectory R} {id : R.Id} {k : SlotRef} {a : ActivationId}

theorem Grows.of_eq (h : d'.slots = d.slots) : d.Grows d' := by
  intro k x hx
  exact ⟨x, by rw [h]; exact hx, rfl, rfl, fun hs => hs⟩

theorem Names.owns (h : d.Names id k a) : d.Owns id k := by
  obtain ⟨x, hx, hid, _⟩ := h
  exact ⟨x, hx, hid⟩

theorem Owns.names (h : d.Owns id k) : ∃ a, d.Names id k a := by
  obtain ⟨x, hx, hid⟩ := h
  exact ⟨x.activationId, x, hx, hid, rfl⟩

theorem Owns.mono (h : d.Owns id k) (hg : d.Grows d') : d'.Owns id k := by
  obtain ⟨x, hx, hid⟩ := h
  obtain ⟨x', hx', hid', _⟩ := hg k x hx
  exact ⟨x', hx', hid'.trans hid⟩

theorem Names.mono (h : d.Names id k a) (hg : d.Grows d') : d'.Names id k a := by
  obtain ⟨x, hx, hid, ha⟩ := h
  obtain ⟨x', hx', hid', ha', _⟩ := hg k x hx
  exact ⟨x', hx', hid'.trans hid, ha'.trans ha⟩

theorem Inactive.mono (h : d.Inactive k) (hg : d.Grows d') : d'.Inactive k := by
  obtain ⟨x, hx, hs⟩ := h
  obtain ⟨x', hx', _, _, hs'⟩ := hg k x hx
  exact ⟨x', hx', hs' hs⟩

variable {rows : List R.Row}

theorem Rows.mono (h : d.Rows rows) (hg : d.Grows d') : d'.Rows rows :=
  fun row hrow => (h row hrow).mono hg

theorem rows_nil : d.Rows [] := by
  intro row hrow
  cases hrow

theorem Rows.append {rows'} (h : d.Rows rows) (h' : d.Rows rows') : d.Rows (rows ++ rows') :=
  fun row hrow => (mem_append.mp hrow).elim (h row) (h' row)

theorem Rows.tail {row : R.Row} (h : d.Rows (row :: rows)) : d.Rows rows :=
  fun row' hrow => h row' (mem_cons_of_mem _ hrow)

/-- The allocation a claim makes. -/
structure Claimed (d : LocalDirectory R) (id : R.Id) (x : Allocation R) : Prop where
  entityId : x.entityId = id
  activationId : x.activationId = ⟨d.nextActivation⟩
  state : ∃ st, x.execution.state = .activating st ∧ st.activationId = x.activationId
  pending : x.execution.pending = [.startActivation x.activationId]

theorem claim_spec {dispatchId} {command} {installed}
    (h : d.claim id dispatchId command = some (d', k, installed)) :
    k = d.slots.length ∧ (∃ x, d'.slots = d.slots ++ [x] ∧ d.Claimed id x) ∧
      d'.shards = Function.update d.shards (d.shardIndex id)
        ((id, k) :: d.shards (d.shardIndex id)) ∧
      d'.shardIndex = d.shardIndex ∧ d'.nextActivation.1 = d.nextActivation.1 + 1 := by
  rw [claim, allocate] at h
  split_ifs at h with hlt
  simp only [some.injEq, Prod.mk.injEq] at h
  obtain ⟨rfl, rfl, -⟩ := h
  exact ⟨rfl, ⟨_, rfl, rfl, rfl, ⟨_, rfl, rfl⟩, rfl⟩, rfl, rfl, rfl⟩

theorem mem_of_get [DecidableEq R.Id] (h : d.get id = some k) :
    (id, k) ∈ d.shards (d.shardIndex id) := by
  rw [get] at h
  obtain ⟨l₁, l₂, heq, _⟩ := lookup_eq_some_iff.mp h
  rw [heq]
  simp

end LocalDirectory

/-! ## The threads -/

def Task.id : Task R → R.Id
  | .activation id .. | .delivery id .. | .fence id .. | .retire id .. | .closedFence id .. => id

def Task.slot? : Task R → Option SlotRef
  | .activation _ slot _ | .delivery _ slot .. | .fence _ slot .. | .retire _ slot .. => slot
  | .closedFence _ slot .. => some slot

def Task.activationId : Task R → ActivationId
  | .activation _ _ a | .delivery _ _ a .. | .fence _ _ a _ | .retire _ _ a .. => a
  | .closedFence _ _ a .. => a

section Named

variable (d : LocalDirectory R)

def Task.Named (task : Task R) : Prop :=
  ∃ k, task.slot? = some k ∧ d.Names task.id k task.activationId

def Ending.Named : Ending R → Prop
  | .returned => True
  | .died task _ => task.Named d

def Return.Named : Return R → Prop
  | .closeSlot owned id slot retirement rest =>
    d.Rows owned.rows ∧ d.Rows rest ∧ d.Owns id slot ∧
      ∀ r, retirement = some r → d.Names id slot r.1
  | .sweep owned rest => d.Rows owned.rows ∧ d.Rows rest
  | .diagnose id slot a _ => d.Names id slot a
  | _ => True

def Purpose.Named : Purpose R → Prop
  | .task ret => ret.Named d
  | _ => True

/-- A decision on an absent entry has no effects. -/
def InstalledEffectSource.Named (id : R.Id) : InstalledEffectSource R → Prop
  | .mapped slot => d.Owns id slot
  | .transient effects => effects = []

def Cont.Named : Cont R → Prop
  | .interpret id source ret => source.Named d id ∧ ret.Named d
  | .closeSlots owned rest => d.Rows owned.rows ∧ d.Rows rest

/-- The locals of a thread are under the names of their slots. -/
def Pc.Named : Pc R → Prop
  | .currentActivation id slot | .beginRetirement id slot => d.Owns id slot
  | .submitOrInactive _ event purpose => event.Silent ∧ purpose.Named d
  | .submit id slot event purpose =>
    (∃ a, d.Names id slot a ∧ event.Names a) ∧ purpose.Named d
  | .acquire id slot ret | .retainRetired id slot _ ret => d.Owns id slot ∧ ret.Named d
  | .next id source ret => source.Named d id ∧ ret.Named d
  | .interpretEffect id source effect ret =>
    (∃ slot a, source = .mapped slot ∧ d.Names id slot a ∧ effect.Names a ∧
      ∀ b, effect = .remove b → d.Inactive slot) ∧ ret.Named d
  | .takeSlot id slot _ ret => d.Owns id slot ∧ d.Inactive slot ∧ ret.Named d
  | .begin work cont | .spawn work cont => work.Named d ∧ cont.Named d
  | .track _ cont => cont.Named d
  | .task work => work.Named d
  | .diagnose id slot a _ => d.Names id slot a
  | .retirementFailed r => ∃ slot, r.slot = some slot ∧ d.Names r.id slot r.activationId
  | .finish ending | .publishIdle _ ending | .exit ending | .ended ending => ending.Named d
  | .waitIdle owned _ | .idle owned _ _ | .takeTasks owned _ | .join owned _ _
  | .recordDrain owned | .rows owned | .complete owned | .dropClaim owned => d.Rows owned.rows
  | .takeFamily owned _ rest | .closeSlots owned rest | .hasPending owned rest
  | .sweep owned rest => d.Rows owned.rows ∧ d.Rows rest
  | .panicked place => place.Named
  | _ => True

end Named

variable {d d' : LocalDirectory R}

theorem Task.Named.mono {task : Task R} (h : task.Named d) (hg : d.Grows d') : task.Named d' := by
  obtain ⟨k, hk, hn⟩ := h
  exact ⟨k, hk, hn.mono hg⟩

theorem Ending.Named.mono {ending : Ending R} (h : ending.Named d) (hg : d.Grows d') :
    ending.Named d' := by
  cases ending with
  | returned => trivial
  | died => exact Task.Named.mono h hg

variable {ret : Return R}

theorem Return.Named.mono (h : ret.Named d) (hg : d.Grows d') : ret.Named d' := by
  cases ret with
  | closeSlot =>
    obtain ⟨hrows, hrest, howns, hnames⟩ := h
    exact ⟨hrows.mono hg, hrest.mono hg, howns.mono hg, fun r hr => (hnames r hr).mono hg⟩
  | sweep => exact ⟨h.1.mono hg, h.2.mono hg⟩
  | diagnose => exact LocalDirectory.Names.mono h hg
  | _ => trivial

variable {purpose : Purpose R}

theorem Purpose.Named.mono (h : purpose.Named d) (hg : d.Grows d') : purpose.Named d' := by
  cases purpose with
  | task => exact Return.Named.mono h hg
  | _ => trivial

variable {id : R.Id}

theorem InstalledEffectSource.Named.mono {source : InstalledEffectSource R}
    (h : source.Named d id) (hg : d.Grows d') : source.Named d' id := by
  cases source with
  | mapped => exact LocalDirectory.Owns.mono h hg
  | transient => exact h

variable {cont : Cont R}

theorem Cont.Named.mono (h : cont.Named d) (hg : d.Grows d') : cont.Named d' := by
  cases cont with
  | interpret | closeSlots => exact ⟨h.1.mono hg, h.2.mono hg⟩

theorem Pc.Named.mono {p : Pc R} (h : p.Named d) (hg : d.Grows d') : p.Named d' := by
  induction p with
  | currentActivation | beginRetirement => exact LocalDirectory.Owns.mono h hg
  | submitOrInactive => exact ⟨h.1, h.2.mono hg⟩
  | submit =>
    obtain ⟨⟨a, hn, he⟩, hp⟩ := h
    exact ⟨⟨a, hn.mono hg, he⟩, hp.mono hg⟩
  | acquire | retainRetired | next | begin | spawn
  | takeFamily | closeSlots | hasPending | sweep =>
    exact ⟨h.1.mono hg, h.2.mono hg⟩
  | interpretEffect =>
    obtain ⟨⟨slot, a, hs, hn, he, hr⟩, hret⟩ := h
    exact ⟨⟨slot, a, hs, hn.mono hg, he, fun b hb => (hr b hb).mono hg⟩, hret.mono hg⟩
  | takeSlot => exact ⟨h.1.mono hg, h.2.1.mono hg, h.2.2.mono hg⟩
  | track => exact Cont.Named.mono h hg
  | task => exact Task.Named.mono h hg
  | diagnose => exact LocalDirectory.Names.mono h hg
  | retirementFailed =>
    obtain ⟨slot, hs, hn⟩ := h
    exact ⟨slot, hs, hn.mono hg⟩
  | finish | publishIdle | exit | ended => exact Ending.Named.mono h hg
  | waitIdle | idle | takeTasks | join | recordDrain | rows | complete | dropClaim =>
    exact LocalDirectory.Rows.mono h hg
  | panicked _ ih => exact ih h
  | _ => trivial

/-! Where a continuation leads, its names lead too. -/

theorem After.named_pc (after : After R) : after.pc.Named d := by
  cases after <;> trivial

theorem Return.named_pc (h : ret.Named d) : ret.pc.Named d := by
  cases ret with
  | closeSlot _ id slot retirement =>
    obtain ⟨hrows, hrest, _, hnames⟩ := h
    cases retirement with
    | none => exact ⟨hrows, hrest⟩
    | some r =>
      obtain ⟨a, endpoint, lease, fence⟩ := r
      have hname : d.Names id slot a := hnames _ rfl
      refine ⟨?_, hrows, hrest⟩
      cases fence with
      | ok | error => exact ⟨slot, rfl, hname⟩
  | sweep | diagnose => exact h
  | _ => trivial

theorem Cont.named_pc (h : cont.Named d) : cont.pc.Named d := by
  cases cont with
  | interpret | closeSlots => exact h

theorem Purpose.named_ret (h : purpose.Named d) (id : R.Id)
    (installed : InstalledSlotEvidence) : (purpose.ret id installed).Named d := by
  cases purpose with
  | task => exact h
  | _ => trivial

theorem named_submitOwned {slot}
    {ret : SlotRef → Return R} (h : ∃ k, slot = some k ∧ d.Names id k a) (he : event.Names a)
    (hret : ∀ k, (ret k).Named d) : (submitOwned id slot event ret).Named d := by
  obtain ⟨k, rfl, hn⟩ := h
  exact ⟨⟨a, hn, he⟩, hret k⟩

/-! ## What a section writes -/

/-- What a section does to the slots of the directory. -/
inductive Writes (d d' : LocalDirectory R) : Prop
  | same (slots : d'.slots = d.slots) (next : d'.nextActivation = d.nextActivation)
  /-- It writes one slot, keeps its tags, and does not claim it again. -/
  | slot (k : ℕ) (x : Allocation R) (e : SlotExecution R) (found : d.slots[k]? = some x)
      (slots : d'.slots = d.slots.set k { x with execution := e })
      (next : d'.nextActivation = d.nextActivation)
      (tagged : x.Tagged → ({ x with execution := e } : Allocation R).Tagged)
      (inactive : x.execution.state = .inactive → e.state = .inactive)
  /-- It allocates a slot. -/
  | claim (id : R.Id) (x : Allocation R) (slots : d'.slots = d.slots ++ [x])
      (claimed : d.Claimed id x) (next : d'.nextActivation.1 = d.nextActivation.1 + 1)

theorem Writes.grows (h : Writes d d') : d.Grows d' := by
  cases h with
  | same slots => exact .of_eq slots
  | slot k x _ found slots _ _ inactive =>
    intro j y hy
    rw [slots]
    by_cases hj : j = k
    · subst hj
      obtain rfl : x = y := some.inj (found.symm.trans hy)
      have hlt := lt_of_get hy
      exact ⟨_, getElem?_set_self hlt, rfl, rfl, inactive⟩
    · exact ⟨y, by rw [getElem?_set_ne (Ne.symm hj)]; exact hy, rfl, rfl, id⟩
  | claim _ _ slots =>
    intro j y hy
    have hlt := lt_of_get hy
    exact ⟨y, by rw [slots, getElem?_append_left hlt]; exact hy, rfl, rfl, fun hs => hs⟩

def LocalDirectory.Tagged (d : LocalDirectory R) : Prop :=
  ∀ (k : ℕ) (x : Allocation R), d.slots[k]? = some x → x.Tagged

theorem LocalDirectory.Claimed.tagged (h : d.Claimed id x) : x.Tagged := by
  obtain ⟨st, hst, ha⟩ := h.state
  refine ⟨fun b hb => ?_, fun f hf => ?_, fun b hb => ?_⟩
  · rw [hst] at hb
    exact (some.inj hb).symm.trans ha
  · rw [h.pending] at hf
    obtain rfl := mem_singleton.mp hf
    rfl
  · rw [h.pending] at hb
    simp at hb

theorem Writes.tagged (h : Writes d d') (ht : d.Tagged) : d'.Tagged := by
  intro j y hy
  cases h with
  | same slots => exact ht j y (slots ▸ hy)
  | slot k x _ found slots _ tagged =>
    rw [slots] at hy
    by_cases hj : j = k
    · subst hj
      have hlt := lt_of_get found
      rw [getElem?_set_self hlt] at hy
      obtain rfl := some.inj hy
      exact tagged (ht j x found)
    · rw [getElem?_set_ne (Ne.symm hj)] at hy
      exact ht j y hy
  | claim _ _ slots claimed =>
    rw [slots] at hy
    rcases mem_append.mp (mem_of_getElem? hy) with hmem | hmem
    · obtain ⟨k, hk⟩ := getElem?_of_mem hmem
      exact ht k y hk
    · obtain rfl := mem_singleton.mp hmem
      exact claimed.tagged

variable [DecidableEq R.Id] {s s' : Shared R} {self fresh : ℕ} {p p' : Pc R} {q : Option (Pc R)}
  {i : Input R}

omit [DecidableEq R.Id] in
theorem writes_retirement {slot : SlotRef} {e : SlotExecution R} 
    (hx : s.directory.slots[slot]? = some x) (h : x.execution.beginRetirement name = (e, r)) :
    Writes s.directory (s.put slot x e).directory := by
  rcases SlotExecution.beginRetirement_cases h with rfl | ⟨hne, a, hs, hp⟩
  · exact .slot slot x x.execution hx rfl rfl id id
  · have he : (SlotEvent.beginDrain a : R.Event).Names x.activationId := trivial
    exact .slot slot x e hx rfl rfl (fun ht => ht.submit he hs hp) fun hin => absurd hin hne

theorem Acts.writes (h : Acts s self fresh p i s' p' q) (hn : p.Named s.directory) :
    Writes s.directory s'.directory := by
  cases h with
  | routeClaimed id _ _ _ _ _ _ claimed =>
    obtain ⟨_, ⟨x, hslots, hx⟩, _, _, hnext⟩ := claim_spec claimed
    exact .claim id x hslots hx hnext
  | retirementBegun _ _ _ _ _ _ hx begun => exact writes_retirement hx begun
  | retirementRefused _ _ _ _ _ hx refused => exact writes_retirement hx refused
  | submitted _ slot event _ x hx =>
    obtain ⟨⟨a, ⟨y, hy, _, rfl⟩, he⟩, _⟩ := hn
    obtain rfl : x = y := some.inj (hx.symm.trans hy)
    refine .slot slot x _ hx rfl rfl (fun ht => ht.submit he rfl rfl) fun hin => ?_
    have hd := decide_decides x.execution.state event
    rw [hin] at hd
    show (x.execution.state.decide event).state = .inactive
    rw [hin]
    exact hd.inactive he
  | acquired _ slot _ x hx =>
    obtain ⟨hs, hp⟩ := x.execution.acquire_fst
    exact .slot slot x _ hx rfl rfl (·.frame hs fun _ hf => hp ▸ hf) fun hin => hs.trans hin
  | popped _ slot _ x _ _ hx | emptied _ slot _ x hx =>
    obtain ⟨hs, hp⟩ := x.execution.next_fst
    exact .slot slot x _ hx rfl rfl (·.frame hs fun _ hf => mem_of_mem_tail (hp ▸ hf))
      fun hin => hs.trans hin
  | retirementCompleted slot _ x _ hx | unobserved slot _ x hx =>
    exact .slot slot x _ hx rfl rfl (·.frame rfl fun _ hf => hf) fun hs => hs
  | familyClosed _ _ slot _ x hx =>
    refine .slot slot x _ hx rfl rfl (·.closeFamily) fun hin => ?_
    show x.execution.state.closeFamily.1 = .inactive
    rw [hin]
    rfl
  | _ => exact .same rfl rfl

/-! ## Along a run -/

/-- An entry is in the shard of its key, and its slot was allocated for the key. -/
def LocalDirectory.Entries (d : LocalDirectory R) : Prop :=
  ∀ (n : ℕ) (row : R.Row), row ∈ d.shards n → d.shardIndex row.1 = n ∧ d.Owns row.1 row.2

/-- The rows a shutdown has drained are rows of the directory. -/
def Shared.Drained (s : Shared R) : Prop := ∀ rows, s.tasks.rows = some rows → s.directory.Rows rows

/-- Where a section leads, the locals are named too, as far as the slots existed before. -/
theorem Acts.named_before (h : Acts s self fresh p i s' p' q) (hn : p.Named s.directory)
    (ht : s.directory.Tagged) (he : s.directory.Entries) (hd : s.Drained) :
    p'.Named s.directory ∨ ∃ id x after, p' = .acquire id s.directory.slots.length
      (.release after) ∧ s'.directory.slots = s.directory.slots ++ [x] ∧ x.entityId = id := by
  have hentry {id : R.Id} {slot : SlotRef} (hit : s.directory.get id = some slot) :
      s.directory.Owns id slot := (he _ _ (mem_of_get hit)).2
  cases h with
  | routeClaimed id _ _ _ _ _ _ claimed =>
    obtain ⟨rfl, ⟨x, hslots, hx⟩, _⟩ := claim_spec claimed
    exact .inr ⟨id, x, _, rfl, hslots, hx.entityId⟩
  | dropEntered | activationFound => exact .inl ⟨trivial, trivial⟩
  | released after => exact .inl after.named_pc
  | routeHit _ _ _ _ hit =>
    obtain ⟨a, ha⟩ := (hentry hit).names
    exact .inl ⟨⟨a, ha, trivial⟩, trivial⟩
  | currentFound _ _ hit | retirementFound _ _ hit => exact .inl (hentry hit)
  | retirementBegun => exact .inl ⟨hn, trivial⟩
  | located _ _ _ _ hit =>
    obtain ⟨a, ha⟩ := (hentry hit).names
    exact .inl ⟨⟨a, ha, hn.1.names a⟩, hn.2⟩
  | absent => exact .inl ⟨hn.1.absent, Purpose.named_ret hn.2 _ _⟩
  | submitted =>
    obtain ⟨⟨a, ha, _⟩, hpurpose⟩ := hn
    exact .inl ⟨ha.owns, Purpose.named_ret hpurpose _ _⟩
  | acquired | takeNext | retained | begun | closedFenced | unretired | aborted | finishedLast
  | finished | idlePublished | exited | waiting | waited | woken | idleDropped | tookTasks
  | joined | joinFailed | joinSkipped | joinedFirst | joinDropped | drainedBefore | panic =>
    exact .inl hn
  | busy | emptied | transientDone => exact .inl (Return.named_pc hn.2)
  | popped _ slot _ x effect _ hx pending =>
    obtain ⟨⟨y, hy, hid⟩, hret⟩ := hn
    obtain rfl : x = y := some.inj (hx.symm.trans hy)
    have hmem : effect ∈ x.execution.pending := by rw [pending]; exact mem_cons_self ..
    refine .inl ⟨⟨slot, x.activationId, rfl, ⟨x, hx, hid, rfl⟩, (ht slot x hx).pending _ hmem,
      fun b hb => ⟨x, hx, (ht slot x hx).removed b (hb ▸ hmem)⟩⟩, hret⟩
  | transientNext => cases hn.1
  | skipped _ _ a | rejected =>
    obtain ⟨⟨slot, a, rfl, ha, _⟩, hret⟩ := hn
    exact .inl ⟨ha.owns, hret⟩
  | scheduled _ _ effect _ _ _ htask =>
    obtain ⟨⟨slot, a, rfl, ha, heff, _⟩, hret⟩ := hn
    refine .inl ⟨?_, ha.owns, hret⟩
    cases effect with
    | startActivation | deliver | enqueueFence | retire =>
      obtain rfl := some.inj htask
      obtain rfl := heff
      exact ⟨slot, rfl, ha⟩
    | _ => cases htask
  | removing _ _ a =>
    obtain ⟨⟨slot', b, hslot, hb, _, hinact⟩, hret⟩ := hn
    cases hslot
    exact .inl ⟨hb.owns, hinact a rfl, hret⟩
  | removeAbsent =>
    obtain ⟨⟨slot, b, hslot, _⟩, _⟩ := hn
    cases hslot
  | taken | takeOver => exact .inl ⟨hn.1, hn.2.2⟩
  | spawned => exact .inl hn.2
  | tracked => exact .inl (Cont.named_pc hn)
  | activated _ _ a | undelivered _ _ a =>
    obtain ⟨k, hk, ha⟩ := hn
    cases hk
    exact .inl ⟨⟨a, ha, rfl⟩, trivial⟩
  | unactivated _ _ a =>
    obtain ⟨k, hk, ha⟩ := hn
    cases hk
    exact .inl ⟨⟨a, ha, rfl⟩, ha⟩
  | delivered | retired | recorded => exact .inl (named_submitOwned hn rfl fun _ => trivial)
  | fenced _ _ _ _ result =>
    refine .inl (named_submitOwned hn ?_ fun _ => trivial)
    cases result <;> rfl
  | undeliverable =>
    obtain ⟨k, hk, _⟩ := hn
    cases hk
  | diagnoseAborted _ slot => exact .inl ⟨slot, rfl, hn⟩
  | claimed => exact .inl rows_nil
  | joinedAgain => exact .inl ⟨hn, hn⟩
  | drainStarted => exact .inl ⟨hn, rows_nil⟩
  | drainedShard _ shard =>
    exact .inl ⟨hn.1, hn.2.append fun row hrow => (he shard row hrow).2⟩
  | drained | allClosed | allSwept | allEmpty => exact .inl hn.1
  | copied _ rows _ hrows => exact .inl ⟨hd rows hrows, hd rows hrows⟩
  | familyClosed _ id slot _ x hx =>
    obtain ⟨hrows, hrest⟩ := hn
    have howns : s.directory.Owns id slot := hrest (id, slot) (mem_cons_self ..)
    refine .inl ⟨howns, hrows, hrest.tail, howns, fun r hr => ?_⟩
    obtain ⟨y, hy, hid⟩ := howns
    obtain rfl : x = y := some.inj (hx.symm.trans hy)
    exact ⟨x, hx, hid, ((closeFamily_names (ht slot x hx).state).2.2 r hr).symm⟩
  | pendingNone => exact .inl ⟨hn.1, hn.2.tail⟩
  | pendingSome => exact .inl ⟨hn.1, hn.1⟩
  | swept _ id slot =>
    exact .inl ⟨hn.2 (id, slot) (mem_cons_self ..), hn.1, hn.2.tail⟩
  | _ => exact .inl trivial

theorem Acts.named (h : Acts s self fresh p i s' p' q) (hn : p.Named s.directory)
    (ht : s.directory.Tagged) (he : s.directory.Entries) (hd : s.Drained) :
    p'.Named s'.directory := by
  rcases h.named_before hn ht he hd with hbefore | ⟨id, x, after, rfl, hslots, hid⟩
  · exact hbefore.mono (h.writes hn).grows
  · refine ⟨⟨x, ?_, hid⟩, trivial⟩
    rw [hslots]
    simp

theorem Acts.named_started (h : Acts s self fresh p i s' p' q) (hn : p.Named s.directory)
    {r : Pc R} (hr : q = some r) : r.Named s'.directory := by
  obtain ⟨task, cont, rfl, rfl⟩ := h.started hr
  exact Task.Named.mono hn.1 (h.writes hn).grows

theorem Acts.shards (h : Acts s self fresh p i s' p' q) :
    s'.directory.shardIndex = s.directory.shardIndex ∧
      ∀ n row, row ∈ s'.directory.shards n → row ∈ s.directory.shards n ∨
        (∃ pending d, p = .route row.1 pending d) ∧ s.directory.shardIndex row.1 = n ∧
          s'.directory.Owns row.1 row.2 := by
  cases h with
  | routeClaimed id pending d directory _ _ _ claimed =>
    obtain ⟨rfl, ⟨x, hslots, hx⟩, hshards, hindex, _⟩ := claim_spec claimed
    refine ⟨hindex, fun n row hrow => ?_⟩
    rw [show ({ s with directory := directory } : Shared R).directory.shards = directory.shards
      from rfl, hshards] at hrow
    by_cases hn : n = s.directory.shardIndex id
    · subst hn
      rw [Function.update_self] at hrow
      rcases mem_cons.mp hrow with rfl | hrow
      · refine .inr ⟨⟨pending, d, rfl⟩, rfl, x, ?_, hx.entityId⟩
        show directory.slots[s.directory.slots.length]? = some x
        rw [hslots]
        simp
      · exact .inl hrow
    · rw [Function.update_of_ne hn] at hrow
      exact .inl hrow
  | taken _ _ shard =>
    refine ⟨rfl, fun n row hrow => .inl ?_⟩
    by_cases hn : n = shard
    · subst hn
      exact mem_of_mem_eraseP (by simpa [takeSlot] using hrow)
    · simpa [takeSlot, Function.update_of_ne hn] using hrow
  | drainedShard _ shard =>
    refine ⟨rfl, fun n row hrow => .inl ?_⟩
    by_cases hn : n = shard
    · subst hn
      simp [drainShard] at hrow
    · simpa [drainShard, Function.update_of_ne hn] using hrow
  | _ => exact ⟨rfl, fun _ _ hrow => .inl hrow⟩

/-- The rows of the drain are those a shutdown has taken from the directory. -/
theorem Acts.rows (h : Acts s self fresh p i s' p' q) {rows} (hr : s'.tasks.rows = some rows) :
    s.tasks.rows = some rows ∨ ∃ owned shard, p = .takeFamily owned shard rows := by
  cases h with
  | retained _ _ _ _ _ _ htasks => exact .inl (rows_retainRetired htasks ▸ hr)
  | begun _ _ _ _ htasks => exact .inl (rows_begin htasks ▸ hr)
  | tracked _ _ _ _ htasks => exact .inl (rows_track htasks ▸ hr)
  | recorded _ _ _ htasks => exact .inl (rows_retirementFailed htasks ▸ hr)
  | finishedLast _ _ _ _ htasks | finished _ _ _ htasks =>
    exact .inl (rows_finish htasks ▸ hr)
  | claimed _ _ htasks => exact .inl (rows_claim htasks ▸ hr)
  | tookTasks _ _ _ _ _ htasks => exact .inl (rows_takeTasks htasks ▸ hr)
  | drained owned shard _ _ _ htasks =>
    obtain rfl := some.inj ((rows_recordDrain htasks).symm.trans hr)
    exact .inr ⟨owned, shard, rfl⟩
  | completed _ _ _ _ _ _ _ _ htasks =>
    cases (rows_complete htasks).symm.trans hr
  | groupClosed _ _ _ _ _ _ htasks =>
    cases (rows_close htasks).symm.trans hr
  | claimDropped owned => exact .inl (rows_dropClaim owned.tasks ▸ hr)
  | _ => exact .inl hr

/-- Slots are claimed in the order of their activations. -/
structure LocalDirectory.Numbered (d : LocalDirectory R) : Prop where
  slots : ∀ (k : ℕ) (x : Allocation R), d.slots[k]? = some x → x.activationId.get.1 = k + 1
  next : d.nextActivation.1 = d.slots.length + 1

omit [DecidableEq R.Id] in
theorem Writes.numbered (h : Writes d d') (hn : d.Numbered) : d'.Numbered := by
  cases h with
  | same slots next => exact ⟨slots ▸ hn.slots, by rw [next, slots]; exact hn.next⟩
  | slot k x _ found slots next =>
    refine ⟨fun j y hy => ?_, by rw [next, slots, length_set]; exact hn.next⟩
    rw [slots] at hy
    by_cases hj : j = k
    · subst hj
      have hlt := lt_of_get found
      rw [getElem?_set_self hlt] at hy
      obtain rfl := some.inj hy
      exact hn.slots j x found
    · rw [getElem?_set_ne (Ne.symm hj)] at hy
      exact hn.slots j y hy
  | claim _ _ slots claimed next =>
    refine ⟨fun j y hy => ?_, by rw [next, slots, length_append, hn.next]; rfl⟩
    rw [slots] at hy
    by_cases hj : j < d.slots.length
    · rw [getElem?_append_left hj] at hy
      exact hn.slots j y hy
    · rw [getElem?_append_right (Nat.le_of_not_lt hj), getElem?_singleton] at hy
      split_ifs at hy with hzero
      obtain rfl := some.inj hy
      rw [claimed.activationId, hn.next]
      omega

/-- Everything that speaks of a slot speaks of it under its own names. -/
structure WellNamed (w : Pool (Shared R) (Pc R)) : Prop where
  numbered : w.shared.directory.Numbered
  tagged : w.shared.directory.Tagged
  entries : w.shared.directory.Entries
  drained : w.shared.Drained
  threads : Each (fun _ p => p.Named w.shared.directory) w.threads

variable {w : Pool (Shared R) (Pc R)}

theorem WellNamed.act {t : ℕ} (hw : WellNamed w)
    (hp : w.threads[t]? = some p) (h : Acts w.shared t w.threads.length p i s' p' q) :
    WellNamed ⟨s', w.threads.set t p' ++ q.toList⟩ := by
  have hn : p.Named w.shared.directory := hw.threads t p hp
  have hwrites := h.writes hn
  have hg := hwrites.grows
  refine ⟨hwrites.numbered hw.numbered, hwrites.tagged hw.tagged, fun n row hrow => ?_,
    fun rows hrows => ?_, ?_⟩
  · obtain ⟨hindex, hnew⟩ := h.shards
    show s'.directory.shardIndex row.1 = n ∧ s'.directory.Owns row.1 row.2
    rw [hindex]
    rcases hnew n row hrow with hold | hnew
    · exact ⟨(hw.entries n row hold).1, (hw.entries n row hold).2.mono hg⟩
    · exact hnew.2
  · rcases h.rows hrows with hold | ⟨owned, shard, rfl⟩
    · exact (hw.drained rows hold).mono hg
    · exact hn.2.mono hg
  · exact each_move hw.threads hp (fun _ => h.named hn hw.tagged hw.entries hw.drained)
      (fun _ _ _ hr => hr.mono hg) fun _ hr => h.named_started hn hr

omit [DecidableEq R.Id] in
theorem Pc.isCall_named (h : p.isCall) : p.Named d := by
  cases p with
  | admitCommand | passivate | retireEntity | shutdown => trivial
  | _ => cases h

/-- **Names along a run.** -/
theorem named_run {config} {hash : R.Id → ℕ} {tr} (h : Reaches config hash tr w) : WellNamed w := by
  refine h.invariant ?_ (fun w p hw hp => ?_) fun _ w t i p s p' q _ hw hp hact => hw.act hp hact
  · refine ⟨⟨fun k x hx => ?_, rfl⟩, fun k x hx => ?_, fun n row hrow => ?_, fun rows hrows => ?_,
      each_nil _⟩
    iterate 2
      · simp [EntityRuntime.new, Shared.new, withHasher] at hx
    · simp [EntityRuntime.new, Shared.new, withHasher] at hrow
    · cases hrows
  · exact ⟨hw.numbered, hw.tagged, hw.entries, hw.drained,
      each_append (q := some p) hw.threads fun r hr => by cases hr; exact Pc.isCall_named hp⟩

end Entity
