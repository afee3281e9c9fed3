import Mathlib.Algebra.Order.Ring.Nat
import Mathlib.Data.List.Basic

/-!
# The lifecycle algebra of one entity slot

`entity/lifecycle` is a pure reducer: `EntitySlot::decide` consumes one fact and answers with the
successor state, an ordered batch of effects and the evidence of what it did.  Nothing is shared
and nothing blocks, so the embedding is a plain function; the concurrent directory around it is
`Bombay.Entity.Runtime`.

The embedding follows the source function by function.

* `SlotEffectBatch` is the free monoid on effects (`Empty`, `One` and `Many` are its allocation
  classes), so a batch is a `List` and `+` is `++`.
* Cloning an endpoint is the identity; a clone that panics poisons the slot and is not part of the
  reducer.
* `ActivatingSlot` is opaque in the source: the only way to one is `decide`.  It carries the bound
  on its waiters as a field, so a waiter list beyond the limit cannot be built, here either.
* A reservation count is a natural number.  The source's `checked_add` cannot overflow before the
  address space is full of live dispatches.

What one decision can do is said once, in `Bombay.Entity.Decides`.
-/

set_option autoImplicit false

namespace Entity

/-! ## Identities and counts -/

/-- `core::num::NonZeroU64`. -/
abbrev NonZeroU64 := { n : ℕ // 0 < n ∧ n < 2 ^ 64 }

/-- `core::num::NonZeroUsize`, without its upper end: nothing counted here reaches it. -/
abbrev NonZeroUsize := { n : ℕ // 0 < n }

/-- `None` for zero. -/
def NonZeroUsize.new (value : ℕ) : Option NonZeroUsize :=
  if h : 0 < value then some ⟨value, h⟩ else none

/-- Globally unique identity of one activation attempt and incarnation. -/
structure ActivationId where
  /-- The directory sequence value. -/
  get : NonZeroU64
  deriving DecidableEq

/-- Identity of one dispatch operation within a slot. -/
structure DispatchId where
  /-- The directory sequence value. -/
  get : NonZeroU64
  deriving DecidableEq

/-- Whether a fact names the activation it meets. -/
inductive Generation (α : Type*)
  | current (value : α)
  | stale (value : α)

/-- A value tagged `Current` if the identities agree. -/
def ActivationId.classify {α : Type*} (self observed : ActivationId) (value : α) : Generation α :=
  match compare self.get.1 observed.get.1 with
  | .eq => .current value
  | .lt | .gt => .stale value

theorem ActivationId.classify_eq {α : Type*} (self observed : ActivationId) (value : α) :
    self.classify observed value = if self = observed then .current value else .stale value := by
  rw [ActivationId.classify]
  split_ifs with h
  · subst h; simp
  · have hne : self.get.1 ≠ observed.get.1 := by
      intro h'
      apply h
      obtain ⟨⟨a, ha⟩⟩ := self
      obtain ⟨⟨b, hb⟩⟩ := observed
      cases h'
      rfl
    rcases Nat.lt_or_gt_of_ne hne with hlt | hgt
    · rw [Nat.compare_eq_lt.mpr hlt]
    · rw [Nat.compare_eq_gt.mpr hgt]

/-! ## Refusals, drain failures, retirement modes -/

/-- Typed reason why a command was not admitted. -/
inductive Refusal
  | busy
  | draining
  | unavailable
  | shutdown
  deriving DecidableEq

/-- Stage of graceful draining. -/
inductive DrainStage
  | reservations
  | fenceEnqueue
  | fenceAcknowledgement
  | retirement
  deriving DecidableEq

/-- Classification attached to forced retirement. -/
structure DrainFailure where
  /-- Stage at which graceful draining stopped. -/
  stage : DrainStage
  /-- Reservations still outstanding at that point. -/
  outstandingReservations : ℕ
  deriving DecidableEq

/-- Retirement mode granted to the slot interpreter. -/
inductive RetirementMode
  | graceful
  | forced (failure : DrainFailure)
  deriving DecidableEq

/-! ## Reservation counts -/

/-- Number of delivery operations that reserved admission but have not resolved. -/
inductive ReservationCount
  | drained
  | pending (count : NonZeroUsize)
  deriving DecidableEq

/-- Result of resolving one delivery. -/
inductive ReservationResolution
  | unexpected
  | pending (count : ReservationCount)
  | drained

/-- The count of `value` reservations. -/
def ReservationCount.fromLen (value : ℕ) : ReservationCount :=
  match NonZeroUsize.new value with
  | some count => .pending count
  | none => .drained

/-- One more reservation. -/
def ReservationCount.reserve : ReservationCount → ReservationCount
  | .drained => .pending ⟨1, Nat.one_pos⟩
  | .pending value => .pending ⟨value.1 + 1, Nat.succ_pos _⟩

/-- One reservation less, if there is one. -/
def ReservationCount.resolve : ReservationCount → ReservationResolution
  | .drained => .unexpected
  | .pending value =>
    match NonZeroUsize.new (value.1 - 1) with
    | some remaining => .pending (.pending remaining)
    | none => .drained

/-- The number itself. -/
def ReservationCount.get : ReservationCount → ℕ
  | .drained => 0
  | .pending value => value.1

@[simp] theorem ReservationCount.get_fromLen (n : ℕ) : (fromLen n).get = n := by
  rw [fromLen, NonZeroUsize.new]
  split_ifs with h
  · rfl
  · simp only [get]; omega

@[simp] theorem ReservationCount.get_reserve (r : ReservationCount) :
    r.reserve.get = r.get + 1 := by
  cases r <;> rfl

/-- Progress of the ordered processing-fence protocol. -/
inductive DrainProgress
  | reservations (count : NonZeroUsize)
  | fenceAcknowledgement
  deriving DecidableEq

/-- The reservations a draining slot still waits for. -/
def DrainProgress.get : DrainProgress → ℕ
  | .reservations count => count.1
  | .fenceAcknowledgement => 0

/-! ## Slot states, facts and effects -/

/-- Command retained while a shared activation is in flight. -/
structure ActivationWaiter (C : Type*) where
  /-- Correlation identity of the waiting dispatch. -/
  dispatchId : DispatchId
  /-- Command retained on behalf of its caller. -/
  command : C
  deriving DecidableEq

/-- State of one directory-owned activation and its bounded waiters. -/
structure ActivatingSlot (C : Type*) where
  activationId : ActivationId
  waiters : List (ActivationWaiter C)
  waiterLimit : NonZeroUsize
  /-- The waiters never exceed the limit fixed at claim. -/
  bounded : waiters.length ≤ waiterLimit.1
  deriving DecidableEq

/-- State of one committed and admitting incarnation. -/
structure ActiveSlot (E L : Type*) where
  activationId : ActivationId
  endpoint : E
  lease : L
  reservations : ReservationCount
  deriving DecidableEq

/-- State of one incarnation whose admission is closed. -/
structure DrainingSlot (E L : Type*) where
  activationId : ActivationId
  endpoint : E
  lease : L
  progress : DrainProgress
  deriving DecidableEq

/-- Pure state of one stable entity routing slot. -/
inductive EntitySlot (C E L : Type*)
  | inactive
  | activating (state : ActivatingSlot C)
  | active (state : ActiveSlot E L)
  | draining (state : DrainingSlot E L)
  | retiring (activationId : ActivationId)
  deriving DecidableEq

/-- External fact submitted to one entity slot. -/
inductive SlotEvent (C E L : Type*)
  | claimActivation (activationId : ActivationId) (dispatchId : DispatchId) (command : C)
      (waiterLimit : NonZeroUsize)
  | dispatch (dispatchId : DispatchId) (command : C)
  | cancelWaiter (activationId : ActivationId) (dispatchId : DispatchId)
  | activationSucceeded (activationId : ActivationId) (endpoint : E) (lease : L)
  | activationFailed (activationId : ActivationId)
  | deliveryResolved (activationId : ActivationId) (failure : Option (DispatchId × C))
  | beginDrain (activationId : ActivationId)
  | fenceAcknowledged (activationId : ActivationId)
  | forceDrain (activationId : ActivationId) (failure : DrainFailure)
  | terminated (activationId : ActivationId)
  deriving DecidableEq

/-- Request emitted by the pure entity-slot state machine. -/
inductive SlotEffect (C E L : Type*)
  | startActivation (activationId : ActivationId)
  | deliver (activationId : ActivationId) (dispatchId : DispatchId) (endpoint : E) (command : C)
  | reject (dispatchId : DispatchId) (command : C) (reason : Refusal)
  | enqueueFence (activationId : ActivationId) (endpoint : E)
  | retire (activationId : ActivationId) (lease : L) (retirement : RetirementMode)
  | remove (activationId : ActivationId)
  deriving DecidableEq

/-- Stable phase of one entity routing slot. -/
inductive LifecyclePhase
  | inactive
  | activating
  | active
  | draining
  | retiring
  deriving DecidableEq

/-- Phase-changing result selected by a slot transition. -/
inductive LifecycleEdge
  | claimActivation
  | activationSucceeded
  | activationFailed
  | beginDrain
  | fenceAcknowledged
  | forceDrain
  | terminated
  deriving DecidableEq

/-- Disposition returned by one executable entity slot transition. -/
inductive TransitionEvidence
  | traversed (edge : LifecycleEdge)
  | selfLoop
  | ignored
  deriving DecidableEq

/-- Complete result of one deterministic entity-slot transition. -/
structure SlotDecision (C E L : Type*) where
  /-- Successor slot state. -/
  state : EntitySlot C E L
  /-- Ordered effects, including exact returned commands and leases. -/
  effects : List (SlotEffect C E L)
  /-- Classification selected by the executable transition branch. -/
  evidence : TransitionEvidence
  deriving DecidableEq

variable {C E L : Type*}

/-! ## The constructors of decisions -/

/-- The same decision, classified anew. -/
def SlotDecision.withEvidence (self : SlotDecision C E L) (evidence : TransitionEvidence) :
    SlotDecision C E L :=
  { self with evidence := evidence }

/-- A decision that ignores its fact. -/
def decision (state : EntitySlot C E L) (effects : List (SlotEffect C E L)) :
    SlotDecision C E L :=
  ⟨state, effects, .ignored⟩

/-- A decision that stays in its phase. -/
def handled (state : EntitySlot C E L) (effects : List (SlotEffect C E L)) :
    SlotDecision C E L :=
  ⟨state, effects, .selfLoop⟩

/-- A decision that takes an edge. -/
def traversed (state : EntitySlot C E L) (effects : List (SlotEffect C E L))
    (edge : LifecycleEdge) : SlotDecision C E L :=
  ⟨state, effects, .traversed edge⟩

/-- The command goes back to its caller. -/
def reject (state : EntitySlot C E L) (dispatchId : DispatchId) (command : C)
    (reason : Refusal) : SlotDecision C E L :=
  handled state [.reject dispatchId command reason]

/-- A failed delivery gives its command back. -/
def rejectFailedDelivery (state : EntitySlot C E L) (failure : Option (DispatchId × C))
    (reason : Refusal) : SlotDecision C E L :=
  match failure with
  | some (dispatchId, command) => decision state [.reject dispatchId command reason]
  | none => decision state []

/-- The lease of an outdated activation is retired at once. -/
def retireStale (state : EntitySlot C E L) (activationId : ActivationId) (lease : L) :
    SlotDecision C E L :=
  decision state [.retire activationId lease (.forced ⟨.retirement, 0⟩)]

/-- One more effect, at the end. -/
def withEffect (decision : SlotDecision C E L) (effect : SlotEffect C E L) :
    SlotDecision C E L :=
  ⟨decision.state, decision.effects ++ [effect], decision.evidence⟩

/-! ## Inactive -/

/-- Only a claim begins an activation. -/
def decideInactive : SlotEvent C E L → SlotDecision C E L
  | .claimActivation activationId dispatchId command waiterLimit =>
    traversed (.activating ⟨activationId, [⟨dispatchId, command⟩], waiterLimit, waiterLimit.2⟩)
      [.startActivation activationId] .claimActivation
  | .dispatch dispatchId command => reject .inactive dispatchId command .unavailable
  | .activationSucceeded activationId _ lease => retireStale .inactive activationId lease
  -- a late failed delivery still owns its command
  | .deliveryResolved _ failure => rejectFailedDelivery .inactive failure .unavailable
  | _ => decision .inactive []

/-! ## Activating -/

/-- `state.waiters.push`, where there is room. -/
def ActivatingSlot.push (state : ActivatingSlot C) (waiter : ActivationWaiter C)
    (room : state.waiters.length < state.waiterLimit.1) : ActivatingSlot C :=
  { state with
    waiters := state.waiters ++ [waiter]
    bounded := by rw [List.length_append]; exact room }

/-- `state.waiters.retain(|waiter| waiter.dispatch_id != dispatch_id)`. -/
def ActivatingSlot.retain (state : ActivatingSlot C) (dispatchId : DispatchId) :
    ActivatingSlot C :=
  { state with
    waiters := state.waiters.filter fun waiter => waiter.dispatchId ≠ dispatchId
    bounded := Nat.le_trans (List.length_filter_le _ _) state.bounded }

/-- The incarnation is committed, and every waiter is delivered to it. -/
def finishActivation (state : ActivatingSlot C) (activationId : ActivationId) (endpoint : E)
    (lease : L) : SlotDecision C E L :=
  match state.activationId.classify activationId (endpoint, lease) with
  | .current (endpoint, lease) =>
    traversed
      (.active ⟨activationId, endpoint, lease, ReservationCount.fromLen state.waiters.length⟩)
      (state.waiters.map fun waiter =>
        .deliver activationId waiter.dispatchId endpoint waiter.command)
      .activationSucceeded
  | .stale (_, lease) => retireStale (.activating state) activationId lease

/-- Every waiter is rejected. -/
def failActivation (state : ActivatingSlot C) (activationId : ActivationId) :
    SlotDecision C E L :=
  match state.activationId.classify activationId () with
  | .current () =>
    traversed .inactive
      ((state.waiters.map fun waiter => .reject waiter.dispatchId waiter.command .unavailable)
        ++ [.remove activationId])
      .activationFailed
  | .stale () => decision (.activating state) []

/-- Dispatches wait, as far as there is room. -/
def decideActivating (state : ActivatingSlot C) : SlotEvent C E L → SlotDecision C E L
  | .dispatch dispatchId command =>
    if room : state.waiters.length < state.waiterLimit.1 then
      handled (.activating (state.push ⟨dispatchId, command⟩ room)) []
    else
      reject (.activating state) dispatchId command .busy
  | .cancelWaiter activationId dispatchId =>
    match state.activationId.classify activationId dispatchId with
    | .current dispatchId =>
      if (state.retain dispatchId).waiters.length < state.waiters.length then
        handled (.activating (state.retain dispatchId)) []
      else
        decision (.activating (state.retain dispatchId)) []
    | .stale _ => decision (.activating state) []
  | .activationSucceeded activationId endpoint lease =>
    finishActivation state activationId endpoint lease
  | .activationFailed activationId => failActivation state activationId
  | .claimActivation _ dispatchId command _ =>
    reject (.activating state) dispatchId command .busy
  -- a late failed delivery from a previous incarnation still owns its command
  | .deliveryResolved _ failure => rejectFailedDelivery (.activating state) failure .unavailable
  | _ => decision (.activating state) []

/-! ## Active -/

/-- A delivery has ended while the slot admits. -/
def resolveActiveDelivery (state : ActiveSlot E L) (failure : Option (DispatchId × C)) :
    SlotDecision C E L :=
  match state.reservations.resolve with
  | .unexpected => rejectFailedDelivery (.active state) failure .unavailable
  | .pending reservations =>
    (rejectFailedDelivery (.active { state with reservations := reservations }) failure
      .unavailable).withEvidence .selfLoop
  | .drained =>
    (rejectFailedDelivery (.active { state with reservations := .drained }) failure
      .unavailable).withEvidence .selfLoop

/-- Admission closes, and the fence is enqueued once nothing is reserved. -/
def beginDrain (state : ActiveSlot E L) : SlotDecision C E L :=
  match state.reservations with
  | .drained =>
    traversed (.draining ⟨state.activationId, state.endpoint, state.lease, .fenceAcknowledgement⟩)
      [.enqueueFence state.activationId state.endpoint] .beginDrain
  | .pending count =>
    traversed (.draining ⟨state.activationId, state.endpoint, state.lease, .reservations count⟩)
      [] .beginDrain

/-- Dispatches are delivered under a reservation. -/
def decideActive (state : ActiveSlot E L) : SlotEvent C E L → SlotDecision C E L
  | .dispatch dispatchId command =>
    handled (.active { state with reservations := state.reservations.reserve })
      [.deliver state.activationId dispatchId state.endpoint command]
  | .deliveryResolved activationId failure =>
    match state.activationId.classify activationId failure with
    | .current failure => resolveActiveDelivery state failure
    | .stale failure => rejectFailedDelivery (.active state) failure .unavailable
  | .beginDrain activationId =>
    match state.activationId.classify activationId () with
    | .current () => beginDrain state
    | .stale () => decision (.active state) []
  | .activationSucceeded activationId _ lease => retireStale (.active state) activationId lease
  | .claimActivation _ dispatchId command _ => reject (.active state) dispatchId command .busy
  | _ => decision (.active state) []

/-! ## Draining -/

/-- The last delivery lets the fence be enqueued. -/
def resolveDrainingDelivery (state : DrainingSlot E L) (failure : Option (DispatchId × C)) :
    SlotDecision C E L :=
  match state.progress with
  | .fenceAcknowledgement => rejectFailedDelivery (.draining state) failure .unavailable
  | .reservations pending =>
    match NonZeroUsize.new (pending.1 - 1) with
    | some remaining =>
      (rejectFailedDelivery (.draining { state with progress := .reservations remaining }) failure
        .unavailable).withEvidence .selfLoop
    | none =>
      -- reaching zero means the last reservation resolved
      (withEffect
        (rejectFailedDelivery (.draining { state with progress := .fenceAcknowledgement }) failure
          .unavailable)
        (.enqueueFence state.activationId state.endpoint)).withEvidence .selfLoop

/-- The fence ends the draining. -/
def acknowledgeFence (state : DrainingSlot E L) : SlotDecision C E L :=
  match state.progress with
  | .reservations _ => decision (.draining state) []
  | .fenceAcknowledgement =>
    traversed (.retiring state.activationId) [.retire state.activationId state.lease .graceful]
      .fenceAcknowledged

/-- The incarnation retires with its failure. -/
def forceDrain (state : DrainingSlot E L) (failure : DrainFailure) : SlotDecision C E L :=
  traversed (.retiring state.activationId)
    [.retire state.activationId state.lease (.forced failure)] .forceDrain

/-- Nothing is admitted any more. -/
def decideDraining (state : DrainingSlot E L) : SlotEvent C E L → SlotDecision C E L
  | .dispatch dispatchId command
  | .claimActivation _ dispatchId command _ =>
    reject (.draining state) dispatchId command .draining
  | .deliveryResolved activationId failure =>
    match state.activationId.classify activationId failure with
    | .current failure => resolveDrainingDelivery state failure
    | .stale failure => rejectFailedDelivery (.draining state) failure .unavailable
  | .fenceAcknowledged activationId =>
    match state.activationId.classify activationId () with
    | .current () => acknowledgeFence state
    | .stale () => decision (.draining state) []
  | .forceDrain activationId failure =>
    match state.activationId.classify activationId failure with
    | .current failure => forceDrain state failure
    | .stale _ => decision (.draining state) []
  | .activationSucceeded activationId _ lease => retireStale (.draining state) activationId lease
  | _ => decision (.draining state) []

/-! ## Retiring -/

/-- Only the termination is awaited. -/
def decideRetiring (activationId : ActivationId) : SlotEvent C E L → SlotDecision C E L
  | .terminated observed =>
    match activationId.classify observed () with
    | .current () => traversed .inactive [.remove activationId] .terminated
    | .stale () => decision (.retiring activationId) []
  | .dispatch dispatchId command
  | .claimActivation _ dispatchId command _ =>
    reject (.retiring activationId) dispatchId command .draining
  | .activationSucceeded staleId _ lease => retireStale (.retiring activationId) staleId lease
  -- retirement already moved authority, so the command returns as unavailable
  | .deliveryResolved _ failure =>
    rejectFailedDelivery (.retiring activationId) failure .unavailable
  | _ => decision (.retiring activationId) []

/-! ## The whole reducer -/

namespace EntitySlot

/-- The compact lifecycle phase represented by this state. -/
def phase : EntitySlot C E L → LifecyclePhase
  | .inactive => .inactive
  | .activating _ => .activating
  | .active _ => .active
  | .draining _ => .draining
  | .retiring _ => .retiring

/-- The activation represented by this slot, when one exists. -/
def activationId : EntitySlot C E L → Option ActivationId
  | .inactive => none
  | .activating state => some state.activationId
  | .active state => some state.activationId
  | .draining state => some state.activationId
  | .retiring activationId => some activationId

/-- Consume one fact and return the next state plus an effect batch. -/
def decide : EntitySlot C E L → SlotEvent C E L → SlotDecision C E L
  | .inactive, event => decideInactive event
  | .activating state, event => decideActivating state event
  | .active state, event => decideActive state event
  | .draining state, event => decideDraining state event
  | .retiring activationId, event => decideRetiring activationId event

/-- The closure `decide_all` folds with. -/
def accumulate (accumulated : SlotDecision C E L) (event : SlotEvent C E L) :
    SlotDecision C E L :=
  let next := accumulated.state.decide event
  ⟨next.state, accumulated.effects ++ next.effects, next.evidence⟩

/-- Fold an ordered stream of facts through this slot. -/
def decideAll (self : EntitySlot C E L) (events : List (SlotEvent C E L)) : SlotDecision C E L :=
  events.foldl accumulate (decision self [])

/-- Close a slot of a family whose admission is closed and whose tasks are idle: the successor, the
original pending effects and the exact available lease. -/
def closeFamily : EntitySlot C E L →
    EntitySlot C E L × List (SlotEffect C E L) ×
      Option (ActivationId × E × L × Except DrainFailure Unit)
  | .inactive => (.inactive, [], none)
  | .activating state =>
    (.inactive,
      (state.waiters.map fun waiter => .reject waiter.dispatchId waiter.command .shutdown)
        ++ [.remove state.activationId],
      none)
  | .active state =>
    let admission := match state.reservations with
      | .drained => .ok ()
      | .pending count => .error ⟨.reservations, count.1⟩
    (.retiring state.activationId, [],
      some (state.activationId, state.endpoint, state.lease, admission))
  | .draining state =>
    let failure : DrainFailure := match state.progress with
      | .reservations count => ⟨.reservations, count.1⟩
      | .fenceAcknowledgement => ⟨.fenceAcknowledgement, 0⟩
    (.retiring state.activationId, [],
      some (state.activationId, state.endpoint, state.lease, .error failure))
  | .retiring activationId => (.retiring activationId, [], none)

end EntitySlot

end Entity
