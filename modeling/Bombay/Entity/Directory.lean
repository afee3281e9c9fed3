import Mathlib.Logic.Function.Basic
import Bombay.Entity.Lifecycle

/-!
# The directory of local entities

`LocalDirectory` is a sharded map from entity ids to slots, and a slot is a lifecycle machine behind
a mutex, with a queue of effects that have been decided and not yet interpreted.  This file is the
directory as data: every definition is one critical section of the source, or the part of one that
touches the directory, as a function on the record.  Which thread runs which section when is the
business of `Bombay.Entity.Runtime`.

* A slot is allocated once and never moves, so `Arc<Slot>` is a position in the list of allocations
  and `Arc::ptr_eq` is equality of positions.  An allocation remembers the id and the activation it
  was made for; the source keeps them in the map and in the slot's state.
* A shard is an association list, found by masking a hash.  The hash is arbitrary.
* The activation sequence is advanced under the lock of a shard, and nothing else touches it, so
  advancing it and inserting the new slot are one section.
* A poisoned slot is not modelled: it takes a user's `Clone` that panics in the middle of the pure
  transition.
-/

set_option autoImplicit false

namespace Entity

/-- The types that a runtime port and the commands of an entity family agree on:
`LocalEntityRuntime` with its associated types. -/
structure LocalEntityRuntime where
  /-- `EntityId<I>`. -/
  Id : Type
  /-- `C`. -/
  Command : Type
  Origin : Type
  Endpoint : Type
  Lease : Type
  ActivationError : Type
  TaskFailure : Type
  RetirementFailure : Type

/-- A runtime whose payloads are numbers. -/
abbrev numbers : LocalEntityRuntime := ⟨ℕ, ℕ, ℕ, ℕ, ℕ, ℕ, ℕ, ℕ⟩

/-- The name of a publication and of the observations of it, `observe::pair`. -/
abbrev Publication := ℕ

/-- `Arc<Slot>`. -/
abbrev SlotRef := ℕ

variable {R : LocalEntityRuntime}

/-- A command with the publication of its answer. -/
structure PendingCommand (R : LocalEntityRuntime) where
  origin : R.Origin
  command : R.Command
  publisher : Publication

namespace LocalEntityRuntime

/-- Slots of this runtime. -/
abbrev Slot (R : LocalEntityRuntime) := EntitySlot (PendingCommand R) R.Endpoint R.Lease

/-- Facts of this runtime. -/
abbrev Event (R : LocalEntityRuntime) := SlotEvent (PendingCommand R) R.Endpoint R.Lease

/-- Effects of this runtime. -/
abbrev Effect (R : LocalEntityRuntime) := SlotEffect (PendingCommand R) R.Endpoint R.Lease

/-- The key and the slot of one directory entry. -/
abbrev Row (R : LocalEntityRuntime) := R.Id × SlotRef

end LocalEntityRuntime

/-! ## One slot -/

/-- Whether somebody is interpreting the effects of a slot. -/
inductive SlotDispatchPhase
  | idle
  | dispatching
  deriving DecidableEq

/-- What `submit` tells its caller. -/
structure InstalledSlotEvidence where
  evidence : TransitionEvidence
  phase : LifecyclePhase
  activationId : Option ActivationId

/-- Why a retirement cannot be observed. -/
inductive EntityRetirementError
  | notActive
  | shuttingDown
  deriving DecidableEq

/-- What the mutex of a slot protects. -/
structure SlotExecution (R : LocalEntityRuntime) where
  state : R.Slot
  pending : List R.Effect
  dispatch : SlotDispatchPhase
  retirement : Option Publication

namespace SlotExecution

/-- An inactive slot. -/
def new : SlotExecution R where
  state := .inactive
  pending := []
  dispatch := .idle
  retirement := none

/-- What is known of a decided state. -/
def installed (decision : SlotDecision (PendingCommand R) R.Endpoint R.Lease) :
    InstalledSlotEvidence :=
  ⟨decision.evidence, decision.state.phase, decision.state.activationId⟩

/-- The fact is decided and its effects wait in order. -/
def submit (x : SlotExecution R) (event : R.Event) : SlotExecution R × InstalledSlotEvidence :=
  let decision := x.state.decide event
  ({ x with state := decision.state, pending := x.pending ++ decision.effects }, installed decision)

/-- `Slot::begin_retirement`.  A publication is made only if there is none yet. -/
def beginRetirement (x : SlotExecution R) (name : Publication) :
    SlotExecution R × Except EntityRetirementError (InstalledSlotEvidence × Publication) :=
  match x.state.phase, x.state.activationId with
  | .inactive, _ | .activating, _ | _, none => (x, .error .notActive)
  | _, some activation =>
    let observation := x.retirement.getD name
    let (x', installed) := submit { x with retirement := some observation } (.beginDrain activation)
    (x', .ok (installed, observation))

/-- The section of `Slot::complete_retirement`. -/
def completeRetirement (x : SlotExecution R) : SlotExecution R × Option Publication :=
  ({ x with retirement := none }, x.retirement)

/-- The right to interpret, if nobody has it. -/
def acquire (x : SlotExecution R) : SlotExecution R × Bool :=
  match x.dispatch with
  | .idle => ({ x with dispatch := .dispatching }, true)
  | .dispatching => (x, false)

/-- The next effect, or the right goes back. -/
def next (x : SlotExecution R) : SlotExecution R × Option R.Effect :=
  match x.pending with
  | effect :: pending => ({ x with pending := pending }, some effect)
  | [] => ({ x with dispatch := .idle }, none)

/-- The slot as the family closes. -/
def closeFamily (x : SlotExecution R) : SlotExecution R ×
    Option (ActivationId × R.Endpoint × R.Lease × Except DrainFailure Unit) :=
  let (state, effects, retirement) := x.state.closeFamily
  ({ x with state := state, pending := x.pending ++ effects }, retirement)

/-- Whether the slot has retired, or else its activation. -/
def retirementDisposition (x : SlotExecution R) : Except (Option ActivationId) Unit :=
  match x.state with
  | .inactive => .ok ()
  | state => .error state.activationId

end SlotExecution

/-! ## The directory -/

/-- `DirectoryConfig`.  The shard count is a power of two, so that a mask selects a shard. -/
structure DirectoryConfig where
  shards : NonZeroUsize
  activationWaiters : NonZeroUsize
  /-- What `new` checks. -/
  valid : shards.1.isPowerOfTwo ∧ shards.1 - 1 < 2 ^ 64

/-- A slot of the directory. -/
structure Allocation (R : LocalEntityRuntime) where
  /-- The entity it was made for. -/
  entityId : R.Id
  /-- The activation it was claimed with. -/
  activationId : ActivationId
  execution : SlotExecution R

/-- The sharded directory. -/
structure LocalDirectory (R : LocalEntityRuntime) where
  shards : ℕ → List R.Row
  /-- `shards.len()`. -/
  shardCount : ℕ
  mask : ℕ
  /-- `hash_builder.hash_one`. -/
  hash : R.Id → ℕ
  waiterLimit : NonZeroUsize
  nextActivation : NonZeroU64
  nextDispatch : NonZeroU64
  /-- All slots ever allocated. -/
  slots : List (Allocation R)

/-- `allocate`: the next identity and the advanced sequence. -/
def allocate (sequence : NonZeroU64) : Option (NonZeroU64 × NonZeroU64) :=
  if h : sequence.1 + 1 < 2 ^ 64 then some (sequence, ⟨sequence.1 + 1, Nat.succ_pos _, h⟩)
  else none

namespace LocalDirectory

/-- The empty directory. -/
def withHasher (config : DirectoryConfig) (hash : R.Id → ℕ) : LocalDirectory R where
  shards _ := []
  shardCount := config.shards.1
  mask := config.shards.1 - 1
  hash := hash
  waiterLimit := config.activationWaiters
  nextActivation := ⟨1, by decide⟩
  nextDispatch := ⟨1, by decide⟩
  slots := []

/-- The shard of a key. -/
def shardIndex (self : LocalDirectory R) (id : R.Id) : ℕ :=
  self.hash id &&& self.mask

/-- `entries.get(&entity_id)` under the lock of its shard. -/
def get [DecidableEq R.Id] (self : LocalDirectory R) (id : R.Id) : Option SlotRef :=
  (self.shards (self.shardIndex id)).lookup id

/-- The rest of `LocalDirectory::dispatch` under the shard lock, when there is no entry: a new slot
is claimed and inserted. -/
def claim (self : LocalDirectory R) (id : R.Id) (dispatchId : DispatchId)
    (command : PendingCommand R) :
    Option (LocalDirectory R × SlotRef × InstalledSlotEvidence) :=
  match allocate self.nextActivation with
  | none => none
  | some (sequence, next) =>
    let activationId : ActivationId := ⟨sequence⟩
    let (execution, installed) := SlotExecution.new.submit
      (.claimActivation activationId dispatchId command self.waiterLimit)
    let slot := self.slots.length
    some
      ({ self with
          nextActivation := next
          slots := self.slots ++ [⟨id, activationId, execution⟩]
          shards := Function.update self.shards (self.shardIndex id)
            ((id, slot) :: self.shards (self.shardIndex id)) },
        slot, installed)

/-- One section under the lock of a slot. -/
def locked {α : Type} (self : LocalDirectory R) (slot : SlotRef)
    (body : SlotExecution R → SlotExecution R × α) : Option (LocalDirectory R × α) :=
  match self.slots[slot]? with
  | none => none
  | some allocation =>
    let (execution, result) := body allocation.execution
    some ({ self with
      slots := self.slots.set slot { allocation with execution := execution } }, result)

/-- One turn of the loop in `LocalDirectory::take_slot`. -/
def takeSlot (self : LocalDirectory R) (slot : SlotRef) (shard : ℕ) :
    LocalDirectory R × Option R.Row :=
  ({ self with
      shards := Function.update self.shards shard ((self.shards shard).eraseP (·.2 = slot)) },
    (self.shards shard).find? (·.2 = slot))

/-- One turn of the loop in `LocalDirectory::take_family`. -/
def drainShard (self : LocalDirectory R) (shard : ℕ) : LocalDirectory R × List R.Row :=
  ({ self with shards := Function.update self.shards shard [] }, self.shards shard)

end LocalDirectory

end Entity
