import Bombay.Machine.Pool
import Bombay.Entity.TaskGroup

/-!
# The entity runtime as a pool of threads

`EntityRuntime` routes commands to entities through the directory.  Its public operations run on
their callers' threads; activations, deliveries, fences and retirements run as tasks the directory
owns.  All of them meet at four kinds of mutex: family admission, one lock per shard, one lock per
slot, and the task group.

The embedding is a `Machine.Pool`.  A thread is a `Pc`, a place between two critical sections
together with the local variables that are live there, and `act` is the code: it runs exactly one
critical section, or one call of the port, or one wait, and then moves on.  So the runs of
`EntityRuntime.step` are all interleavings of the source's sections.  The names of places follow
the functions they are in.

* The mutexes of shards and slots are never held across a section.  Those of admission and of the
  task group are: `admit`, `passivate`, `retire_entity` and `DispatchWait::drop` hold admission
  while they interpret effects, and `record_drain` holds the group while it takes the shards.  They
  are `holder` and `tasksHolder`.
* What the port answers, and when, is an `Input`; so are the drop of a future at one of its waits
  and the failure of a task.
* Every `observe::pair` has a name of its own; what has been published under it is in `replies`,
  `retirements` and `epochs`.
* `live` is not a part of the source: it is what the port knows.  It lists the incarnations whose
  lease `activate` has handed out and whose `retire` has not yet resolved.
* A thread whose section panics stays at `panicked`.
-/

set_option autoImplicit false

namespace Entity

open Machine

variable {R : LocalEntityRuntime}

/-! ## Results -/

/-- Why a processing fence was not acknowledged. -/
inductive FenceFailure
  | enqueue
  | acknowledgement
  deriving DecidableEq

/-- The stage the fence failed at. -/
def FenceFailure.drainFailure : FenceFailure → DrainFailure
  | .enqueue => ⟨.fenceEnqueue, 0⟩
  | .acknowledgement => ⟨.fenceAcknowledgement, 0⟩

/-- The answer to a request for passivation. -/
inductive Passivation
  | begun
  | notActive
  | alreadyPassivating
  | superseded
  | shuttingDown
  deriving DecidableEq

/-- The `match` on the installed decision in `EntityRuntime::passivate`. -/
def InstalledSlotEvidence.passivation (installed : InstalledSlotEvidence) : Passivation :=
  match installed.evidence with
  | .traversed .beginDrain => .begun
  | _ =>
    match installed.phase with
    | .active => .superseded
    | .draining | .retiring => .alreadyPassivating
    | .inactive | .activating => .notActive

/-- Why a command was not admitted; the command comes back. -/
inductive AdmissionFailure (R : LocalEntityRuntime)
  | refused (command : R.Command) (reason : Refusal)
  | activationIdsExhausted (command : R.Command)
  | dispatchIdsExhausted (command : R.Command)

/-- One row of a shutdown result. -/
structure FamilyRow (R : LocalEntityRuntime) where
  id : R.Id
  disposition : Except (Option ActivationId) Unit
  receipts : List (ActivationId × RetirementMode × R.RetirementFailure)

/-- The report of a shutdown. -/
inductive EntityShutdown (R : LocalEntityRuntime)
  | settled (represented : ℕ) (entities : List R.Id)
  | alreadyClaimed
  | unsettled (represented : ℕ) (entities : List (FamilyRow R)) (failures : List R.TaskFailure)

/-- The classification at the end of `EntityRuntime::shutdown`. -/
def EntityShutdown.classify (represented : ℕ) (entities : List (FamilyRow R))
    (failures : List R.TaskFailure) : EntityShutdown R :=
  if failures.isEmpty && entities.all fun row => row.disposition.isOk && row.receipts.isEmpty then
    .settled represented (entities.map (·.id))
  else
    .unsettled represented entities failures

/-- What a call gave its caller. -/
inductive Outcome (R : LocalEntityRuntime)
  | admitted (result : Except (AdmissionFailure R) Unit)
  | passivated (passivation : Passivation)
  | retired (result : Except EntityRetirementError RetirementMode)
  | shutdown (result : EntityShutdown R)
  /-- The caller dropped the future. -/
  | cancelled

/-! ## Places -/

/-- The futures handed to `spawn_owned`, each at its next call of the port. -/
inductive Task (R : LocalEntityRuntime)
  | activation (id : R.Id) (slot : Option SlotRef) (activationId : ActivationId)
  | delivery (id : R.Id) (slot : Option SlotRef) (activationId : ActivationId)
      (dispatchId : DispatchId) (endpoint : R.Endpoint) (pending : PendingCommand R)
  | fence (id : R.Id) (slot : Option SlotRef) (activationId : ActivationId) (endpoint : R.Endpoint)
  | retire (id : R.Id) (slot : Option SlotRef) (activationId : ActivationId) (lease : R.Lease)
      (mode : RetirementMode)
  /-- The fence of a closed family, before its retirement. -/
  | closedFence (id : R.Id) (slot : SlotRef) (activationId : ActivationId) (endpoint : R.Endpoint)
      (lease : R.Lease)

/-- How a task ended: it returned, or it was cancelled or panicked in a call of the port. -/
inductive Ending (R : LocalEntityRuntime)
  | returned
  | died (task : Task R) (failure : R.TaskFailure)

/-- The failure a join returns. -/
def Ending.failure? : Ending R → Option R.TaskFailure
  | .returned => none
  | .died _ failure => some failure

/-- What a call goes on with once it has released family admission. -/
inductive After (R : LocalEntityRuntime)
  | stop (outcome : Outcome R)
  /-- `DispatchWait`. -/
  | wait (id : R.Id) (activationId : Option ActivationId) (dispatchId : DispatchId)
      (observation : Publication)
  | observe (observation : Publication)

/-- The locals of `EntityRuntime::shutdown`: the join handles of its claim, and its rows. -/
structure Claim (R : LocalEntityRuntime) where
  tasks : List (EntityTaskRecord R)
  rows : List R.Row

/-- Where the interpretation of a slot's effects returns to. -/
inductive Return (R : LocalEntityRuntime)
  /-- The end of a call that holds family admission. -/
  | release (after : After R)
  /-- The end of a task. -/
  | finish
  /-- `port.activation_failed`. -/
  | diagnose (id : R.Id) (slot : SlotRef) (activationId : ActivationId) (error : R.ActivationError)
  | completeRetirement (slot : SlotRef) (mode : RetirementMode)
  /-- The loop that closes the slots of the family, with what `close_family` returned. -/
  | closeSlot (claim : Claim R) (id : R.Id) (slot : SlotRef)
      (retirement : Option (ActivationId × R.Endpoint × R.Lease × Except DrainFailure Unit))
      (rest : List R.Row)
  /-- The loop that interprets what is left in the closed slots. -/
  | sweep (claim : Claim R) (rest : List R.Row)

/-- Whether the interpretation is `interpret_closed_slot`. -/
def Return.closed : Return R → Bool
  | .closeSlot .. | .sweep .. => true
  | _ => false

/-- What the caller of a submission makes of the installed decision. -/
inductive Purpose (R : LocalEntityRuntime)
  | dispatch (dispatchId : DispatchId) (observation : Publication)
  | dropWait
  | passivate
  | task (ret : Return R)

/-- Where the interpretation after a submission returns to. -/
def Purpose.ret (id : R.Id) (installed : InstalledSlotEvidence) : Purpose R → Return R
  | .dispatch dispatchId observation =>
    .release (.wait id installed.activationId dispatchId observation)
  | .dropWait => .release (.stop .cancelled)
  | .passivate => .release (.stop (.passivated installed.passivation))
  | .task ret => ret

/-- Where the interpreter takes its next effect from. -/
inductive InstalledEffectSource (R : LocalEntityRuntime)
  | mapped (slot : SlotRef)
  | transient (effects : List R.Effect)

/-- The slot whose effects are interpreted. -/
def InstalledEffectSource.slot? : InstalledEffectSource R → Option SlotRef
  | .mapped slot => some slot
  | .transient _ => none

/-- Where `spawn_owned` returns to. -/
inductive Cont (R : LocalEntityRuntime)
  | interpret (id : R.Id) (source : InstalledEffectSource R) (ret : Return R)
  | closeSlots (claim : Claim R) (rest : List R.Row)

/-- Where a thread of the runtime is. -/
inductive Pc (R : LocalEntityRuntime)
  -- `EntityRuntime::admit` and `DispatchWait`
  | admitCommand (origin : R.Origin) (id : R.Id) (command : R.Command)
  | dispatch (id : R.Id) (pending : PendingCommand R)
  | route (id : R.Id) (pending : PendingCommand R) (dispatchId : DispatchId)
  | wait (id : R.Id) (activationId : Option ActivationId) (dispatchId : DispatchId)
      (observation : Publication)
  | dropWait (id : R.Id) (activationId : ActivationId) (dispatchId : DispatchId)
  -- `EntityRuntime::passivate`
  | passivate (id : R.Id)
  | currentSlot (id : R.Id)
  | currentActivation (id : R.Id) (slot : SlotRef)
  -- `EntityRuntime::retire_entity`
  | retireEntity (id : R.Id)
  | retirementSlot (id : R.Id)
  | beginRetirement (id : R.Id) (slot : SlotRef)
  | observe (observation : Publication)
  | release (after : After R)
  -- submitting to a slot and interpreting its effects
  | submitOrInactive (id : R.Id) (event : R.Event) (purpose : Purpose R)
  | submit (id : R.Id) (slot : SlotRef) (event : R.Event) (purpose : Purpose R)
  | acquire (id : R.Id) (slot : SlotRef) (ret : Return R)
  | next (id : R.Id) (source : InstalledEffectSource R) (ret : Return R)
  | interpretEffect (id : R.Id) (source : InstalledEffectSource R) (effect : R.Effect)
      (ret : Return R)
  | takeSlot (id : R.Id) (slot : SlotRef) (shard : ℕ) (ret : Return R)
  | retainRetired (id : R.Id) (slot : SlotRef) (row : R.Row) (ret : Return R)
  -- `spawn_owned`
  | begin (task : Task R) (cont : Cont R)
  | spawn (task : Task R) (cont : Cont R)
  | track (handle : ℕ) (cont : Cont R)
  -- the tasks
  | task (task : Task R)
  | retirementFailed (retirement : Retirement R)
  | diagnose (id : R.Id) (slot : SlotRef) (activationId : ActivationId) (error : R.ActivationError)
  | completeRetirement (slot : SlotRef) (mode : RetirementMode)
  | publishRetirement (publication : Publication) (mode : RetirementMode)
  | finish (ending : Ending R)
  | publishIdle (epoch : Publication) (ending : Ending R)
  | exit (ending : Ending R)
  -- `EntityRuntime::shutdown`; `again` is false before the directory is drained
  | shutdown
  | claim
  | waitIdle (claim : Claim R) (again : Bool)
  | idle (claim : Claim R) (again : Bool) (epoch : Publication)
  | takeTasks (claim : Claim R) (again : Bool)
  | join (claim : Claim R) (again : Bool) (index : ℕ)
  | recordDrain (claim : Claim R)
  | takeFamily (claim : Claim R) (shard : ℕ) (rows : List R.Row)
  | rows (claim : Claim R)
  | closeSlots (claim : Claim R) (rest : List R.Row)
  | hasPending (claim : Claim R) (rest : List R.Row)
  | sweep (claim : Claim R) (rest : List R.Row)
  | complete (claim : Claim R)
  | closeGroup (represented : ℕ) (rows : List R.Row) (retirements : List (Retirement R))
      (failures : List R.TaskFailure)
  | report (represented : ℕ) (rows : List R.Row) (retirements : List (Retirement R))
      (failures : List R.TaskFailure) (entities : List (FamilyRow R))
  | dropClaim (claim : Claim R)
  -- the ends
  | returned (outcome : Outcome R)
  | ended (ending : Ending R)
  | panicked (place : Pc R)

/-- The continuation as a place. -/
def After.pc : After R → Pc R
  | .stop outcome => .returned outcome
  | .wait id activationId dispatchId observation => .wait id activationId dispatchId observation
  | .observe observation => .observe observation

/-- The closed-family task that retires what `close_family` returned. -/
def closedTask (id : R.Id) (slot : SlotRef) (activationId : ActivationId) (endpoint : R.Endpoint)
    (lease : R.Lease) : Except DrainFailure Unit → Task R
  | .ok () => .closedFence id slot activationId endpoint lease
  | .error failure => .retire id (some slot) activationId lease (.forced failure)

/-- The return as a place. -/
def Return.pc : Return R → Pc R
  | .release after => .release after
  | .finish => .finish .returned
  | .diagnose id slot activationId error => .diagnose id slot activationId error
  | .completeRetirement slot mode => .completeRetirement slot mode
  | .closeSlot claim id slot (some (activationId, endpoint, lease, fence)) rest =>
    .begin (closedTask id slot activationId endpoint lease fence) (.closeSlots claim rest)
  | .closeSlot claim _ _ none rest => .closeSlots claim rest
  | .sweep claim rest => .sweep claim rest

/-- The continuation of a spawn as a place. -/
def Cont.pc : Cont R → Pc R
  | .interpret id source ret => .next id source ret
  | .closeSlots claim rest => .closeSlots claim rest

/-! ## The shared state -/

/-- Whether the family admits commands. -/
inductive EntityAdmission
  | opened
  | closed
  deriving DecidableEq

/-- `Runtime`, with the holders of its long-held locks, what has been published, and what the port
knows. -/
structure Shared (R : LocalEntityRuntime) where
  directory : LocalDirectory R
  admission : EntityAdmission
  holder : Option ℕ
  tasks : EntityTaskState R
  tasksHolder : Option ℕ
  /-- The next name of a publication. -/
  fresh : Publication
  replies : List (Publication × Except (AdmissionFailure R) Unit)
  retirements : List (Publication × RetirementMode)
  epochs : List Publication
  /-- The tasks whose threads are over, as a join sees them. -/
  joinable : List (ℕ × Option R.TaskFailure)
  /-- The incarnations whose lease is out. -/
  live : List (R.Id × ActivationId)

/-- The runtime as it is built. -/
def Shared.new (config : DirectoryConfig) (hash : R.Id → ℕ) : Shared R where
  directory := .withHasher config hash
  admission := .opened
  holder := none
  tasks := .new
  tasksHolder := none
  fresh := 0
  replies := []
  retirements := []
  epochs := []
  joinable := []
  live := []

/-- What the surroundings contribute to a section. -/
inductive Input (R : LocalEntityRuntime)
  | advance
  /-- `port.activate` resolves. -/
  | activated (result : Except R.ActivationError (R.Endpoint × R.Lease))
  /-- `port.deliver` resolves. -/
  | delivered (result : Except R.Command Unit)
  /-- `port.fence` resolves. -/
  | fenced (result : Except FenceFailure Unit)
  /-- `port.retire` resolves. -/
  | retired (result : Except R.RetirementFailure Unit)
  /-- The task is cancelled, or the port panics in it. -/
  | aborted (failure : R.TaskFailure)
  /-- The future is dropped at its wait; `alive` says whether the runtime still exists. -/
  | dropped (alive : Bool)

/-! ## The code -/

section Code

/-- What a section leads to: the new shared state, the next place, and a thread to start. -/
abbrev Section (R : LocalEntityRuntime) := Option (Shared R × Pc R × Option (Pc R))

/-- Go on at `p`. -/
def goto (s : Shared R) (p : Pc R) : Section R := some (s, p, none)

/-- Enter family admission, if it is open. -/
def enter (s : Shared R) (self : ℕ) (refused : Outcome R) (body : Shared R → Section R) :
    Section R :=
  match s.holder, s.admission with
  | some _, _ => none
  | none, .closed => goto s (.returned refused)
  | none, .opened => body { s with holder := some self }

/-- A section under the mutex of a slot. -/
def lockSlot {α : Type} (s : Shared R) (slot : SlotRef)
    (body : SlotExecution R → SlotExecution R × α) (cont : Shared R → α → Section R) : Section R :=
  match s.directory.locked slot body with
  | none => none
  | some (directory, result) => cont { s with directory := directory } result

/-- A section under the lock of the task group, at place `p`.  Without a result it panics. -/
def lockTasks {α : Type} (s : Shared R) (p : Pc R) (result : Option α) (cont : α → Section R) :
    Section R :=
  match s.tasksHolder, result with
  | some _, _ => none
  | none, none => goto s (.panicked p)
  | none, some a => cont a

/-- The task that `interpret_effect` hands to `spawn_owned`, for the effects that have one. -/
def effectTask (id : R.Id) (slot : Option SlotRef) : R.Effect → Option (Task R)
  | .startActivation activationId => some (.activation id slot activationId)
  | .deliver activationId dispatchId endpoint command =>
    some (.delivery id slot activationId dispatchId endpoint command)
  | .enqueueFence activationId endpoint => some (.fence id slot activationId endpoint)
  | .retire activationId lease retirement => some (.retire id slot activationId lease retirement)
  | .reject .. | .remove _ => none

/-- The caller is answered with a refusal. -/
def Shared.reject (s : Shared R) (pending : PendingCommand R) (reason : Refusal) : Shared R :=
  { s with replies := (pending.publisher, .error (.refused pending.command reason)) :: s.replies }

/-- Submit the fact of a task to the slot it was spawned with.  Without a slot the task is over. -/
def submitOwned (id : R.Id) (slot : Option SlotRef) (event : R.Event)
    (ret : SlotRef → Return R) : Pc R :=
  match slot with
  | some slot => .submit id slot event (.task (ret slot))
  | none => .finish .returned

/-- The result of a fence as a fact for the slot. -/
def fenceFact (activationId : ActivationId) : Except FenceFailure Unit → R.Event
  | .ok () => .fenceAcknowledged activationId
  | .error failure => .forceDrain activationId failure.drainFailure

/-- The mode in which a closed family retires after its fence. -/
def closedMode : Except FenceFailure Unit → RetirementMode
  | .ok () => .graceful
  | .error failure => .forced failure.drainFailure

/-- The end of `retire_owned`, once its failure is recorded. -/
def terminated (id : R.Id) (slot : Option SlotRef) (activationId : ActivationId)
    (mode : RetirementMode) : Pc R :=
  submitOwned id slot (.terminated activationId) (.completeRetirement · mode)

/-- `interpret_effect` and `interpret_closed_slot`. -/
def interpretEffect (s : Shared R) (id : R.Id) (source : InstalledEffectSource R)
    (ret : Return R) (effect : R.Effect) : Section R :=
  match effect, effectTask id source.slot? effect with
  | .startActivation _, some task =>
    -- `close_family` has returned the waiters of an activation that never started
    if ret.closed then goto s (.next id source ret)
    else goto s (.begin task (.interpret id source ret))
  | _, some task => goto s (.begin task (.interpret id source ret))
  | .reject _ pending reason, none => goto (s.reject pending reason) (.next id source ret)
  | _, none =>
    match source with
    | .mapped slot => goto s (.takeSlot id slot 0 ret)
    | .transient _ => goto s (.next id source ret)

variable [DecidableEq R.Id]

/-- A section that needs nothing from outside. -/
def advance (s : Shared R) (self fresh : ℕ) (p : Pc R) : Section R :=
  match p with
  | .admitCommand origin id command =>
    enter s self (.admitted (.error (.refused command .shutdown))) fun s =>
      goto { s with fresh := s.fresh + 1 } (.dispatch id ⟨origin, command, s.fresh⟩)
  | .dispatch id pending =>
    match allocate s.directory.nextDispatch with
    | none =>
      goto s (.release (.stop (.admitted (.error (.dispatchIdsExhausted pending.command)))))
    | some (sequence, next) =>
      goto { s with directory := { s.directory with nextDispatch := next } }
        (.route id pending ⟨sequence⟩)
  | .route id pending dispatchId =>
    match s.directory.get id with
    | some slot =>
      goto s (.submit id slot (.dispatch dispatchId pending)
        (.dispatch dispatchId pending.publisher))
    | none =>
      match s.directory.claim id dispatchId pending with
      | none =>
        goto s (.release (.stop (.admitted (.error (.activationIdsExhausted pending.command)))))
      | some (directory, slot, installed) =>
        goto { s with directory := directory } (.acquire id slot
          ((Purpose.dispatch dispatchId pending.publisher).ret id installed))
  | .wait _ _ _ observation =>
    match s.replies.lookup observation with
    | some result => goto s (.returned (.admitted result))
    | none => none
  | .dropWait id activationId dispatchId =>
    enter s self .cancelled fun s =>
      goto s (.submitOrInactive id (.cancelWaiter activationId dispatchId) .dropWait)
  | .passivate id => enter s self (.passivated .shuttingDown) fun s => goto s (.currentSlot id)
  | .currentSlot id =>
    match s.directory.get id with
    | some slot => goto s (.currentActivation id slot)
    | none => goto s (.release (.stop (.passivated .notActive)))
  | .currentActivation id slot =>
    lockSlot s slot (fun x => (x, x.state.activationId)) fun s activation =>
      match activation with
      | some activationId => goto s (.submitOrInactive id (.beginDrain activationId) .passivate)
      | none => goto s (.release (.stop (.passivated .notActive)))
  | .retireEntity id =>
    enter s self (.retired (.error .shuttingDown)) fun s => goto s (.retirementSlot id)
  | .retirementSlot id =>
    match s.directory.get id with
    | some slot => goto s (.beginRetirement id slot)
    | none => goto s (.release (.stop (.retired (.error .notActive))))
  | .beginRetirement id slot =>
    lockSlot s slot (·.beginRetirement s.fresh) fun s begun =>
      match begun with
      | .ok (_, observation) =>
        goto { s with fresh := s.fresh + 1 } (.acquire id slot (.release (.observe observation)))
      | .error error => goto s (.release (.stop (.retired (.error error))))
  | .observe observation =>
    match s.retirements.lookup observation with
    | some mode => goto s (.returned (.retired (.ok mode)))
    | none => none
  | .release after => goto { s with holder := none } after.pc
  | .submitOrInactive id event purpose =>
    match s.directory.get id with
    | some slot => goto s (.submit id slot event purpose)
    | none =>
      -- `submit_absent`
      let decision := (EntitySlot.inactive : R.Slot).decide event
      goto s (.next id (.transient decision.effects)
        (purpose.ret id (SlotExecution.installed decision)))
  | .submit id slot event purpose =>
    lockSlot s slot (·.submit event) fun s installed =>
      goto s (.acquire id slot (purpose.ret id installed))
  | .acquire id slot ret =>
    lockSlot s slot (·.acquire) fun s acquired =>
      goto s (if acquired then .next id (.mapped slot) ret else ret.pc)
  | .next id (.mapped slot) ret =>
    lockSlot s slot (·.next) fun s effect =>
      match effect with
      | some effect => goto s (.interpretEffect id (.mapped slot) effect ret)
      | none => goto s ret.pc
  | .next id (.transient (effect :: effects)) ret =>
    goto s (.interpretEffect id (.transient effects) effect ret)
  | .next _ (.transient []) ret => goto s ret.pc
  | .interpretEffect id source effect ret => interpretEffect s id source ret effect
  | .takeSlot id slot shard ret =>
    if shard < s.directory.shardCount then
      match s.directory.takeSlot slot shard with
      | (directory, some row) =>
        goto { s with directory := directory } (.retainRetired id slot row ret)
      | (_, none) => goto s (.takeSlot id slot (shard + 1) ret)
    else goto s (.next id (.mapped slot) ret)
  | .retainRetired id slot row ret =>
    lockTasks s p (s.tasks.retainRetired row fun retirement => retirement.slot = some slot)
      fun tasks => goto { s with tasks := tasks } (.next id (.mapped slot) ret)
  | .begin task cont =>
    lockTasks s p (s.tasks.begin s.fresh) fun tasks =>
      goto { s with tasks := tasks, fresh := s.fresh + 1 } (.spawn task cont)
  | .spawn task cont => some (s, .track fresh cont, some (.task task))
  | .track handle cont =>
    lockTasks s p (s.tasks.track handle) fun tasks => goto { s with tasks := tasks } cont.pc
  | .task _ => none
  | .retirementFailed retirement =>
    lockTasks s p (s.tasks.retirementFailed retirement) fun tasks =>
      goto { s with tasks := tasks } (terminated retirement.id retirement.slot
        retirement.activationId retirement.mode)
  | .diagnose .. => goto s (.finish .returned)
  | .completeRetirement slot mode =>
    lockSlot s slot (·.completeRetirement) fun s publication =>
      match publication with
      | some publication => goto s (.publishRetirement publication mode)
      | none => goto s (.finish .returned)
  | .publishRetirement publication mode =>
    goto { s with retirements := (publication, mode) :: s.retirements } (.finish .returned)
  | .finish ending =>
    lockTasks s p s.tasks.finish fun (tasks, epoch) =>
      goto { s with tasks := tasks }
        (match epoch with
          | some epoch => .publishIdle epoch ending
          | none => .exit ending)
  | .publishIdle epoch ending => goto { s with epochs := epoch :: s.epochs } (.exit ending)
  | .exit ending =>
    goto { s with joinable := (self, ending.failure?) :: s.joinable } (.ended ending)
  | .shutdown =>
    match s.holder with
    | some _ => none
    | none => goto { s with admission := .closed } .claim
  | .claim =>
    match s.tasksHolder, s.tasks.claim with
    | some _, _ => none
    | none, some tasks => goto { s with tasks := tasks } (.waitIdle ⟨[], []⟩ false)
    | none, none => goto s (.returned (.shutdown .alreadyClaimed))
  | .waitIdle claim again =>
    lockTasks s p (some s.tasks.idleEpoch?) fun
      | some epoch => goto s (.idle claim again epoch)
      | none => goto s (.takeTasks claim again)
  | .idle claim again epoch =>
    if epoch ∈ s.epochs then goto s (.waitIdle claim again) else none
  | .takeTasks claim again =>
    lockTasks s p s.tasks.takeTasks fun (tasks, records) =>
      goto { s with tasks := tasks } (.join { claim with tasks := claim.tasks ++ records } again 0)
  | .join claim again index =>
    match claim.tasks[index]? with
    | some (.running handle) =>
      match s.joinable.lookup handle with
      | some none =>
        goto s (.join { claim with tasks := claim.tasks.set index .joined } again (index + 1))
      | some (some failure) =>
        goto s (.join { claim with tasks := claim.tasks.set index (.failed failure) } again
          (index + 1))
      | none => none
    | some _ => goto s (.join claim again (index + 1))
    | none => goto s (if again then .hasPending claim claim.rows else .recordDrain claim)
  | .recordDrain claim =>
    lockTasks s p (match s.tasks with | .opened state => some state.drain | .closed => none) fun
      | .notStarted => goto { s with tasksHolder := some self } (.takeFamily claim 0 [])
      | .started .. => goto s (.rows claim)
  | .takeFamily claim shard rows =>
    -- `record_drain` holds the task group here
    if shard < s.directory.shardCount then
      let (directory, taken) := s.directory.drainShard shard
      goto { s with directory := directory } (.takeFamily claim (shard + 1) (rows ++ taken))
    else
      match s.tasks.recordDrain rows with
      | some tasks => goto { s with tasks := tasks, tasksHolder := none } (.rows claim)
      | none => goto s (.panicked p)
  | .rows claim =>
    lockTasks s p s.tasks.rows fun rows => goto s (.closeSlots { claim with rows := rows } rows)
  | .closeSlots claim ((id, slot) :: rest) =>
    lockSlot s slot (·.closeFamily) fun s retirement =>
      goto s (.acquire id slot (.closeSlot claim id slot retirement rest))
  | .closeSlots claim [] => goto s (.waitIdle claim true)
  | .hasPending claim ((_, slot) :: rest) =>
    lockSlot s slot (fun x => (x, x.pending.isEmpty)) fun s isEmpty =>
      goto s (if isEmpty then .hasPending claim rest else .sweep claim claim.rows)
  | .hasPending claim [] => goto s (.complete claim)
  | .sweep claim ((id, slot) :: rest) => goto s (.acquire id slot (.sweep claim rest))
  | .sweep claim [] => goto s (.waitIdle claim true)
  | .complete claim =>
    match EntityTaskState.failures claim.tasks with
    | none => goto s (.panicked p)
    | some failures =>
      lockTasks s p s.tasks.complete fun (tasks, represented, rows, retirements) =>
        goto { s with tasks := tasks } (.closeGroup represented rows retirements failures)
  | .closeGroup represented rows retirements failures =>
    lockTasks s p s.tasks.close fun tasks =>
      goto { s with tasks := tasks } (.report represented rows retirements failures [])
  | .report represented ((id, slot) :: rows) retirements failures entities =>
    lockSlot s slot (fun x => (x, x.retirementDisposition)) fun s disposition =>
      let (receipts, others) := retirements.partition (·.slot = some slot)
      goto s (.report represented rows others failures (entities ++
        [⟨id, disposition, receipts.map fun r => (r.activationId, r.mode, r.failure)⟩]))
  | .report represented [] retirements failures entities =>
    if retirements.all (·.slot.isNone) then
      goto s (.returned (.shutdown (.classify represented (entities ++ retirements.map fun r =>
        ⟨r.id, .ok (), [(r.activationId, r.mode, r.failure)]⟩) failures)))
    -- "mapped retirement failure lost its original family row"
    else goto s (.panicked p)
  | .dropClaim claim =>
    lockTasks s p (some (s.tasks.dropClaim claim.tasks)) fun tasks =>
      goto { s with tasks := tasks } (.returned .cancelled)
  | .returned _ | .ended _ | .panicked _ => none

/-- A call of the port in a task resolves. -/
def resolve (s : Shared R) : Task R → Input R → Section R
  | .activation id (some slot) activationId, .activated (.ok (endpoint, lease)) =>
    goto { s with live := (id, activationId) :: s.live }
      (.submit id slot (.activationSucceeded activationId endpoint lease) (.task .finish))
  | .activation id (some slot) activationId, .activated (.error error) =>
    goto s (.submit id slot (.activationFailed activationId)
      (.task (.diagnose id slot activationId error)))
  | .activation id none activationId, .activated _ =>
    -- "activation without installed slot"
    goto s (.panicked (.task (.activation id none activationId)))
  | .delivery id slot activationId _ _ pending, .delivered (.ok ()) =>
    goto { s with replies := (pending.publisher, .ok ()) :: s.replies }
      (submitOwned id slot (.deliveryResolved activationId none) fun _ => .finish)
  | .delivery id (some slot) activationId dispatchId _ pending, .delivered (.error command) =>
    goto s (.submit id slot (.deliveryResolved activationId
      (some (dispatchId, { pending with command := command }))) (.task .finish))
  | .delivery _ none _ _ _ pending, .delivered (.error command) =>
    goto (s.reject { pending with command := command } .unavailable) (.finish .returned)
  | .fence id slot activationId _, .fenced result =>
    goto s (submitOwned id slot (fenceFact activationId result) fun _ => .finish)
  | .closedFence id slot activationId _ lease, .fenced result =>
    goto s (.task (.retire id (some slot) activationId lease (closedMode result)))
  | .retire id slot activationId _ mode, .retired (.ok ()) =>
    goto { s with live := s.live.erase (id, activationId) } (terminated id slot activationId mode)
  | .retire id slot activationId _ mode, .retired (.error failure) =>
    goto { s with live := s.live.erase (id, activationId) }
      (.retirementFailed ⟨id, slot, activationId, mode, failure⟩)
  | _, _ => none

/-- A task is cancelled, or panics in a call of the port. -/
def abort (s : Shared R) (failure : R.TaskFailure) : Pc R → Section R
  | .task task => goto s (.finish (.died task failure))
  | .diagnose id slot activationId _ =>
    goto s (.finish (.died (.activation id (some slot) activationId) failure))
  | _ => none

/-- A future is dropped at its wait. -/
def cancel (s : Shared R) (alive : Bool) : Pc R → Section R
  | .wait id (some activationId) dispatchId _ =>
    goto s (if alive then .dropWait id activationId dispatchId else .returned .cancelled)
  | .wait _ none _ _ => goto s (.returned .cancelled)
  | .observe _ => goto s (.returned .cancelled)
  | .idle claim _ _ => goto s (.dropClaim claim)
  | .join claim _ index =>
    match claim.tasks[index]? with
    | some (.running _) => goto s (.dropClaim claim)
    | _ => none
  | _ => none

/-- The code of the entity runtime. -/
def act : Code (Shared R) (Pc R) (Input R) := fun s self fresh p i =>
  match i, p with
  | .advance, p => advance s self fresh p
  | .aborted failure, p => abort s failure p
  | .dropped alive, p => cancel s alive p
  | i, .task task => resolve s task i
  | _, _ => none

end Code

/-- The public operations. -/
def Pc.isCall : Pc R → Bool
  | .admitCommand .. | .passivate _ | .retireEntity _ | .shutdown => true
  | _ => false

/-- One section of one thread. -/
def EntityRuntime.step [DecidableEq R.Id] :
    Pool (Shared R) (Pc R) → Schedule (Pc R) (Input R) → Option (Pool (Shared R) (Pc R)) :=
  Pool.step Pc.isCall act

/-- A runtime before its first call. -/
def EntityRuntime.new (config : DirectoryConfig) (hash : R.Id → ℕ) : Pool (Shared R) (Pc R) :=
  ⟨.new config hash, []⟩

end Entity
