import Bombay.Entity.Directory

/-!
# The task group of an entity family

`EntityTaskGroup` counts the lifecycle tasks that are running, keeps their join handles, and guards
the one shutdown of the family.  As in `Bombay.Entity.Directory` each definition is one critical
section of its mutex.  A section that would panic has no result.

`EntityShutdownClaim` moves the join handles out of the group and back; its `Drop` is `dropClaim`.
-/

set_option autoImplicit false

namespace Entity

variable {R : LocalEntityRuntime}

/-- Whether a shutdown has the group. -/
inductive ShutdownClaimPhase
  | available
  | claimed
  deriving DecidableEq

/-- Whether the directory has been drained, and the rows that were in it. -/
inductive FamilyDrainPhase (R : LocalEntityRuntime)
  | notStarted
  | started (represented : ℕ) (rows : List R.Row)

/-- One owned task.  A join handle is the name of the task's thread. -/
inductive EntityTaskRecord (R : LocalEntityRuntime)
  | running (task : ℕ)
  | joined
  | failed (failure : R.TaskFailure)

/-- A retirement failure with the original key and slot it belongs to. -/
structure Retirement (R : LocalEntityRuntime) where
  id : R.Id
  slot : Option SlotRef
  activationId : ActivationId
  mode : RetirementMode
  failure : R.RetirementFailure

/-- `EntityTaskState::Open`. -/
structure OpenTasks (R : LocalEntityRuntime) where
  active : ℕ
  idleEpoch : Option Publication
  tasks : List (EntityTaskRecord R)
  shutdown : ShutdownClaimPhase
  drain : FamilyDrainPhase R
  retired : List R.Row
  retirements : List (Retirement R)

/-- The group, until it is closed. -/
inductive EntityTaskState (R : LocalEntityRuntime)
  | opened (state : OpenTasks R)
  | closed

namespace EntityTaskState

/-- A group without tasks. -/
def new : EntityTaskState R :=
  .opened
    { active := 0
      idleEpoch := none
      tasks := []
      shutdown := .available
      drain := .notStarted
      retired := []
      retirements := [] }

/-- `EntityTaskGroup::begin`.  The first active task opens an epoch. -/
def begin (epoch : Publication) : EntityTaskState R → Option (EntityTaskState R)
  | .opened state => some <| .opened
    { state with
      idleEpoch := if state.active = 0 then some epoch else state.idleEpoch
      active := state.active + 1 }
  | .closed => none

/-- `EntityTaskGroup::claim`: the claimed group, unless the shutdown is somebody else's. -/
def claim : EntityTaskState R → Option (EntityTaskState R)
  | .opened state =>
    match state.shutdown with
    | .available => some (.opened { state with shutdown := .claimed })
    | .claimed => none
  | .closed => none

/-- A spawned task is recorded. -/
def track (task : ℕ) : EntityTaskState R → Option (EntityTaskState R)
  | .opened state => some (.opened { state with tasks := state.tasks ++ [.running task] })
  | .closed => none

/-- What `EntityTaskGroup::wait_idle` looks at. -/
def idleEpoch? : EntityTaskState R → Option Publication
  | .opened state => state.idleEpoch
  | .closed => none

/-- The section of `EntityTaskGroup::finish`: the group, and the epoch to publish if it has become
idle. -/
def finish : EntityTaskState R → Option (EntityTaskState R × Option Publication)
  | .opened state =>
    match state.active with
    | 0 => none
    | 1 => some (.opened { state with active := 0, idleEpoch := none }, state.idleEpoch)
    | active + 1 => some (.opened { state with active := active }, none)
  | .closed => none

/-- A failed retirement is recorded. -/
def retirementFailed (retirement : Retirement R) : EntityTaskState R → Option (EntityTaskState R)
  | .opened state => some <| .opened
    { state with retirements := state.retirements ++ [retirement] }
  | .closed => none

/-- `EntityTaskGroup::retain_retired`: a removed row is kept while a failure of it is. -/
def retainRetired (row : R.Row) (keeps : Retirement R → Bool) :
    EntityTaskState R → Option (EntityTaskState R)
  | .opened state => some <| .opened
    { state with retired := if state.retirements.any keeps then state.retired ++ [row]
                            else state.retired }
  | .closed => none

/-- `EntityTaskGroup::close`, with its assertions. -/
def close : EntityTaskState R → Option (EntityTaskState R)
  | .opened state =>
    if state.active = 0 ∧ state.idleEpoch.isNone ∧ state.tasks.isEmpty ∧
        state.shutdown = .claimed then
      some .closed
    else none
  | .closed => some .closed

/-- The last lines of `EntityShutdownClaim::record_drain`, which install the rows. -/
def recordDrain (rows : List R.Row) : EntityTaskState R → Option (EntityTaskState R)
  | .opened state => some (.opened { state with drain := .started rows.length rows })
  | .closed => none

/-- The rows that were drained. -/
def rows : EntityTaskState R → Option (List R.Row)
  | .opened state =>
    match state.drain with
    | .started _ rows => some rows
    | .notStarted => none
  | .closed => none

/-- `EntityShutdownClaim::take_tasks`: the group without its join handles, and the handles. -/
def takeTasks : EntityTaskState R → Option (EntityTaskState R × List (EntityTaskRecord R))
  | .opened state =>
    match state.shutdown with
    | .claimed => some (.opened { state with tasks := [] }, state.tasks)
    | .available => none
  | .closed => none

/-- The section of `EntityShutdownClaim::complete`. -/
def complete : EntityTaskState R → Option (EntityTaskState R × ℕ × List R.Row × List (Retirement R))
  | .opened state =>
    match state.drain with
    | .started represented rows =>
      some (.opened { state with drain := .notStarted, retired := [], retirements := [] },
        represented, rows ++ state.retired, state.retirements)
    | .notStarted => none
  | .closed => none

/-- The failures `EntityShutdownClaim::complete` collects; a task that is still running panics. -/
def failures : List (EntityTaskRecord R) → Option (List R.TaskFailure)
  | [] => some []
  | .failed failure :: tasks => (failures tasks).map (failure :: ·)
  | .joined :: tasks => failures tasks
  | .running _ :: _ => none

/-- `Drop for EntityShutdownClaim`. -/
def dropClaim (tasks : List (EntityTaskRecord R)) : EntityTaskState R → EntityTaskState R
  | .opened state => .opened
    { state with tasks := state.tasks ++ tasks, shutdown := .available }
  | .closed => .closed

/-! ## The rows of the drain

Only `recordDrain` writes them and only `complete` and `close` take them away. -/

variable {state state' : EntityTaskState R}

theorem rows_begin {epoch} (h : state.begin epoch = some state') : state'.rows = state.rows := by
  cases state with
  | opened => cases h; rfl
  | closed => cases h

theorem rows_claim (h : state.claim = some state') : state'.rows = state.rows := by
  cases state with
  | opened =>
    rw [claim] at h
    split at h
    · cases h; rfl
    · cases h
  | closed => cases h

theorem rows_track {task : ℕ} (h : state.track task = some state') : state'.rows = state.rows := by
  cases state with
  | opened => cases h; rfl
  | closed => cases h

theorem rows_finish {epoch} (h : state.finish = some (state', epoch)) :
    state'.rows = state.rows := by
  cases state with
  | opened =>
    rw [finish] at h
    split at h
    · cases h
    · cases h; rfl
    · cases h; rfl
  | closed => cases h

theorem rows_retirementFailed {retirement}
    (h : state.retirementFailed retirement = some state') : state'.rows = state.rows := by
  cases state with
  | opened => cases h; rfl
  | closed => cases h

theorem rows_retainRetired {row : R.Row} {keeps : Retirement R → Bool}
    (h : state.retainRetired row keeps = some state') : state'.rows = state.rows := by
  cases state with
  | opened => cases h; rfl
  | closed => cases h

theorem rows_takeTasks {records}
    (h : state.takeTasks = some (state', records)) : state'.rows = state.rows := by
  cases state with
  | opened =>
    rw [takeTasks] at h
    split at h
    · cases h; rfl
    · cases h
  | closed => cases h

theorem rows_dropClaim (tasks : List (EntityTaskRecord R)) :
    (state.dropClaim tasks).rows = state.rows := by
  cases state <;> rfl

theorem rows_recordDrain {taken} (h : state.recordDrain taken = some state') :
    state'.rows = some taken := by
  cases state with
  | opened => cases h; rfl
  | closed => cases h

theorem rows_complete {represented : ℕ} {taken} {retirements}
    (h : state.complete = some (state', represented, taken, retirements)) :
    state'.rows = none := by
  cases state with
  | opened =>
    rw [complete] at h
    split at h
    · cases h; rfl
    · cases h
  | closed => cases h

theorem rows_close (h : state.close = some state') : state'.rows = none := by
  cases state with
  | opened =>
    rw [close] at h
    split at h
    · cases h; rfl
    · cases h
  | closed => cases h; rfl

end EntityTaskState

end Entity
