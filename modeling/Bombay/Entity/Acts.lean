import Bombay.Entity.Runtime

/-!
# What one section of the entity runtime can do

`Acts` lists the ways through the code of `Bombay.Entity.Runtime`, one rule for each: which place it
leaves, what it found there, what it wrote, and where the thread goes on.  `act_acts` is the only
proof that opens the code, and `Reaches.invariant` the rule every invariant of the runtime
goes through.

The rules are grouped as the places are.  A section under the lock of a slot writes one execution
(`Shared.put`); the rules of the task group keep its sections as they are in
`Bombay.Entity.TaskGroup`.  All panics are one rule, and `Pc.Panics` says which they are.
-/

set_option autoImplicit false

namespace Entity

open Machine

variable {R : LocalEntityRuntime}

/-! ## Writing a slot -/

/-- The shared state after a section under the lock of `slot`, which holds the allocation `x`. -/
def Shared.put (s : Shared R) (slot : SlotRef) (x : Allocation R) (e : SlotExecution R) :
    Shared R :=
  { s with directory := { s.directory with
      slots := s.directory.slots.set slot { x with execution := e } } }

variable {s : Shared R} {slot : SlotRef}

theorem Shared.put_self {x}
    (hx : s.directory.slots[slot]? = some x) : s.put slot x x.execution = s := by
  have hset : s.directory.slots.set slot x = s.directory.slots := by
    obtain ⟨hlt, rfl⟩ := List.getElem?_eq_some_iff.mp hx
    exact List.set_getElem_self hlt
  show { s with directory := { s.directory with slots := s.directory.slots.set slot x } } = s
  rw [hset]

namespace SlotExecution

variable {x : SlotExecution R}

theorem acquire_idle (h : x.dispatch = .idle) :
    x.acquire = ({ x with dispatch := .dispatching }, true) := by
  rw [acquire, h]

theorem acquire_dispatching (h : x.dispatch = .dispatching) : x.acquire = (x, false) := by
  rw [acquire, h]

theorem next_nil (h : x.pending = []) : x.next = ({ x with dispatch := .idle }, none) := by
  rw [next, h]

theorem next_cons {effect : R.Effect} {effects} (h : x.pending = effect :: effects) :
    x.next = ({ x with pending := effects }, some effect) := by
  rw [next, h]

theorem acquire_fst (x : SlotExecution R) :
    x.acquire.1.state = x.state ∧ x.acquire.1.pending = x.pending := by
  cases h : x.dispatch with
  | idle => rw [acquire_idle h]; exact ⟨rfl, rfl⟩
  | dispatching => rw [acquire_dispatching h]; exact ⟨rfl, rfl⟩

theorem next_fst (x : SlotExecution R) :
    x.next.1.state = x.state ∧ x.next.1.pending = x.pending.tail := by
  cases h : x.pending with
  | nil => rw [next_nil h]; exact ⟨rfl, h⟩
  | cons => rw [next_cons h]; exact ⟨rfl, rfl⟩

end SlotExecution

/-! ## The panics -/

/-- The places at which a section panics. -/
def Pc.Panics (s : Shared R) : Pc R → Prop
  | .retainRetired _ slot row _ =>
    s.tasks.retainRetired row (fun retirement => retirement.slot = some slot) = none
  | .begin .. => s.tasks.begin s.fresh = none
  | .track handle _ => s.tasks.track handle = none
  | .task (.activation _ slot _) => slot = none
  | .retirementFailed retirement => s.tasks.retirementFailed retirement = none
  | .finish _ => s.tasks.finish = none
  | .takeTasks .. => s.tasks.takeTasks = none
  | .recordDrain _ => s.tasks = .closed
  | .takeFamily _ _ family => s.tasks.recordDrain family = none
  | .rows _ => s.tasks.rows = none
  | .complete owned =>
    EntityTaskState.failures owned.tasks = none ∨ s.tasks.complete = none
  | .closeGroup .. => s.tasks.close = none
  | .report _ family retirements _ _ => family = [] ∧ ¬retirements.all (·.slot.isNone)
  | _ => False

/-! ## The rules -/

section Rules

variable [DecidableEq R.Id] (s : Shared R) (self fresh : ℕ)

/-- The sections of the entity runtime. -/
inductive Acts : Pc R → Input R → Shared R → Pc R → Option (Pc R) → Prop
  -- entering family admission
  | admitRefused (origin id command) (free : s.holder = none) (closed : s.admission = .closed) :
      Acts (.admitCommand origin id command) .advance s
        (.returned (.admitted (.error (.refused command .shutdown)))) none
  | admitEntered (origin id command) (free : s.holder = none) (opened : s.admission = .opened) :
      Acts (.admitCommand origin id command) .advance
        { s with holder := some self, fresh := s.fresh + 1 }
        (.dispatch id ⟨origin, command, s.fresh⟩) none
  | dropRefused (id a d) (free : s.holder = none) (closed : s.admission = .closed) :
      Acts (.dropWait id a d) .advance s (.returned .cancelled) none
  | dropEntered (id a d) (free : s.holder = none) (opened : s.admission = .opened) :
      Acts (.dropWait id a d) .advance { s with holder := some self }
        (.submitOrInactive id (.cancelWaiter a d) .dropWait) none
  | passivateRefused (id) (free : s.holder = none) (closed : s.admission = .closed) :
      Acts (.passivate id) .advance s (.returned (.passivated .shuttingDown)) none
  | passivateEntered (id) (free : s.holder = none) (opened : s.admission = .opened) :
      Acts (.passivate id) .advance { s with holder := some self } (.currentSlot id) none
  | retireRefused (id) (free : s.holder = none) (closed : s.admission = .closed) :
      Acts (.retireEntity id) .advance s (.returned (.retired (.error .shuttingDown))) none
  | retireEntered (id) (free : s.holder = none) (opened : s.admission = .opened) :
      Acts (.retireEntity id) .advance { s with holder := some self } (.retirementSlot id) none
  | released (after) : Acts (.release after) .advance { s with holder := none } after.pc none
  -- `EntityRuntime::admit`
  | dispatchExhausted (id pending) (full : allocate s.directory.nextDispatch = none) :
      Acts (.dispatch id pending) .advance s
        (.release (.stop (.admitted (.error (.dispatchIdsExhausted pending.command))))) none
  | dispatched (id pending d next) (new : allocate s.directory.nextDispatch = some (d, next)) :
      Acts (.dispatch id pending) .advance
        { s with directory := { s.directory with nextDispatch := next } }
        (.route id pending ⟨d⟩) none
  | routeHit (id pending d slot) (hit : s.directory.get id = some slot) :
      Acts (.route id pending d) .advance s
        (.submit id slot (.dispatch d pending) (.dispatch d pending.publisher)) none
  | routeExhausted (id pending d)
      (miss : s.directory.get id = none) (full : s.directory.claim id d pending = none) :
      Acts (.route id pending d) .advance s
        (.release (.stop (.admitted (.error (.activationIdsExhausted pending.command))))) none
  | routeClaimed (id pending d directory slot installed) (miss : s.directory.get id = none)
      (claimed : s.directory.claim id d pending = some (directory, slot, installed)) :
      Acts (.route id pending d) .advance { s with directory := directory }
        (.acquire id slot (.release (.wait id installed.activationId d pending.publisher))) none
  | replied (id a d observation result) (ready : s.replies.lookup observation = some result) :
      Acts (.wait id a d observation) .advance s (.returned (.admitted result)) none
  | waitDropped (id a d observation) : Acts (.wait id (some a) d observation) (.dropped true) s
        (.dropWait id a d) none
  | waitCancelled (id a d observation alive) (idle : a = none ∨ alive = false) :
      Acts (.wait id a d observation) (.dropped alive) s (.returned .cancelled) none
  -- `EntityRuntime::passivate`
  | currentFound (id slot) (hit : s.directory.get id = some slot) :
      Acts (.currentSlot id) .advance s (.currentActivation id slot) none
  | currentMissing (id) (miss : s.directory.get id = none) : Acts (.currentSlot id) .advance s
        (.release (.stop (.passivated .notActive))) none
  | activationFound (id slot x a)
      (hx : s.directory.slots[slot]? = some x) (ha : x.execution.state.activationId = some a) :
      Acts (.currentActivation id slot) .advance s
        (.submitOrInactive id (.beginDrain a) .passivate) none
  | activationMissing (id slot x)
      (hx : s.directory.slots[slot]? = some x) (ha : x.execution.state.activationId = none) :
      Acts (.currentActivation id slot) .advance s (.release (.stop (.passivated .notActive))) none
  -- `EntityRuntime::retire_entity`
  | retirementFound (id slot) (hit : s.directory.get id = some slot) :
      Acts (.retirementSlot id) .advance s (.beginRetirement id slot) none
  | retirementMissing (id) (miss : s.directory.get id = none) : Acts (.retirementSlot id) .advance s
        (.release (.stop (.retired (.error .notActive)))) none
  | retirementBegun (id slot x e installed observation) (hx : s.directory.slots[slot]? = some x)
      (begun : x.execution.beginRetirement s.fresh = (e, .ok (installed, observation))) :
      Acts (.beginRetirement id slot) .advance { s.put slot x e with fresh := s.fresh + 1 }
        (.acquire id slot (.release (.observe observation))) none
  | retirementRefused (id slot x e error) (hx : s.directory.slots[slot]? = some x)
      (refused : x.execution.beginRetirement s.fresh = (e, .error error)) :
      Acts (.beginRetirement id slot) .advance (s.put slot x e)
        (.release (.stop (.retired (.error error)))) none
  | observed (observation mode) (ready : s.retirements.lookup observation = some mode) :
      Acts (.observe observation) .advance s (.returned (.retired (.ok mode))) none
  | observeDropped (observation alive) :
      Acts (.observe observation) (.dropped alive) s (.returned .cancelled) none
  -- submitting to a slot and interpreting its effects
  | located (id event purpose slot) (hit : s.directory.get id = some slot) :
      Acts (.submitOrInactive id event purpose) .advance s (.submit id slot event purpose) none
  | absent (id event purpose) (miss : s.directory.get id = none) :
      Acts (.submitOrInactive id event purpose) .advance s
        (.next id (.transient ((EntitySlot.inactive : R.Slot).decide event).effects)
          (purpose.ret id (SlotExecution.installed ((EntitySlot.inactive : R.Slot).decide event))))
        none
  | submitted (id slot event purpose x) (hx : s.directory.slots[slot]? = some x) :
      Acts (.submit id slot event purpose) .advance (s.put slot x (x.execution.submit event).1)
        (.acquire id slot (purpose.ret id (x.execution.submit event).2)) none
  | acquired (id slot ret x)
      (hx : s.directory.slots[slot]? = some x) (idle : x.execution.dispatch = .idle) :
      Acts (.acquire id slot ret) .advance (s.put slot x x.execution.acquire.1)
        (.next id (.mapped slot) ret) none
  | busy (id slot ret x)
      (hx : s.directory.slots[slot]? = some x) (held : x.execution.dispatch = .dispatching) :
      Acts (.acquire id slot ret) .advance s ret.pc none
  | popped (id slot ret x effect effects) (hx : s.directory.slots[slot]? = some x)
      (pending : x.execution.pending = effect :: effects) :
      Acts (.next id (.mapped slot) ret) .advance (s.put slot x x.execution.next.1)
        (.interpretEffect id (.mapped slot) effect ret) none
  | emptied (id slot ret x)
      (hx : s.directory.slots[slot]? = some x) (pending : x.execution.pending = []) :
      Acts (.next id (.mapped slot) ret) .advance (s.put slot x x.execution.next.1) ret.pc none
  | transientNext (id effect effects ret) :
      Acts (.next id (.transient (effect :: effects)) ret) .advance s
        (.interpretEffect id (.transient effects) effect ret) none
  | transientDone (id ret) : Acts (.next id (.transient []) ret) .advance s ret.pc none
  /-- `interpret_closed_slot` drops an activation. -/
  | skipped (id source a ret) (closed : ret.closed) :
      Acts (.interpretEffect id source (.startActivation a) ret) .advance s
        (.next id source ret) none
  | scheduled (id source effect ret task)
      (start : ∀ a, effect = .startActivation a → ret.closed = false)
      (htask : effectTask id source.slot? effect = some task) :
      Acts (.interpretEffect id source effect ret) .advance s
        (.begin task (.interpret id source ret)) none
  | rejected (id source d pending reason ret) :
      Acts (.interpretEffect id source (.reject d pending reason) ret) .advance
        (s.reject pending reason) (.next id source ret) none
  | removing (id slot a ret) : Acts (.interpretEffect id (.mapped slot) (.remove a) ret) .advance s
        (.takeSlot id slot 0 ret) none
  | removeAbsent (id effects a ret) :
      Acts (.interpretEffect id (.transient effects) (.remove a) ret) .advance s
        (.next id (.transient effects) ret) none
  | taken (id slot shard ret row) (hshard : shard < s.directory.shardCount)
      (found : (s.directory.takeSlot slot shard).2 = some row) :
      Acts (.takeSlot id slot shard ret) .advance
        { s with directory := (s.directory.takeSlot slot shard).1 }
        (.retainRetired id slot row ret) none
  | takeNext (id slot shard ret) (hshard : shard < s.directory.shardCount)
      (found : (s.directory.takeSlot slot shard).2 = none) :
      Acts (.takeSlot id slot shard ret) .advance s (.takeSlot id slot (shard + 1) ret) none
  | takeOver (id slot shard ret) (hshard : s.directory.shardCount ≤ shard) :
      Acts (.takeSlot id slot shard ret) .advance s (.next id (.mapped slot) ret) none
  | retained (id slot row ret tasks) (free : s.tasksHolder = none)
      (htasks : s.tasks.retainRetired row (fun retirement => retirement.slot = some slot)
        = some tasks) : Acts (.retainRetired id slot row ret) .advance { s with tasks := tasks }
        (.next id (.mapped slot) ret) none
  -- `spawn_owned`
  | begun (task cont tasks)
      (free : s.tasksHolder = none) (htasks : s.tasks.begin s.fresh = some tasks) :
      Acts (.begin task cont) .advance
        { s with tasks := tasks, fresh := s.fresh + 1 } (.spawn task cont) none
  | spawned (task cont) : Acts (.spawn task cont) .advance s (.track fresh cont) (some (.task task))
  | tracked (handle cont tasks)
      (free : s.tasksHolder = none) (htasks : s.tasks.track handle = some tasks) :
      Acts (.track handle cont) .advance { s with tasks := tasks } cont.pc none
  -- the tasks
  | activated (id slot a endpoint lease) :
      Acts (.task (.activation id (some slot) a)) (.activated (.ok (endpoint, lease)))
        { s with live := (id, a) :: s.live }
        (.submit id slot (.activationSucceeded a endpoint lease) (.task .finish)) none
  | unactivated (id slot a error) :
      Acts (.task (.activation id (some slot) a)) (.activated (.error error)) s
        (.submit id slot (.activationFailed a) (.task (.diagnose id slot a error))) none
  | delivered (id slot a d endpoint pending) :
      Acts (.task (.delivery id slot a d endpoint pending)) (.delivered (.ok ()))
        { s with replies := (pending.publisher, .ok ()) :: s.replies }
        (submitOwned id slot (.deliveryResolved a none) fun _ => .finish) none
  | undelivered (id slot a d endpoint pending command) :
      Acts (.task (.delivery id (some slot) a d endpoint pending)) (.delivered (.error command)) s
        (.submit id slot (.deliveryResolved a (some (d, { pending with command := command })))
          (.task .finish)) none
  | undeliverable (id a d endpoint pending command) :
      Acts (.task (.delivery id none a d endpoint pending))
        (.delivered (.error command)) (s.reject { pending with command := command } .unavailable)
        (.finish .returned) none
  | fenced (id slot a endpoint result) : Acts (.task (.fence id slot a endpoint)) (.fenced result) s
        (submitOwned id slot (fenceFact a result) fun _ => .finish) none
  | closedFenced (id slot a endpoint lease result) :
      Acts (.task (.closedFence id slot a endpoint lease)) (.fenced result) s
        (.task (.retire id (some slot) a lease (closedMode result))) none
  | retired (id slot a lease mode) : Acts (.task (.retire id slot a lease mode)) (.retired (.ok ()))
        { s with live := s.live.erase (id, a) } (terminated id slot a mode) none
  | unretired (id slot a lease mode failure) :
      Acts (.task (.retire id slot a lease mode)) (.retired (.error failure))
        { s with live := s.live.erase (id, a) }
        (.retirementFailed ⟨id, slot, a, mode, failure⟩) none
  | aborted (task failure) :
      Acts (.task task) (.aborted failure) s (.finish (.died task failure)) none
  | recorded (r tasks) (free : s.tasksHolder = none)
      (htasks : s.tasks.retirementFailed r = some tasks) :
      Acts (.retirementFailed r) .advance { s with tasks := tasks }
        (terminated r.id r.slot r.activationId r.mode) none
  | diagnosed (id slot a error) :
      Acts (.diagnose id slot a error) .advance s (.finish .returned) none
  | diagnoseAborted (id slot a error failure) :
      Acts (.diagnose id slot a error) (.aborted failure) s
        (.finish (.died (.activation id (some slot) a) failure)) none
  | retirementCompleted (slot mode x publication) (hx : s.directory.slots[slot]? = some x)
      (hp : x.execution.retirement = some publication) :
      Acts (.completeRetirement slot mode) .advance (s.put slot x x.execution.completeRetirement.1)
        (.publishRetirement publication mode) none
  | unobserved (slot mode x)
      (hx : s.directory.slots[slot]? = some x) (hp : x.execution.retirement = none) :
      Acts (.completeRetirement slot mode) .advance
        (s.put slot x x.execution.completeRetirement.1) (.finish .returned) none
  | retirementPublished (publication mode) : Acts (.publishRetirement publication mode) .advance
        { s with retirements := (publication, mode) :: s.retirements } (.finish .returned) none
  | finishedLast (ending tasks epoch)
      (free : s.tasksHolder = none) (htasks : s.tasks.finish = some (tasks, some epoch)) :
      Acts (.finish ending) .advance { s with tasks := tasks } (.publishIdle epoch ending) none
  | finished (ending tasks) (free : s.tasksHolder = none)
      (htasks : s.tasks.finish = some (tasks, none)) :
      Acts (.finish ending) .advance { s with tasks := tasks } (.exit ending) none
  | idlePublished (epoch ending) : Acts (.publishIdle epoch ending) .advance
        { s with epochs := epoch :: s.epochs } (.exit ending) none
  | exited (ending) : Acts (.exit ending) .advance
        { s with joinable := (self, ending.failure?) :: s.joinable } (.ended ending) none
  -- `EntityRuntime::shutdown`
  | closed (free : s.holder = none) :
      Acts .shutdown .advance { s with admission := .closed } .claim none
  | claimed (tasks) (free : s.tasksHolder = none) (htasks : s.tasks.claim = some tasks) :
      Acts .claim .advance { s with tasks := tasks } (.waitIdle ⟨[], []⟩ false) none
  | alreadyClaimed (free : s.tasksHolder = none) (htasks : s.tasks.claim = none) :
      Acts .claim .advance s (.returned (.shutdown .alreadyClaimed)) none
  | waiting (claim again epoch) (free : s.tasksHolder = none)
      (active : s.tasks.idleEpoch? = some epoch) :
      Acts (.waitIdle claim again) .advance s (.idle claim again epoch) none
  | waited (claim again) (free : s.tasksHolder = none) (idle : s.tasks.idleEpoch? = none) :
      Acts (.waitIdle claim again) .advance s (.takeTasks claim again) none
  | woken (claim again epoch) (ready : epoch ∈ s.epochs) :
      Acts (.idle claim again epoch) .advance s (.waitIdle claim again) none
  | idleDropped (claim again epoch alive) :
      Acts (.idle claim again epoch) (.dropped alive) s (.dropClaim claim) none
  | tookTasks (claim again tasks records) (free : s.tasksHolder = none)
      (htasks : s.tasks.takeTasks = some (tasks, records)) :
      Acts (.takeTasks claim again) .advance { s with tasks := tasks }
        (.join { claim with tasks := claim.tasks ++ records } again 0) none
  | joined (claim again index handle) (running : claim.tasks[index]? = some (.running handle))
      (ended : s.joinable.lookup handle = some none) : Acts (.join claim again index) .advance s
        (.join { claim with tasks := claim.tasks.set index .joined } again (index + 1)) none
  | joinFailed (claim again index handle failure)
      (running : claim.tasks[index]? = some (.running handle))
      (ended : s.joinable.lookup handle = some (some failure)) :
      Acts (.join claim again index) .advance s
        (.join { claim with tasks := claim.tasks.set index (.failed failure) } again (index + 1))
        none
  | joinSkipped (claim again index record) (hrecord : claim.tasks[index]? = some record)
      (ended : ∀ handle, record ≠ .running handle) :
      Acts (.join claim again index) .advance s (.join claim again (index + 1)) none
  | joinedFirst (claim index) (ended : claim.tasks[index]? = none) :
      Acts (.join claim false index) .advance s (.recordDrain claim) none
  | joinedAgain (claim index) (ended : claim.tasks[index]? = none) :
      Acts (.join claim true index) .advance s (.hasPending claim claim.rows) none
  | joinDropped (claim again index handle alive)
      (running : claim.tasks[index]? = some (.running handle)) :
      Acts (.join claim again index) (.dropped alive) s (.dropClaim claim) none
  | drainStarted (claim state) (free : s.tasksHolder = none)
      (opened : s.tasks = .opened state) (hdrain : state.drain = .notStarted) :
      Acts (.recordDrain claim) .advance { s with tasksHolder := some self }
        (.takeFamily claim 0 []) none
  | drainedBefore (claim state represented rows)
      (free : s.tasksHolder = none) (opened : s.tasks = .opened state)
      (hdrain : state.drain = .started represented rows) :
      Acts (.recordDrain claim) .advance s (.rows claim) none
  | drainedShard (claim shard rows) (hshard : shard < s.directory.shardCount) :
      Acts (.takeFamily claim shard rows) .advance
        { s with directory := (s.directory.drainShard shard).1 }
        (.takeFamily claim (shard + 1) (rows ++ s.directory.shards shard)) none
  | drained (claim shard rows tasks) (hshard : s.directory.shardCount ≤ shard)
      (htasks : s.tasks.recordDrain rows = some tasks) :
      Acts (.takeFamily claim shard rows) .advance
        { s with tasks := tasks, tasksHolder := none } (.rows claim) none
  | copied (claim rows) (free : s.tasksHolder = none) (hrows : s.tasks.rows = some rows) :
      Acts (.rows claim) .advance s (.closeSlots { claim with rows := rows } rows) none
  | familyClosed (claim id slot rest x) (hx : s.directory.slots[slot]? = some x) :
      Acts (.closeSlots claim ((id, slot) :: rest)) .advance
        (s.put slot x x.execution.closeFamily.1)
        (.acquire id slot (.closeSlot claim id slot x.execution.closeFamily.2 rest)) none
  | allClosed (claim) : Acts (.closeSlots claim []) .advance s (.waitIdle claim true) none
  | pendingNone (claim id slot rest x) (hx : s.directory.slots[slot]? = some x)
      (empty : x.execution.pending = []) : Acts (.hasPending claim ((id, slot) :: rest)) .advance s
        (.hasPending claim rest) none
  | pendingSome (claim id slot rest x) (hx : s.directory.slots[slot]? = some x)
      (some : x.execution.pending ≠ []) : Acts (.hasPending claim ((id, slot) :: rest)) .advance s
        (.sweep claim claim.rows) none
  | allEmpty (claim) : Acts (.hasPending claim []) .advance s (.complete claim) none
  | swept (claim id slot rest) : Acts (.sweep claim ((id, slot) :: rest)) .advance s
        (.acquire id slot (.sweep claim rest)) none
  | allSwept (claim) : Acts (.sweep claim []) .advance s (.waitIdle claim true) none
  | completed (claim failures tasks represented rows retirements) (free : s.tasksHolder = none)
      (hfailures : EntityTaskState.failures claim.tasks = some failures)
      (htasks : s.tasks.complete = some (tasks, represented, rows, retirements)) :
      Acts (.complete claim) .advance { s with tasks := tasks }
        (.closeGroup represented rows retirements failures) none
  | groupClosed (represented rows retirements failures tasks) (free : s.tasksHolder = none)
      (htasks : s.tasks.close = some tasks) :
      Acts (.closeGroup represented rows retirements failures) .advance
        { s with tasks := tasks } (.report represented rows retirements failures []) none
  | reportedRow (represented id slot rows retirements failures entities x)
      (hx : s.directory.slots[slot]? = some x) :
      Acts (.report represented ((id, slot) :: rows) retirements failures entities) .advance s
        (.report represented rows (retirements.partition (·.slot = some slot)).2 failures
          (entities ++ [⟨id, x.execution.retirementDisposition,
            (retirements.partition (·.slot = some slot)).1.map fun r =>
              (r.activationId, r.mode, r.failure)⟩])) none
  | reported (represented retirements failures entities)
      (unmapped : retirements.all (·.slot.isNone)) :
      Acts (.report represented [] retirements failures entities) .advance s
        (.returned (.shutdown (.classify represented (entities ++ retirements.map fun r =>
          ⟨r.id, .ok (), [(r.activationId, r.mode, r.failure)]⟩) failures))) none
  | claimDropped (claim) (free : s.tasksHolder = none) : Acts (.dropClaim claim) .advance
        { s with tasks := s.tasks.dropClaim claim.tasks } (.returned .cancelled) none
  | panic (p i) (h : p.Panics s) : Acts p i s (.panicked p) none

end Rules

/-! ## The code makes only these -/

variable {p : Pc R}

theorem of_goto {s' : Shared R} {p' : Pc R} {q}
    (h : goto s p = some (s', p', q)) : s' = s ∧ p' = p ∧ q = none := by
  obtain ⟨rfl, hrest⟩ := Prod.mk.inj (Option.some.inj h)
  obtain ⟨rfl, rfl⟩ := Prod.mk.inj hrest
  exact ⟨rfl, rfl, rfl⟩

variable {refused : Outcome R} {body : Shared R → Section R} {r : Shared R × Pc R × Option (Pc R)}

/-- A call that enters family admission found nobody in it; it is refused, or it has entered. -/
theorem of_enter {self : ℕ} (h : enter s self refused body = some r) : s.holder = none ∧
      (s.admission = .closed ∧ goto s (.returned refused) = some r ∨
        s.admission = .opened ∧ body { s with holder := some self } = some r) := by
  rw [enter] at h
  split at h
  · cases h
  · next hh ha => exact ⟨hh, .inl ⟨ha, h⟩⟩
  · next hh ha => exact ⟨hh, .inr ⟨ha, h⟩⟩

variable {α : Type}

theorem of_lockSlot {body : SlotExecution R → SlotExecution R × α} {cont : Shared R → α → Section R}
    (h : lockSlot s slot body cont = some r) : ∃ x, s.directory.slots[slot]? = some x ∧
      cont (s.put slot x (body x.execution).1) (body x.execution).2 = some r := by
  rw [lockSlot, LocalDirectory.locked] at h
  cases hx : s.directory.slots[slot]? with
  | none => simp [hx] at h
  | some x =>
    rw [hx] at h
    exact ⟨x, rfl, h⟩

variable {result : Option α} {cont : α → Section R}

/-- A section of the task group found it free; it panicked, or it had a result. -/
theorem of_lockTasks (h : lockTasks s p result cont = some r) : s.tasksHolder = none ∧
      (result = none ∧ goto s (.panicked p) = some r ∨ ∃ a, result = some a ∧ cont a = some r) := by
  rw [lockTasks.eq_def] at h
  split at h
  · cases h
  · next hh => exact ⟨hh, .inl ⟨rfl, h⟩⟩
  · next a hh => exact ⟨hh, .inr ⟨a, rfl, h⟩⟩

variable [DecidableEq R.Id] {s s' : Shared R} {self fresh : ℕ} {p p' : Pc R} {q : Option (Pc R)}
  {i : Input R}

/-! A section is a rule when its end is one, whichever lock it takes first. -/

theorem acts_goto {u : Shared R} {r : Pc R} (h : goto u r = some (s', p', q))
    (ha : Acts s self fresh p i u r none) : Acts s self fresh p i s' p' q := by
  obtain ⟨rfl, rfl, rfl⟩ := of_goto h
  exact ha

theorem acts_enter (h : enter s self refused body = some (s', p', q))
    (hrefused : s.holder = none → s.admission = .closed →
      Acts s self fresh p i s (.returned refused) none)
    (hentered : s.holder = none → s.admission = .opened →
      body { s with holder := some self } = some (s', p', q) → Acts s self fresh p i s' p' q) :
    Acts s self fresh p i s' p' q := by
  obtain ⟨free, ⟨ha, h⟩ | ⟨ha, h⟩⟩ := of_enter h
  · exact acts_goto h (hrefused free ha)
  · exact hentered free ha h

theorem acts_lockTasks
    (h : lockTasks s p result cont = some (s', p', q)) (hpanic : result = none → p.Panics s)
    (hdone : ∀ a, s.tasksHolder = none → result = some a → cont a = some (s', p', q) →
      Acts s self fresh p i s' p' q) : Acts s self fresh p i s' p' q := by
  obtain ⟨free, ⟨hnone, h⟩ | ⟨a, ha, h⟩⟩ := of_lockTasks h
  · exact acts_goto h (.panic p i (hpanic hnone))
  · exact hdone a free ha h

theorem interpretEffect_acts {id : R.Id} {source} {ret : Return R}
    {effect : R.Effect} (h : interpretEffect s id source ret effect = some (s', p', q)) :
    Acts s self fresh (.interpretEffect id source effect ret) .advance s' p' q := by
  cases effect with
  | startActivation a =>
    simp only [interpretEffect, effectTask] at h
    split at h
    · next hclosed => exact acts_goto h (.skipped id source a ret hclosed)
    · next hclosed =>
      exact acts_goto h (.scheduled id source _ ret _ (fun _ _ => by simpa using hclosed) rfl)
  | reject d pending reason => exact acts_goto h (.rejected id source d pending reason ret)
  | remove a =>
    cases source with
    | mapped slot => exact acts_goto h (.removing id slot a ret)
    | transient effects => exact acts_goto h (.removeAbsent id effects a ret)
  | deliver | enqueueFence | retire =>
    exact acts_goto h (.scheduled id source _ ret _ (fun _ he => by cases he) rfl)

theorem advance_acts (h : advance s self fresh p = some (s', p', q)) :
    Acts s self fresh p .advance s' p' q := by
  rw [advance.eq_def] at h
  split at h
  -- `admit`
  · exact acts_enter h (.admitRefused _ _ _) fun free ha h =>
      acts_goto h (.admitEntered _ _ _ free ha)
  · split at h
    · next full => exact acts_goto h (.dispatchExhausted _ _ full)
    · next new => exact acts_goto h (.dispatched _ _ _ _ new)
  · split at h
    · next hit => exact acts_goto h (.routeHit _ _ _ _ hit)
    · next miss =>
      split at h
      · next full => exact acts_goto h (.routeExhausted _ _ _ miss full)
      · next claimed => exact acts_goto h (.routeClaimed _ _ _ _ _ _ miss claimed)
  · split at h
    · next ready => exact acts_goto h (.replied _ _ _ _ _ ready)
    · cases h
  · exact acts_enter h (.dropRefused _ _ _) fun free ha h =>
      acts_goto h (.dropEntered _ _ _ free ha)
  -- `passivate`
  · exact acts_enter h (.passivateRefused _) fun free ha h =>
      acts_goto h (.passivateEntered _ free ha)
  · split at h
    · next hit => exact acts_goto h (.currentFound _ _ hit)
    · next miss => exact acts_goto h (.currentMissing _ miss)
  · obtain ⟨x, hx, h⟩ := of_lockSlot h
    simp only [Shared.put_self hx] at h
    split at h
    · next ha => exact acts_goto h (.activationFound _ _ x _ hx ha)
    · next ha => exact acts_goto h (.activationMissing _ _ x hx ha)
  -- `retire_entity`
  · exact acts_enter h (.retireRefused _) fun free ha h => acts_goto h (.retireEntered _ free ha)
  · split at h
    · next hit => exact acts_goto h (.retirementFound _ _ hit)
    · next miss => exact acts_goto h (.retirementMissing _ miss)
  · obtain ⟨x, hx, h⟩ := of_lockSlot h
    split at h
    · next hb => exact acts_goto h (.retirementBegun _ _ x _ _ _ hx (Prod.ext rfl hb))
    · next hb => exact acts_goto h (.retirementRefused _ _ x _ _ hx (Prod.ext rfl hb))
  · split at h
    · next ready => exact acts_goto h (.observed _ _ ready)
    · cases h
  · exact acts_goto h (.released _)
  -- submitting to a slot and interpreting its effects
  · split at h
    · next hit => exact acts_goto h (.located _ _ _ _ hit)
    · next miss => exact acts_goto h (.absent _ _ _ miss)
  · obtain ⟨x, hx, h⟩ := of_lockSlot h
    exact acts_goto h (.submitted _ _ _ _ x hx)
  · obtain ⟨x, hx, h⟩ := of_lockSlot h
    refine acts_goto h ?_
    cases hd : x.execution.dispatch with
    | idle =>
      rw [if_pos (by rw [SlotExecution.acquire_idle hd])]
      exact .acquired _ _ _ x hx hd
    | dispatching =>
      rw [SlotExecution.acquire_dispatching hd, Shared.put_self hx]
      exact .busy _ _ _ x hx hd
  · obtain ⟨x, hx, h⟩ := of_lockSlot h
    cases hp : x.execution.pending with
    | nil =>
      rw [show x.execution.next.2 = none by rw [SlotExecution.next_nil hp]] at h
      exact acts_goto h (.emptied _ _ _ x hx hp)
    | cons effect =>
      rw [show x.execution.next.2 = some effect by rw [SlotExecution.next_cons hp]] at h
      exact acts_goto h (.popped _ _ _ x _ _ hx hp)
  · exact acts_goto h (.transientNext _ _ _ _)
  · exact acts_goto h (.transientDone _ _)
  · exact interpretEffect_acts h
  · split at h
    · next hshard =>
      split at h
      · next htake =>
        obtain ⟨rfl, hrow⟩ := Prod.mk.inj htake
        exact acts_goto h (.taken _ _ _ _ _ hshard hrow)
      · next htake => exact acts_goto h (.takeNext _ _ _ _ hshard (congrArg Prod.snd htake))
    · next hshard => exact acts_goto h (.takeOver _ _ _ _ (by omega))
  · exact acts_lockTasks h id fun _ free ha h => acts_goto h (.retained _ _ _ _ _ free ha)
  -- `spawn_owned`
  · exact acts_lockTasks h id fun _ free ha h => acts_goto h (.begun _ _ _ free ha)
  · obtain ⟨rfl, hrest⟩ := Prod.mk.inj (Option.some.inj h)
    obtain ⟨rfl, rfl⟩ := Prod.mk.inj hrest
    exact .spawned _ _
  · exact acts_lockTasks h id fun _ free ha h => acts_goto h (.tracked _ _ _ free ha)
  · cases h
  -- the ends of the tasks
  · exact acts_lockTasks h id fun _ free ha h => acts_goto h (.recorded _ _ free ha)
  · exact acts_goto h (.diagnosed _ _ _ _)
  · obtain ⟨x, hx, h⟩ := of_lockSlot h
    split at h
    · next hp => exact acts_goto h (.retirementCompleted _ _ x _ hx hp)
    · next hp => exact acts_goto h (.unobserved _ _ x hx hp)
  · exact acts_goto h (.retirementPublished _ _)
  · refine acts_lockTasks h id fun ⟨tasks, epoch⟩ free ha h => acts_goto h ?_
    cases epoch with
    | none => exact .finished _ tasks free ha
    | some epoch => exact .finishedLast _ tasks epoch free ha
  · exact acts_goto h (.idlePublished _ _)
  · exact acts_goto h (.exited _)
  -- `shutdown`
  · split at h
    · cases h
    · next free => exact acts_goto h (.closed free)
  · split at h
    · cases h
    · next free htasks => exact acts_goto h (.claimed _ free htasks)
    · next free htasks => exact acts_goto h (.alreadyClaimed free htasks)
  · refine acts_lockTasks h nofun fun epoch free ha h => ?_
    cases epoch with
    | none => exact acts_goto h (.waited _ _ free (Option.some.inj ha))
    | some epoch => exact acts_goto h (.waiting _ _ epoch free (Option.some.inj ha))
  · split at h
    · next ready => exact acts_goto h (.woken _ _ _ ready)
    · cases h
  · exact acts_lockTasks h id fun _ free ha h => acts_goto h (.tookTasks _ _ _ _ free ha)
  · split at h
    · next running =>
      split at h
      · next ended => exact acts_goto h (.joined _ _ _ _ running ended)
      · next ended => exact acts_goto h (.joinFailed _ _ _ _ _ running ended)
      · cases h
    · next hover hrecord => exact acts_goto h (.joinSkipped _ _ _ _ hrecord hover)
    · next again _ _ ended =>
      refine acts_goto h ?_
      cases again with
      | false => exact .joinedFirst _ _ ended
      | true => exact .joinedAgain _ _ ended
  · cases htasks : s.tasks with
    | closed => exact acts_lockTasks h (fun _ => htasks) fun _ _ ha => by simp [htasks] at ha
    | opened state =>
      refine acts_lockTasks h (fun hnone => by simp [htasks] at hnone) fun drain free ha h => ?_
      obtain rfl : state.drain = drain := by simpa [htasks] using ha
      cases hd : state.drain with
      | notStarted =>
        rw [hd] at h
        exact acts_goto h (.drainStarted _ state free htasks hd)
      | started represented rows =>
        rw [hd] at h
        exact acts_goto h (.drainedBefore _ state represented rows free htasks hd)
  · split at h
    · next hshard => exact acts_goto h (.drainedShard _ _ _ hshard)
    · next hshard =>
      split at h
      · next htasks => exact acts_goto h (.drained _ _ _ _ (by omega) htasks)
      · next hnone => exact acts_goto h (.panic _ _ hnone)
  · exact acts_lockTasks h id fun _ free ha h => acts_goto h (.copied _ _ free ha)
  · obtain ⟨x, hx, h⟩ := of_lockSlot h
    exact acts_goto h (.familyClosed _ _ _ _ x hx)
  · exact acts_goto h (.allClosed _)
  · obtain ⟨x, hx, h⟩ := of_lockSlot h
    simp only [Shared.put_self hx] at h
    refine acts_goto h ?_
    cases hp : x.execution.pending with
    | nil => exact .pendingNone _ _ _ _ x hx hp
    | cons => exact .pendingSome _ _ _ _ x hx (by simp [hp])
  · exact acts_goto h (.allEmpty _)
  · exact acts_goto h (.swept _ _ _ _)
  · exact acts_goto h (.allSwept _)
  · split at h
    · next hnone => exact acts_goto h (.panic _ _ (.inl hnone))
    · next hfail =>
      exact acts_lockTasks h .inr fun _ free ha h =>
        acts_goto h (.completed _ _ _ _ _ _ free hfail ha)
  · exact acts_lockTasks h id fun _ free ha h => acts_goto h (.groupClosed _ _ _ _ _ free ha)
  · obtain ⟨x, hx, h⟩ := of_lockSlot h
    simp only [Shared.put_self hx] at h
    exact acts_goto h (.reportedRow _ _ _ _ _ _ _ x hx)
  · split at h
    · next unmapped => exact acts_goto h (.reported _ _ _ _ unmapped)
    · next mapped => exact acts_goto h (.panic _ _ ⟨rfl, mapped⟩)
  · refine acts_lockTasks h nofun fun tasks free ha h => ?_
    obtain rfl := Option.some.inj ha
    exact acts_goto h (.claimDropped _ free)
  all_goals cases h

theorem resolve_acts {task : Task R} (h : resolve s task i = some (s', p', q)) :
    Acts s self fresh (.task task) i s' p' q := by
  rw [resolve.eq_def] at h
  split at h
  · exact acts_goto h (.activated _ _ _ _ _)
  · exact acts_goto h (.unactivated _ _ _ _)
  · exact acts_goto h (.panic _ _ rfl)
  · exact acts_goto h (.delivered _ _ _ _ _ _)
  · exact acts_goto h (.undelivered _ _ _ _ _ _ _)
  · exact acts_goto h (.undeliverable _ _ _ _ _ _)
  · exact acts_goto h (.fenced _ _ _ _ _)
  · exact acts_goto h (.closedFenced _ _ _ _ _ _)
  · exact acts_goto h (.retired _ _ _ _ _)
  · exact acts_goto h (.unretired _ _ _ _ _ _)
  · cases h

theorem abort_acts {failure} (h : abort s failure p = some (s', p', q)) :
    Acts s self fresh p (.aborted failure) s' p' q := by
  rw [abort.eq_def] at h
  split at h
  · exact acts_goto h (.aborted _ _)
  · exact acts_goto h (.diagnoseAborted _ _ _ _ _)
  · cases h

theorem cancel_acts {alive : Bool} (h : cancel s alive p = some (s', p', q)) :
    Acts s self fresh p (.dropped alive) s' p' q := by
  rw [cancel.eq_def] at h
  split at h
  · refine acts_goto h ?_
    cases alive with
    | false => exact .waitCancelled _ _ _ _ _ (.inr rfl)
    | true => exact .waitDropped _ _ _ _
  · exact acts_goto h (.waitCancelled _ _ _ _ _ (.inl rfl))
  · exact acts_goto h (.observeDropped _ _)
  · exact acts_goto h (.idleDropped _ _ _ _)
  · split at h
    · next running => exact acts_goto h (.joinDropped _ _ _ _ _ running)
    · cases h
  · cases h

/-- **Every section follows one of the rules.** -/
theorem act_acts (h : act s self fresh p i = some (s', p', q)) : Acts s self fresh p i s' p' q := by
  rw [act.eq_def] at h
  split at h
  · exact advance_acts h
  · exact abort_acts h
  · exact cancel_acts h
  · exact resolve_acts h
  · cases h

variable {w : Pool (Shared R) (Pc R)}

/-- What a step of the runtime can be: a call from outside, or a section of one of the threads. -/
theorem EntityRuntime.step_cases {w'} {a} (h : EntityRuntime.step w a = some w') :
    (∃ p, a = .call p ∧ p.isCall ∧ w' = ⟨w.shared, w.threads ++ [p]⟩) ∨
    ∃ t i p s p' q, a = .run t i ∧ w.threads[t]? = some p ∧
      Acts w.shared t w.threads.length p i s p' q ∧
      w' = ⟨s, w.threads.set t p' ++ q.toList⟩ := by
  rcases Pool.step_cases h with hcall | ⟨t, i, p, s, p', q, ha, hp, hcode, hw⟩
  · exact .inl hcall
  · exact .inr ⟨t, i, p, s, p', q, ha, hp, act_acts hcode, hw⟩

/-! ## Invariants of the runtime -/

abbrev RuntimeHistory (R : LocalEntityRuntime) :=
  List (Transition (Pool (Shared R) (Pc R)) (Schedule (Pc R) (Input R)))

/-- A runtime reaches `w` by the history `tr`. -/
abbrev Reaches (config : DirectoryConfig) (hash : R.Id → ℕ) (tr : RuntimeHistory R)
    (w : Pool (Shared R) (Pc R)) : Prop :=
  Run EntityRuntime.step (EntityRuntime.new config hash) tr w

/-- **The invariant rule of the runtime**: what holds before the first call, and is kept by every
new call and by every section, holds always. -/
@[elab_as_elim]
theorem Reaches.invariant {config} {hash : R.Id → ℕ} {tr}
    {P : Pool (Shared R) (Pc R) → Prop}
    (h : Reaches config hash tr w) (h0 : P (EntityRuntime.new config hash))
    (hcall : ∀ w p, P w → p.isCall → P ⟨w.shared, w.threads ++ [p]⟩)
    (hact : ∀ tr w t i p s p' q, Reaches config hash tr w → P w → w.threads[t]? = some p →
      Acts w.shared t w.threads.length p i s p' q → P ⟨s, w.threads.set t p' ++ q.toList⟩) : P w :=
  Pool.invariant h h0 (fun _ w p _ hw hp => hcall w p hw hp)
    fun tr w t i p s p' q hrun hw hp hcode => hact tr w t i p s p' q hrun hw hp (act_acts hcode)

end Entity
