import Bombay.Machine.Pool

/-!
# One completion slot and everybody who waits for it

A slot publishes one outcome.  Its word holds the bits `COMPLETED`, `HAS_WAITER` and
`OUTCOME_VALID`; a mutex guards the list of those who want to be told.  The two are not one lock:
the word is read and written while somebody else is inside the mutex, so every access to it is a
section of its own here, and the mutex has a holder where an access to the word happens under it.

Waiters come in three kinds.  A *future* registers the waker of its last poll, migrates it when it
is polled by another task, and takes it back when it is dropped.  `register_waker` leaves a waker
behind for good.  A blocked *thread* pushes itself, looks again, and parks.

A waker stands for the task it wakes: `will_wake` is equality, and a clone is the same waker.  A
park may return without having been asked to, so a token left over from elsewhere needs no mention.
-/

set_option autoImplicit false

namespace Observe

open Machine

/-! ## The waiters -/

/-- Who owns the entry of a waker. -/
inductive WakerOwnership
  | futures (owners : { n : ℕ // 0 < n })
  | persistent (futureOwners : ℕ)
  deriving DecidableEq

/-- An entry of the registry. -/
inductive Waiter (W : Type)
  | thread (id : ℕ)
  | waker (waker : W) (ownership : WakerOwnership)
  deriving DecidableEq

namespace WakerOwnership

/-- The futures that own the entry. -/
def owners : WakerOwnership → ℕ
  | futures n => n.1
  | persistent n => n

/-- One more future joins the entry. -/
def join : WakerOwnership → WakerOwnership
  | futures n => futures ⟨n.1 + 1, Nat.succ_pos _⟩
  | persistent n => persistent (n + 1)

/-- `register_waker` joins the entry. -/
def persist : WakerOwnership → WakerOwnership
  | futures n => persistent n.1
  | persistent n => persistent n

/-- One future leaves the entry.  The inner `none` removes it; the outer one is the failed
expectation "future waker ownership was not registered". -/
def leave : WakerOwnership → Option (Option WakerOwnership)
  | futures n => some (if h : 1 < n.1 then some (futures ⟨n.1 - 1, Nat.sub_pos_of_lt h⟩) else none)
  | persistent 0 => none
  | persistent (n + 1) => some (some (persistent n))

end WakerOwnership

variable {W O : Type}

namespace Waiters

/-- Push a waiter unless it is the last one already. -/
def pushThread (id : ℕ) (waiters : List (Waiter W)) : List (Waiter W) :=
  match waiters.getLast? with
  | some (.thread last) => if last = id then waiters else waiters ++ [.thread id]
  | _ => waiters ++ [.thread id]

/-- `waiters.retain` of a thread that leaves. -/
def removeThread (id : ℕ) (waiters : List (Waiter W)) : List (Waiter W) :=
  waiters.filter fun
    | .thread other => other ≠ id
    | .waker .. => true

variable [DecidableEq W]

/-- Join the entry of a waker, or push one. -/
@[simp] def join (next : W) : List (Waiter W) → List (Waiter W)
  | [] => [.waker next (.futures ⟨1, Nat.one_pos⟩)]
  | .thread id :: rest => .thread id :: join next rest
  | .waker w ownership :: rest =>
    if w = next then .waker w ownership.join :: rest else .waker w ownership :: join next rest

/-- The registration of `register_waker`. -/
@[simp] def persist (waker : W) : List (Waiter W) → List (Waiter W)
  | [] => [.waker waker (.persistent 0)]
  | .thread id :: rest => .thread id :: persist waker rest
  | .waker w ownership :: rest =>
    if w = waker then .waker w ownership.persist :: rest
    else .waker w ownership :: persist waker rest

/-- `Slot::remove_future_waker_owner`. -/
def removeOwner (target : W) : List (Waiter W) → Option (List (Waiter W))
  | [] => some []
  | .thread id :: rest => (removeOwner target rest).map (.thread id :: ·)
  | .waker w ownership :: rest =>
    if w = target then
      match ownership.leave with
      | none => none
      | some none => some rest
      | some (some ownership) => some (.waker w ownership :: rest)
    else (removeOwner target rest).map (.waker w ownership :: ·)

end Waiters

/-! ## Places -/

/-- `Poll`, or the panic of a poll. -/
inductive Poll (O : Type)
  | ready (outcome : O)
  | pending
  | panicked

/-- The calls that may leave a waiter. -/
inductive Call (W : Type)
  /-- A poll, with the waker the future has registered and the one of its context. -/
  | poll (waker : Option W) (cx : W)
  | register (waker : W)
  /-- `wait`, or `wait_timeout`. -/
  | wait (timed : Bool)

/-- Whether the observations are cloneable or the one affine one. -/
inductive Flavor
  | shared
  | affine
  deriving DecidableEq

/-- Where a thread of the slot is. -/
inductive Place (W O : Type)
  -- `Slot::complete`
  | publisher
  | complete (outcome : O)
  | store (outcome : O)
  | mark
  | drain
  | notify (rest : List (Waiter W)) (panicked : Bool)
  | completed (panicked : Bool)
  | completedTwice
  -- the calls that may leave a waiter
  | entry (call : Call W)
  | update (waker : Option W) (cx : W)
  | announce (call : Call W)
  | lock (call : Call W)
  | push (timed : Bool)
  | recheck (call : Call W)
  | install (call : Call W)
  | last (waker : Option W) (cx : W)
  | take (waker : Option W)
  | park (timed : Bool)
  | expire
  -- between calls and after them
  | future (waker : Option W) (result : Option (Poll O))
  | deregister (waker : W)
  | dropped
  | registered (waker : W)
  | observed
  | thread (result : Option O)
  /-- An expectation failed that nobody can break from outside. -/
  | failed

/-- The slot, with the holder of its mutex, the park tokens of the threads, and the wakers that
`complete` has woken. -/
structure Slot (W O : Type) where
  completed : Bool
  hasWaiter : Bool
  outcomeValid : Bool
  outcome : Option O
  waiters : List (Waiter W)
  holder : Option ℕ
  tokens : ℕ → Bool
  woken : List W

/-- A slot before its publication. -/
def Slot.new : Slot W O where
  completed := false
  hasWaiter := false
  outcomeValid := false
  outcome := none
  waiters := []
  holder := none
  tokens _ := false
  woken := []

/-- What the surroundings contribute to a section. -/
inductive Input (W O : Type)
  | advance
  /-- The owner of the publication calls `complete`. -/
  | complete (outcome : O)
  | poll (cx : W)
  | dropFuture
  | wait (timed : Bool)
  /-- The deadline of `wait_timeout` has passed. -/
  | expired
  /-- A park returns without a token. -/
  | spurious
  /-- A waker panics when it is woken. -/
  | wakePanics

/-! ## The code -/

section Code

/-- What a section leaves: the slot, the thread, a new thread. -/
abbrev Section (W O : Type) := Option (Slot W O × Place W O × Option (Place W O))

/-- Only the place changes. -/
def goto (s : Slot W O) (p : Place W O) : Section W O := some (s, p, none)

/-- Leave the mutex. -/
def Slot.unlock (s : Slot W O) : Slot W O := { s with holder := none }

/-- A whole section under the mutex that does not touch the word. -/
def locked (s : Slot W O) (cont : Section W O) : Section W O :=
  match s.holder with
  | some _ => none
  | none => cont

/-- The outcome is read. -/
def Slot.read (s : Slot W O) (cont : O → Place W O) : Section W O :=
  goto s (match s.outcome with
    | some outcome => cont outcome
    | none => .failed)

/-- The end of a check of a poll that has seen `COMPLETED`. -/
def finishPoll (flavor : Flavor) (s : Slot W O) (waker : Option W) : Section W O :=
  match flavor with
  | .shared => s.read fun outcome => .future waker (some (.ready outcome))
  | .affine => goto s (.take waker)

variable [DecidableEq W]

/-- The change of the registry in `Slot::update_future_waker`. -/
def migrate (waiters : List (Waiter W)) (waker : Option W) (cx : W) : Option (List (Waiter W)) :=
  match waker with
  | none => some (Waiters.join cx waiters)
  | some previous =>
    if previous = cx then some waiters else Waiters.removeOwner previous (Waiters.join cx waiters)

/-- A section that needs nothing from outside. -/
def advance (flavor : Flavor) (s : Slot W O) (self : ℕ) : Place W O → Section W O
  -- `Slot::complete`
  | .complete outcome => goto s (if s.completed then .completedTwice else .store outcome)
  | .store outcome => goto { s with outcome := some outcome } .mark
  | .mark => goto { s with completed := true, outcomeValid := true }
      (if s.hasWaiter then .drain else .completed false)
  | .drain => locked s (goto { s with waiters := [] } (.notify s.waiters false))
  | .notify [] panicked => goto s (.completed panicked)
  | .notify (.thread id :: rest) panicked =>
    goto { s with tokens := Function.update s.tokens id true } (.notify rest panicked)
  | .notify (.waker waker _ :: rest) panicked =>
    goto { s with woken := waker :: s.woken } (.notify rest panicked)
  -- the first check of each call
  | .entry (.poll waker cx) =>
    if s.completed then finishPoll flavor s waker
    else goto s (if waker = some cx then .last waker cx else .update waker cx)
  | .entry (.register waker) =>
    goto s (if s.completed then .observed else .announce (.register waker))
  | .entry (.wait timed) =>
    if s.completed then s.read fun outcome => .thread (some outcome)
    else goto s (.announce (.wait timed))
  | .update waker cx =>
    goto s (if s.completed then .last waker cx else .announce (.poll waker cx))
  | .announce call => goto { s with hasWaiter := true } (.lock call)
  | .lock call =>
    locked s (goto { s with holder := some self }
      (match call with
        | .wait timed => .push timed
        | call => .recheck call))
  | .push timed =>
    goto { s with waiters := Waiters.pushThread self s.waiters } (.recheck (.wait timed))
  | .recheck (.poll waker cx) =>
    if s.completed then goto s.unlock (.last waker cx) else goto s (.install (.poll waker cx))
  | .recheck (.register waker) =>
    if s.completed then goto s.unlock .observed else goto s (.install (.register waker))
  | .recheck (.wait timed) =>
    if s.completed then
      { s.unlock with waiters := Waiters.removeThread self s.waiters }.read
        fun outcome => .thread (some outcome)
    else goto s (.install (.wait timed))
  | .install (.poll waker cx) =>
    match migrate s.waiters waker cx with
    | some waiters => goto { s.unlock with waiters := waiters } (.last (some cx) cx)
    | none => goto s.unlock .failed
  | .install (.register waker) =>
    goto { s.unlock with waiters := Waiters.persist waker s.waiters } (.registered waker)
  | .install (.wait timed) => goto s.unlock (.park timed)
  | .last waker _ =>
    if s.completed then finishPoll flavor s waker else goto s (.future waker (some .pending))
  | .take waker =>
    -- "completed observation polled after yielding its outcome"
    if s.outcomeValid then
      { s with outcomeValid := false }.read fun outcome => .future waker (some (.ready outcome))
    else goto s (.future waker (some .panicked))
  | .park timed =>
    if s.tokens self then
      goto { s with tokens := Function.update s.tokens self false } (.entry (.wait timed))
    else none
  | .expire =>
    locked s (goto { s with waiters := Waiters.removeThread self s.waiters } (.thread none))
  | .deregister waker =>
    locked s (match Waiters.removeOwner waker s.waiters with
      | some waiters => goto { s with waiters := waiters } .dropped
      | none => goto s .failed)
  | _ => none

theorem advance_recheck {flavor : Flavor} {s : Slot W O} {self : ℕ} (call : Call W)
    (h : s.completed = false) : advance flavor s self (.recheck call) = goto s (.install call) := by
  cases call <;> simp [advance, h]

/-- The code of everybody at a slot. -/
def act (flavor : Flavor) : Code (Slot W O) (Place W O) (Input W O) := fun s self _ p i =>
  match i, p with
  | .advance, p => advance flavor s self p
  | .complete outcome, .publisher | .complete outcome, .completed _ => goto s (.complete outcome)
  | .wakePanics, .notify (.waker waker _ :: rest) _ =>
    goto { s with woken := waker :: s.woken } (.notify rest true)
  | .poll cx, .future waker _ => goto s (.entry (.poll waker cx))
  | .dropFuture, .future none _ => goto s .dropped
  | .dropFuture, .future (some waker) _ => goto s (.deregister waker)
  | .wait timed, .thread _ => goto s (.entry (.wait timed))
  | .spurious, .park timed => goto s (.entry (.wait timed))
  | .expired, .park true => goto s .expire
  | _, _ => none

end Code

/-- Who may join: observers of a cloneable observation.  The affine observation is there from the
start. -/
def Place.joins (flavor : Flavor) : Place W O → Bool
  | .future none none | .thread none | .entry (.register _) => flavor = .shared
  | _ => false

/-- A slot with its publisher, and with the affine observation if there is one. -/
def start (flavor : Flavor) : Pool (Slot W O) (Place W O) :=
  ⟨.new, match flavor with
    | .shared => [.publisher]
    | .affine => [.publisher, .future none none]⟩

/-- One section of one thread. -/
def step [DecidableEq W] (flavor : Flavor) : Pool (Slot W O) (Place W O) →
    Schedule (Place W O) (Input W O) → Option (Pool (Slot W O) (Place W O)) :=
  Pool.step (Place.joins flavor) (act flavor)

/-! ## What a section does -/

variable [DecidableEq W]

section Rules

variable (flavor : Flavor) (s : Slot W O) (self : ℕ)

/-- The sections at a slot, by name. -/
inductive Acts : Place W O → Input W O → Slot W O → Place W O → Prop
  -- `Slot::complete`
  | called (p outcome) (owner : p = .publisher ∨ ∃ panicked, p = .completed panicked) :
      Acts p (.complete outcome) s (.complete outcome)
  | twice (outcome) (completed : s.completed) : Acts (.complete outcome) .advance s .completedTwice
  | asserted (outcome) (pending : s.completed = false) :
      Acts (.complete outcome) .advance s (.store outcome)
  | stored (outcome) : Acts (.store outcome) .advance { s with outcome := some outcome } .mark
  | marked (waiter : s.hasWaiter) :
      Acts .mark .advance { s with completed := true, outcomeValid := true } .drain
  | markedAlone (alone : s.hasWaiter = false) :
      Acts .mark .advance { s with completed := true, outcomeValid := true } (.completed false)
  | drained (free : s.holder = none) :
      Acts .drain .advance { s with waiters := [] } (.notify s.waiters false)
  | notified (panicked) : Acts (.notify [] panicked) .advance s (.completed panicked)
  | unparked (id rest panicked) : Acts (.notify (.thread id :: rest) panicked) .advance
        { s with tokens := Function.update s.tokens id true } (.notify rest panicked)
  | woke (waker ownership rest panicked panicked' i) (hi : i = .advance ∨ i = .wakePanics) :
      Acts (.notify (.waker waker ownership :: rest) panicked) i
        { s with woken := waker :: s.woken } (.notify rest panicked')
  -- futures
  | polled (waker result cx) : Acts (.future waker result) (.poll cx) s (.entry (.poll waker cx))
  | entryReady (waker cx outcome) (completed : s.completed)
      (shared : flavor = .shared) (read : s.outcome = some outcome) :
      Acts (.entry (.poll waker cx)) .advance s (.future waker (some (.ready outcome)))
  | entryTake (waker cx) (completed : s.completed) (affine : flavor = .affine) :
      Acts (.entry (.poll waker cx)) .advance s (.take waker)
  | entrySame (cx) (pending : s.completed = false) :
      Acts (.entry (.poll (some cx) cx)) .advance s (.last (some cx) cx)
  | entryUpdate (waker cx) (pending : s.completed = false) (new : waker ≠ some cx) :
      Acts (.entry (.poll waker cx)) .advance s (.update waker cx)
  | updateLate (waker cx) (completed : s.completed) :
      Acts (.update waker cx) .advance s (.last waker cx)
  | updated (waker cx) (pending : s.completed = false) :
      Acts (.update waker cx) .advance s (.announce (.poll waker cx))
  | recheckedLate (waker cx) (completed : s.completed) :
      Acts (.recheck (.poll waker cx)) .advance s.unlock (.last waker cx)
  | migrated (waker cx waiters) (migrates : migrate s.waiters waker cx = some waiters) :
      Acts (.install (.poll waker cx)) .advance { s.unlock with waiters := waiters }
        (.last (some cx) cx)
  | migrateFailed (waker cx) (fails : migrate s.waiters waker cx = none) :
      Acts (.install (.poll waker cx)) .advance s.unlock .failed
  | lastReady (waker cx outcome) (completed : s.completed)
      (shared : flavor = .shared) (read : s.outcome = some outcome) :
      Acts (.last waker cx) .advance s (.future waker (some (.ready outcome)))
  | lastTake (waker cx) (completed : s.completed) (affine : flavor = .affine) :
      Acts (.last waker cx) .advance s (.take waker)
  | lastPending (waker cx) (pending : s.completed = false) :
      Acts (.last waker cx) .advance s (.future waker (some .pending))
  | took (waker outcome) (valid : s.outcomeValid) (read : s.outcome = some outcome) :
      Acts (.take waker) .advance { s with outcomeValid := false }
        (.future waker (some (.ready outcome)))
  | yielded (waker) (invalid : s.outcomeValid = false) :
      Acts (.take waker) .advance s (.future waker (some .panicked))
  | dropUnregistered (result) : Acts (.future none result) .dropFuture s .dropped
  | dropRegistered (waker result) :
      Acts (.future (some waker) result) .dropFuture s (.deregister waker)
  | deregistered (waker waiters) (free : s.holder = none)
      (removes : Waiters.removeOwner waker s.waiters = some waiters) :
      Acts (.deregister waker) .advance { s with waiters := waiters } .dropped
  | deregisterFailed (waker) (free : s.holder = none)
      (fails : Waiters.removeOwner waker s.waiters = none) :
      Acts (.deregister waker) .advance s .failed
  -- `register_waker`
  | registerLate (waker) (completed : s.completed) :
      Acts (.entry (.register waker)) .advance s .observed
  | registering (waker) (pending : s.completed = false) :
      Acts (.entry (.register waker)) .advance s (.announce (.register waker))
  | registerSeen (waker) (completed : s.completed) :
      Acts (.recheck (.register waker)) .advance s.unlock .observed
  | persisted (waker) : Acts (.install (.register waker)) .advance
        { s.unlock with waiters := Waiters.persist waker s.waiters } (.registered waker)
  -- `wait` and `wait_timeout`
  | waits (result timed) : Acts (.thread result) (.wait timed) s (.entry (.wait timed))
  | waitReady (timed outcome) (completed : s.completed) (read : s.outcome = some outcome) :
      Acts (.entry (.wait timed)) .advance s (.thread (some outcome))
  | waiting (timed) (pending : s.completed = false) :
      Acts (.entry (.wait timed)) .advance s (.announce (.wait timed))
  | pushed (timed) : Acts (.push timed) .advance
        { s with waiters := Waiters.pushThread self s.waiters } (.recheck (.wait timed))
  | waitSeen (timed outcome) (completed : s.completed) (read : s.outcome = some outcome) :
      Acts (.recheck (.wait timed)) .advance
        { s.unlock with waiters := Waiters.removeThread self s.waiters } (.thread (some outcome))
  | released (timed) : Acts (.install (.wait timed)) .advance s.unlock (.park timed)
  | resumed (timed) (token : s.tokens self) : Acts (.park timed) .advance
        { s with tokens := Function.update s.tokens self false } (.entry (.wait timed))
  | spurious (timed) : Acts (.park timed) .spurious s (.entry (.wait timed))
  | expires : Acts (.park true) .expired s .expire
  | expired (free : s.holder = none) : Acts .expire .advance
        { s with waiters := Waiters.removeThread self s.waiters } (.thread none)
  -- what the calls share
  | announced (call) : Acts (.announce call) .advance { s with hasWaiter := true } (.lock call)
  | lockedWait (timed) (free : s.holder = none) :
      Acts (.lock (.wait timed)) .advance { s with holder := some self } (.push timed)
  | lockedPoll (waker cx) (free : s.holder = none) :
      Acts (.lock (.poll waker cx)) .advance { s with holder := some self }
        (.recheck (.poll waker cx))
  | lockedRegister (waker) (free : s.holder = none) :
      Acts (.lock (.register waker)) .advance { s with holder := some self }
        (.recheck (.register waker))
  | rechecked (call) (pending : s.completed = false) :
      Acts (.recheck call) .advance s (.install call)
  /-- An outcome is read that was never written. -/
  | unwritten (p s') (missing : s.outcome = none)
      (reads : s.completed ∨ s.outcomeValid) : Acts p .advance s' .failed

end Rules

section Inversion

variable {s s' : Slot W O} {p p' : Place W O} {q : Option (Place W O)} {flavor : Flavor} {self : ℕ}

omit [DecidableEq W] in
theorem of_goto (h : goto s p = some (s', p', q)) : s = s' ∧ p' = p ∧ q = none := by
  cases h
  exact ⟨rfl, rfl, rfl⟩

omit [DecidableEq W] in
theorem of_locked {cont} (h : locked s cont = some (s', p', q)) :
    s.holder = none ∧ cont = some (s', p', q) := by
  unfold locked at h
  split at h
  · cases h
  · next free => exact ⟨free, h⟩

omit [DecidableEq W] in
theorem of_read {cont : O → Place W O} (h : s.read cont = some (s', p', q)) : s = s' ∧ q = none ∧
    ((∃ outcome, s.outcome = some outcome ∧ p' = cont outcome) ∨
      s.outcome = none ∧ p' = .failed) := by
  obtain ⟨rfl, rfl, rfl⟩ := of_goto h
  refine ⟨rfl, rfl, ?_⟩
  cases s.outcome with
  | none => exact .inr ⟨rfl, rfl⟩
  | some outcome => exact .inl ⟨outcome, rfl, rfl⟩

omit [DecidableEq W] in
theorem of_finishPoll {waker : Option W} (h : finishPoll flavor s waker = some (s', p', q)) :
    s = s' ∧ q = none ∧ ((∃ outcome, flavor = .shared ∧ s.outcome = some outcome ∧
      p' = .future waker (some (.ready outcome))) ∨ (flavor = .affine ∧ p' = .take waker) ∨
      s.outcome = none ∧ p' = .failed) := by
  cases flavor with
  | shared =>
    obtain ⟨rfl, rfl, ⟨outcome, hread, rfl⟩ | hmissing⟩ := of_read h
    · exact ⟨rfl, rfl, .inl ⟨outcome, rfl, hread, rfl⟩⟩
    · exact ⟨rfl, rfl, .inr (.inr hmissing)⟩
  | affine =>
    obtain ⟨rfl, rfl, rfl⟩ := of_goto h
    exact ⟨rfl, rfl, .inr (.inl ⟨rfl, rfl⟩)⟩

theorem acts_goto {i : Input W O} {s₁ : Slot W O} {p₁ : Place W O}
    (h : goto s₁ p₁ = some (s', p', q)) (ha : Acts flavor s self p i s₁ p₁) :
    Acts flavor s self p i s' p' ∧ q = none := by
  obtain ⟨rfl, rfl, rfl⟩ := of_goto h
  exact ⟨ha, rfl⟩

theorem entry_acts {call : Call W} (h : advance flavor s self (.entry call) = some (s', p', q)) :
    Acts flavor s self (.entry call) .advance s' p' ∧ q = none := by
  cases call with
  | poll waker cx =>
    simp only [advance] at h
    split at h
    · next hc =>
      obtain ⟨rfl, rfl, ⟨outcome, hf, hread, rfl⟩ | ⟨hf, rfl⟩ | ⟨hmissing, rfl⟩⟩ := of_finishPoll h
      · exact ⟨.entryReady waker cx outcome hc hf hread, rfl⟩
      · exact ⟨.entryTake waker cx hc hf, rfl⟩
      · exact ⟨.unwritten _ _ hmissing (.inl hc), rfl⟩
    · next hc =>
      refine acts_goto h ?_
      split
      · next hw => subst hw; exact .entrySame cx (by simpa using hc)
      · next hw => exact .entryUpdate waker cx (by simpa using hc) hw
  | register waker =>
    refine acts_goto h ?_
    split
    · next hc => exact .registerLate waker hc
    · next hc => exact .registering waker (by simpa using hc)
  | wait timed =>
    simp only [advance] at h
    split at h
    · next hc =>
      obtain ⟨rfl, rfl, ⟨outcome, hread, rfl⟩ | ⟨hmissing, rfl⟩⟩ := of_read h
      · exact ⟨.waitReady timed outcome hc hread, rfl⟩
      · exact ⟨.unwritten _ _ hmissing (.inl hc), rfl⟩
    · next hc => exact acts_goto h (.waiting timed (by simpa using hc))

theorem recheck_acts {call : Call W} (h : advance flavor s self (.recheck call) =
    some (s', p', q)) :
    Acts flavor s self (.recheck call) .advance s' p' ∧ q = none := by
  cases hc : s.completed with
  | false =>
    obtain ⟨rfl, rfl, rfl⟩ := of_goto ((advance_recheck call hc).symm.trans h)
    exact ⟨.rechecked call hc, rfl⟩
  | true =>
    cases call with
    | poll waker cx =>
      simp only [advance, hc, if_true] at h
      exact acts_goto h (.recheckedLate waker cx hc)
    | register waker =>
      simp only [advance, hc, if_true] at h
      exact acts_goto h (.registerSeen waker hc)
    | wait timed =>
      simp only [advance, hc, if_true] at h
      obtain ⟨rfl, rfl, ⟨outcome, hread, rfl⟩ | ⟨hmissing, rfl⟩⟩ := of_read h
      · exact ⟨.waitSeen timed outcome hc hread, rfl⟩
      · exact ⟨.unwritten _ _ hmissing (.inl hc), rfl⟩

theorem install_acts {call : Call W} (h : advance flavor s self (.install call) =
    some (s', p', q)) :
    Acts flavor s self (.install call) .advance s' p' ∧ q = none := by
  cases call with
  | poll waker cx =>
    simp only [advance] at h
    split at h
    · next waiters hm => exact acts_goto h (.migrated waker cx waiters hm)
    · next hm => exact acts_goto h (.migrateFailed waker cx hm)
  | register waker => exact acts_goto h (.persisted waker)
  | wait timed => exact acts_goto h (.released timed)

theorem advance_acts (h : advance flavor s self p = some (s', p', q)) :
    Acts flavor s self p .advance s' p' ∧ q = none := by
  cases p with
  | complete outcome =>
    refine acts_goto h ?_
    split
    · next hc => exact .twice outcome hc
    · next hc => exact .asserted outcome (by simpa using hc)
  | store outcome => exact acts_goto h (.stored outcome)
  | mark =>
    refine acts_goto h ?_
    split
    · next hw => exact .marked hw
    · next hw => exact .markedAlone (by simpa using hw)
  | drain =>
    obtain ⟨free, hc⟩ := of_locked h
    exact acts_goto hc (.drained free)
  | notify rest panicked =>
    rcases rest with _ | ⟨_ | _, rest⟩
    all_goals obtain ⟨rfl, rfl, rfl⟩ := of_goto h
    · exact ⟨.notified panicked, rfl⟩
    · exact ⟨.unparked _ rest panicked, rfl⟩
    · exact ⟨.woke _ _ rest panicked panicked _ (.inl rfl), rfl⟩
  | entry => exact entry_acts h
  | update waker cx =>
    refine acts_goto h ?_
    split
    · next hc => exact .updateLate waker cx hc
    · next hc => exact .updated waker cx (by simpa using hc)
  | announce call => exact acts_goto h (.announced call)
  | lock call =>
    obtain ⟨free, hc⟩ := of_locked h
    obtain ⟨rfl, rfl, rfl⟩ := of_goto hc
    cases call with
    | poll waker cx => exact ⟨.lockedPoll waker cx free, rfl⟩
    | register waker => exact ⟨.lockedRegister waker free, rfl⟩
    | wait timed => exact ⟨.lockedWait timed free, rfl⟩
  | push timed => exact acts_goto h (.pushed timed)
  | recheck => exact recheck_acts h
  | install => exact install_acts h
  | last waker cx =>
    simp only [advance] at h
    split at h
    · next hc =>
      obtain ⟨rfl, rfl, ⟨outcome, hf, hread, rfl⟩ | ⟨hf, rfl⟩ | ⟨hmissing, rfl⟩⟩ := of_finishPoll h
      · exact ⟨.lastReady waker cx outcome hc hf hread, rfl⟩
      · exact ⟨.lastTake waker cx hc hf, rfl⟩
      · exact ⟨.unwritten _ _ hmissing (.inl hc), rfl⟩
    · next hc => exact acts_goto h (.lastPending waker cx (by simpa using hc))
  | take waker =>
    simp only [advance] at h
    split at h
    · next hv =>
      obtain ⟨rfl, rfl, ⟨outcome, hread, rfl⟩ | ⟨hmissing, rfl⟩⟩ := of_read h
      · exact ⟨.took waker outcome hv hread, rfl⟩
      · exact ⟨.unwritten _ _ hmissing (.inr hv), rfl⟩
    · next hv => exact acts_goto h (.yielded waker (by simpa using hv))
  | park timed =>
    simp only [advance] at h
    split at h
    · next ht => exact acts_goto h (.resumed timed ht)
    · cases h
  | expire =>
    obtain ⟨free, hc⟩ := of_locked h
    exact acts_goto hc (.expired free)
  | deregister waker =>
    obtain ⟨free, hc⟩ := of_locked h
    split at hc
    · next waiters hr => exact acts_goto hc (.deregistered waker waiters free hr)
    · next hr => exact acts_goto hc (.deregisterFailed waker free hr)
  | _ => cases h

theorem act_acts {fresh : ℕ} {i : Input W O} (h : act flavor s self fresh p i = some (s', p', q)) :
    Acts flavor s self p i s' p' ∧ q = none := by
  rw [act.eq_def] at h
  split at h
  · exact advance_acts h
  all_goals first
    | cases h; done
    | obtain ⟨rfl, rfl, rfl⟩ := of_goto h
  · exact ⟨.called _ _ (.inl rfl), rfl⟩
  · exact ⟨.called _ _ (.inr ⟨_, rfl⟩), rfl⟩
  · exact ⟨.woke _ _ _ _ _ _ (.inr rfl), rfl⟩
  · exact ⟨.polled _ _ _, rfl⟩
  · exact ⟨.dropUnregistered _, rfl⟩
  · exact ⟨.dropRegistered _ _, rfl⟩
  · exact ⟨.waits _ _, rfl⟩
  · exact ⟨.spurious _, rfl⟩
  · exact ⟨.expires, rfl⟩

end Inversion

/-! ## Runs -/

/-- Histories of a slot. -/
abbrev SlotHistory (W O : Type) :=
  List (Transition (Pool (Slot W O) (Place W O)) (Schedule (Place W O) (Input W O)))

/-- A slot of this flavor comes to `w` by the history `tr`. -/
abbrev SlotRun (flavor : Flavor) (tr : SlotHistory W O) (w : Pool (Slot W O) (Place W O)) : Prop :=
  Run (step flavor) (start flavor) tr w

/-- What a step at a slot can be: an observer joins, or somebody runs a section. -/
theorem step_cases {flavor : Flavor} {w w' : Pool (Slot W O) (Place W O)}
    {a : Schedule (Place W O) (Input W O)} (h : step flavor w a = some w') :
    (∃ p, a = .call p ∧ p.joins flavor ∧ w' = ⟨w.shared, w.threads ++ [p]⟩) ∨
    ∃ t i p s p', a = .run t i ∧ w.threads[t]? = some p ∧ Acts flavor w.shared t p i s p' ∧
      w' = ⟨s, w.threads.set t p'⟩ := by
  rcases Pool.step_cases h with hcall | ⟨t, i, p, s, p', q, rfl, hp, hcode, rfl⟩
  · exact .inl hcall
  · obtain ⟨hacts, rfl⟩ := act_acts hcode
    exact .inr ⟨t, i, p, s, p', rfl, hp, hacts, by simp⟩

end Observe
