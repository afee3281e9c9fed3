import Bombay.Machine.Run
import Mathlib.Data.List.AList

/-!
# Exact observation

An actor may ask to observe the termination of another.  `observe` registers the relationship under
an id, announces it on the actor's control lane and spawns a task that waits for the termination;
`cancel` takes a relationship out again.  The registry is behind a mutex that the interpreter, the
tasks and the retirement of the actor lock, each for a short section; a oneshot channel also tells
the task that its relationship was revoked.

The interpreter and the retirement are one thread, the *owner*: interpretation borrows the
capabilities exclusively, and retirement, which first drains the control lane and then takes the
registry away, comes after all of it.  A task's poll is a `select!` of two branches in either order,
the revocation and the completion; the completion decides under the lock.  A relationship is known
by its number, the identity of its `Arc`.
-/

set_option autoImplicit false

namespace Local

open Machine

/-- Why a request is refused. -/
inductive ObservationRejection
  | idAlreadyBound
  | notObserved
  deriving DecidableEq

/-- `EstablishedObservation`, with ids in `K`, targets in `T` and outcomes in `O`. -/
inductive ObservationEvent (K T O : Type)
  | started (r : ℕ)
  | observeRejected (id : K) (target : T) (reason : ObservationRejection)
  | cancelled (r : ℕ)
  | cancelRejected (r : ℕ) (reason : ObservationRejection)
  | stopped (r : ℕ) (outcome : O) (instant : ℕ)
  deriving DecidableEq

/-- The branches of the task's `select!`. -/
inductive Branch
  | revoked
  | completion
  deriving DecidableEq

def Branch.other : Branch → Branch
  | revoked => completion
  | completion => revoked

/-- Where the task of a relationship is. -/
inductive ObservationTask (K T O : Type)
  | waiting
  /-- One branch of the poll was pending, and the other is next. -/
  | polling (second : Branch)
  | acquired (outcome : O) (instant : ℕ)
  | returned (result : Except (ObservationEvent K T O) Unit)
  /-- `join_next` has taken the result. -/
  | joined

/-- A relationship and its task. -/
structure Relationship (K T O : Type) where
  id : K
  target : T
  /-- The revocation was sent, or its sender dropped. -/
  revoked : Bool
  task : Option (ObservationTask K T O)

/-- Where the owner of the capabilities stands. -/
inductive Owner (K T : Type)
  /-- Ready to interpret the next request. -/
  | live
  | refuse (id : K) (target : T)
  | start (r : ℕ)
  | spawn (r : ℕ)
  | revoke (r : ℕ)
  | announce (r : ℕ)
  | reject (r : ℕ)
  /-- The control lane is drained, and the registry is next. -/
  | drained
  /-- The registry is taken, and these are still to be revoked. -/
  | withdraw (rs : List ℕ)
  | retired
  deriving DecidableEq

/-- The capabilities of an actor, as far as they have to do with exact observation. -/
structure Observing (K T O : Type) where
  owner : Owner K T
  /-- `exact_observations`. -/
  registry : Option (AList fun _ : K => ℕ)
  relationships : List (Relationship K T O)
  /-- The outcome of a target that has terminated. -/
  targets : T → Option O
  /-- What the control lane has accepted, and whether it is closed. -/
  control : List (ObservationEvent K T O)
  closed : Bool
  /-- The events that joined tasks have returned. -/
  joined : List (ObservationEvent K T O)
  /-- An `unreachable!` was reached. -/
  failed : Bool

namespace Observing

variable {K T O : Type} [DecidableEq K] [DecidableEq T]

/-- Nothing is observed. -/
def new : Observing K T O := ⟨.live, some ∅, [], fun _ => none, [], false, [], false⟩

variable (s : Observing K T O)

/-- `inject_control_event`. -/
def inject (event : ObservationEvent K T O) : Observing K T O :=
  if s.closed then { s with failed := true } else { s with control := s.control ++ [event] }

def setTask (r : ℕ) (task : ObservationTask K T O) : Observing K T O :=
  { s with relationships := s.relationships.modify r fun R => { R with task := some task } }

/-- `cancellation.send(())`. -/
def sendRevocation (r : ℕ) : Observing K T O :=
  { s with relationships := s.relationships.modify r fun R => { R with revoked := true } }

/-! ## The owner -/

/-- The lock section of `observe`. -/
def observe (id : K) (target : T) : Observing K T O :=
  match s.registry with
  | none => { s with failed := true }
  | some m =>
    if (m.lookup id).isSome then { s with owner := .refuse id target }
    else
      { s with
        registry := some (m.insert id s.relationships.length)
        relationships := s.relationships ++ [⟨id, target, false, none⟩]
        owner := .start s.relationships.length }

/-- The lock section of `cancel`. -/
def cancel (r : ℕ) (R : Relationship K T O) : Observing K T O :=
  match s.registry with
  | none => { s with failed := true }
  | some m =>
    if m.lookup R.id = some r then { s with registry := some (m.erase R.id), owner := .revoke r }
    else { s with owner := .reject r }

/-- What the owner does next. -/
def advance : Option (Observing K T O) :=
  match s.owner with
  | .live | .retired => none
  | .refuse id target =>
    some { s.inject (.observeRejected id target .idAlreadyBound) with owner := .live }
  | .start r => some { s.inject (.started r) with owner := .spawn r }
  | .spawn r => some { s.setTask r .waiting with owner := .live }
  | .revoke r => some { s.sendRevocation r with owner := .announce r }
  | .announce r => some { s.inject (.cancelled r) with owner := .live }
  | .reject r => some { s.inject (.cancelRejected r .notObserved) with owner := .live }
  | .drained =>
    let values := (s.registry.map fun m => m.entries.map fun e => e.2).getD []
    some { s with registry := none, owner := .withdraw values }
  | .withdraw (r :: rs) => some { s.sendRevocation r with owner := .withdraw rs }
  | .withdraw [] => some { s with owner := .retired }

/-! ## The tasks -/

/-- One branch of a poll; `pending` is where the task goes on if there is nothing yet. -/
def branch (r : ℕ) (R : Relationship K T O) (pending : ObservationTask K T O) (instant : ℕ) :
    Branch → Observing K T O
  | .revoked => if R.revoked then s.setTask r (.returned (.ok ())) else s.setTask r pending
  | .completion =>
    match s.registry with
    | none => s.setTask r (.returned (.ok ()))
    | some m =>
      if m.lookup R.id = some r then
        match s.targets R.target with
        | none => s.setTask r pending
        | some outcome =>
          -- the sender goes with its entry
          { (s.sendRevocation r).setTask r (.acquired outcome instant) with
            registry := some (m.erase R.id) }
      else s.setTask r (.returned (.ok ()))

/-- The second lock section of a task that has acquired a completion. -/
def complete (r : ℕ) (outcome : O) (instant : ℕ) : Observing K T O :=
  let event := .stopped r outcome instant
  match s.registry with
  | none => s.setTask r (.returned (.error event))
  | some _ =>
    if s.closed then s.setTask r (.returned (.error event))
    else { s.setTask r (.returned (.ok ())) with control := s.control ++ [event] }

/-- `join_next` in `ActivationTasks::next_event` and `receive_settlement`. -/
def join (r : ℕ) : Except (ObservationEvent K T O) Unit → Observing K T O
  | .ok () => s.setTask r .joined
  | .error event => { s.setTask r .joined with joined := s.joined ++ [event] }

end Observing

/-- The lock sections, polls and answers. -/
inductive ObservationOp (K T O : Type)
  | observe (id : K) (target : T)
  | cancel (r : ℕ)
  | retire
  | advance
  | terminate (target : T) (outcome : O)
  /-- A poll of a task begins with one of its branches. -/
  | poll (r : ℕ) (first : Branch) (instant : ℕ)
  /-- The task goes on to its next section. -/
  | resume (r : ℕ) (instant : ℕ)
  | join (r : ℕ)

section

variable {K T O : Type} [DecidableEq K] [DecidableEq T]

def Observing.task (s : Observing K T O) (r : ℕ) :
    Option (Relationship K T O × ObservationTask K T O) :=
  match s.relationships[r]? with
  | none => none
  | some R => R.task.map fun task => (R, task)

/-- One section or poll. -/
def Observing.step (s : Observing K T O) (op : ObservationOp K T O) : Option (Observing K T O) :=
  if s.failed then none
  else
    match op with
    | .observe id target => if s.owner = .live then some (s.observe id target) else none
    | .cancel r =>
      match s.relationships[r]? with
      | none => none
      | some R => if s.owner = .live then some (s.cancel r R) else none
    | .retire => if s.owner = .live then some { s with owner := .drained, closed := true } else none
    | .advance => s.advance
    | .terminate target outcome =>
      match s.targets target with
      | none => some { s with targets := Function.update s.targets target (some outcome) }
      | some _ => none
    | .poll r first instant =>
      match s.task r with
      | some (R, .waiting) => some (s.branch r R (.polling first.other) instant first)
      | _ => none
    | .resume r instant =>
      match s.task r with
      | some (R, .polling second) => some (s.branch r R .waiting instant second)
      | some (_, .acquired outcome acquiredAt) => some (s.complete r outcome acquiredAt)
      | _ => none
    | .join r =>
      match s.task r with
      | some (_, .returned result) => some (s.join r result)
      | _ => none

abbrev ObservationHistory (K T O : Type) :=
  List (Transition (Observing K T O) (ObservationOp K T O))

/-- The capabilities come to `s` by the history `tr`. -/
abbrev Observes (tr : ObservationHistory K T O) (s : Observing K T O) : Prop :=
  Run Observing.step Observing.new tr s

end

end Local
