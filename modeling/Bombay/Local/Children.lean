import Mathlib.Data.List.AList
import Bombay.Local.Outcome

/-!
# The children of an actor

An actor keeps its children in a chain of occurrences, one for each place in its declaration where
children are born.  An occurrence records what became of every creation under its identity, and in
`creation_order` the identities whose rows still own something that retirement has to hand out.

A row of a running child holds the join handle of its task, and beside it the slots into which
retirement receives: first the task's own result, then the notifications about it.  Receiving is a
future that may be dropped whenever it is pending, and what it has received by then stays in the
row.  `Slots.poll` is one poll of it, for both kinds of task.

`Occurrence.recordChildCreation` and `CreationBinding.receive` follow `record_child_creation` and
the body of the loop in `receive_retirement`.  `none` stands for a panic.
-/

set_option autoImplicit false

namespace Local

open Engine

/-! ## Tasks and the slots they are received into -/

/-- `OwnerCancellationAuthority`: the sender is there, or the request was made, or it was
dropped. -/
inductive OwnerCancellationAuthority
  | armed
  | requested
  | disarmed
  deriving DecidableEq, Repr

/-- The request is sent once. -/
def OwnerCancellationAuthority.request : OwnerCancellationAuthority → OwnerCancellationAuthority
  | armed => requested
  | other => other

/-- Nothing will be sent. -/
def OwnerCancellationAuthority.disarm : OwnerCancellationAuthority → OwnerCancellationAuthority
  | armed => disarmed
  | other => other

/-- `OwnedTask` and `ProjectedTask`: the join handle, until it was joined, with the receiver of the
notifications and the authority over the actor. -/
structure TaskCustody where
  handle : Bool
  cancellation : OwnerCancellationAuthority
  deriving DecidableEq, Repr

/-- The owner asks for retirement. -/
def TaskCustody.requestRetirement (t : TaskCustody) : TaskCustody :=
  { t with cancellation := t.cancellation.request }

/-- The three slots a receiving operation borrows. -/
structure Slots (R N : Type) where
  owned : Option TaskCustody
  received : Option R
  notice : Option N
  deriving DecidableEq, Repr

namespace Slots

variable {R N : Type} (s : Slots R N)

/-- The slots of a task nothing was received from. -/
def fresh (task : Option TaskCustody) : Slots R N := ⟨task, none, none⟩

/-- The receiver of the notifications is polled; with both facts outside, the owner is disposed. -/
def pollNotice (note : Option N) : Slots R N × Bool :=
  if s.notice.isSome then ({ s with owned := none }, true)
  else
    match note with
    | none => (s, false)
    | some n => ({ s with owned := none, notice := some n }, true)

/-- One poll of the closure in `receive_finish` and in `ProjectedTask::receive_retirement`.  The
handle and the receiver answer with a value or are pending; `true` is `Poll::Ready`. -/
def poll (join : Option R) (note : Option N) : Slots R N × Bool :=
  match s.owned with
  | none => (s, true)
  | some task =>
    if task.handle then
      if s.received.isSome || s.notice.isSome then (s, true)
      else
        match join with
        | none => (s, false)
        | some r =>
          { s with
            owned := some ⟨false, task.cancellation.disarm⟩
            received := some r }.pollNotice note
    else s.pollNotice note

/-- `OwnedTask::receive_finish`, up to its first suspension. -/
def receiveFinish (join : Option R) (note : Option N) : Slots R N × Bool :=
  if s.received.isSome && s.notice.isSome then (s, true) else s.poll join note

/-- The owner is asked to retire its actor. -/
def request : Slots R N := { s with owned := s.owned.map TaskCustody.requestRetirement }

/-- `owned.as_mut().task.is_some()`. -/
def joining : Bool :=
  match s.owned with
  | some task => task.handle
  | none => false

/-- `OwnedTask::receive_retirement`, up to its first suspension. -/
def ownedRetirement (join : Option R) (note : Option N) : Slots R N × Bool :=
  if s.joining then
    if s.received.isSome || s.notice.isSome then (s, true) else s.request.receiveFinish join note
  else s.receiveFinish join note

/-- `ProjectedTask::receive_retirement`, up to its first suspension. -/
def projectedRetirement (join : Option R) (note : Option N) : Slots R N × Bool :=
  if s.received.isSome && s.notice.isSome then (s, true)
  else if s.joining then
    if s.received.isSome || s.notice.isSome then (s, true) else s.request.poll join note
  else s.poll join note

/-- `task.is_none() && received.is_some() && notification.is_some()`. -/
def complete : Bool := s.owned.isNone && s.received.isSome && s.notice.isSome

end Slots

/-! ## The rows -/

/-- What the children of an actor are made of. -/
structure ChildPort where
  child : ActorPort
  /-- `CreationId`. -/
  Id : Type
  /-- The terminal that a joined child is projected to. -/
  Root : Type
  /-- `InstalledActor`: endpoint, control sender and retirement observation. -/
  Installed : Type
  AllocationRejection : Type
  addressAlreadyClaimed : AllocationRejection

/-- A port whose types are numbers, for concrete runs. -/
abbrev numberChildren : ChildPort where
  child := numberActor
  Id := ℕ
  Root := ℕ
  Installed := ℕ
  AllocationRejection := ℕ
  addressAlreadyClaimed := 0

variable {P : ChildPort}

/-- Whether a child takes the place of another. -/
inductive CreationKind (P : ChildPort)
  | birth
  | replacement (previous : P.Id)

/-- Where a child was created. -/
structure Site (P : ChildPort) where
  kind : CreationKind P
  address : P.child.Address
  route : ℕ

/-- Where a child comes from. -/
structure ChildOrigin (P : ChildPort) where
  site : Site P
  id : P.Id

/-- What the receivers of an actor got. -/
structure ActorNotificationReceipts (P : ActorPort) where
  termination : Notification P
  retirement : Notification P

/-- One of them failed. -/
def ActorNotificationReceipts.hasFailures {P : ActorPort}
    (r : ActorNotificationReceipts P) : Bool :=
  isErr r.termination || isErr r.retirement

/-- The result of an actor's task. -/
abbrev Joined (P : ChildPort) : Type :=
  Except P.child.JoinError (ActorExecutionOutcome P.child)

/-- The result of the task that joins an actor and projects its outcome. -/
abbrev Projected (P : ChildPort) : Type :=
  Except P.child.JoinError (Except P.child.JoinError P.Root)

/-- What the receiver of a projected task's notifications gives. -/
abbrev Receipts (P : ChildPort) : Type := Except RecvError (ActorNotificationReceipts P.child)

/-- How far the retirement of a startup is. -/
inductive StartupRetirementCustody (P : ChildPort)
  | raw (slots : Slots (Joined P) (Notification P.child))
  | projection (task : Bool) (received : Option (Except P.child.JoinError P.Root))
      (notification : Notification P.child) (report : ActorRetirementReport)

/-- What is kept of a startup that was refused. -/
structure StartupEvidence (P : ChildPort) where
  primaryFailure : Option (DriverError P.child.port)
  additionalFailures : List (DriverError P.child.port)
  terminalReport : Option (Except P.child.Termination Unit)
  retirementFailures : List P.child.Payload
  terminationNotification : Notification P.child
  retirementReport : ActorRetirementReport

/-- The condition in `record_child_creation` under which such a row enters the order. -/
def StartupEvidence.retained (e : StartupEvidence P) : Bool :=
  e.primaryFailure.isSome || !e.additionalFailures.isEmpty || e.terminalReport.isSome ||
    !e.retirementFailures.isEmpty || isErr e.terminationNotification

/-- A row of the registry. -/
inductive CreationBinding (P : ChildPort)
  | starting (site : Site P) (task : Option TaskCustody)
  | retiringStartup (site : Site P) (custody : StartupRetirementCustody P)
  | established (site : Site P) (installed : P.Installed) (slots : Slots (Projected P) (Receipts P))
  | rejected
  | startupRejected (site : Site P) (evidence : StartupEvidence P)

/-- The row is to be retired. -/
def CreationBinding.ordered : CreationBinding P → Bool
  | starting .. | retiringStartup .. | established .. => true
  | startupRejected _ evidence => evidence.retained
  | rejected => false

/-- What a child leaves that failed. -/
inductive ChildFailure (P : ChildPort)
  | notificationsFailed (origin : ChildOrigin P) (actor : P.Installed) (notifications : Receipts P)
  | actorTaskFailed (origin : ChildOrigin P) (actor : P.Installed) (notifications : Receipts P)
      (error : P.child.JoinError)
  | projectionTaskFailed (origin : ChildOrigin P) (actor : P.Installed) (notifications : Receipts P)
      (error : P.child.JoinError)
  | startupActorTaskFailed (origin : ChildOrigin P) (error : P.child.JoinError)
      (notification : Notification P.child)
  | startupTerminationNotificationFailed (origin : ChildOrigin P)
      (error : RetirementNotificationError P.child)
  | startupProjectionTaskFailed (origin : ChildOrigin P) (error : P.child.JoinError)
      (notification : Notification P.child)
  | initializationPanicked (origin : ChildOrigin P) (payload : P.child.Payload)
      (evidence : StartupEvidence P)
  | startupRetirementFailed (origin : ChildOrigin P) (evidence : StartupEvidence P)

/-- The creation a failure is about. -/
def ChildFailure.origin : ChildFailure P → ChildOrigin P
  | notificationsFailed origin .. | actorTaskFailed origin .. | projectionTaskFailed origin ..
  | startupActorTaskFailed origin .. | startupTerminationNotificationFailed origin ..
  | startupProjectionTaskFailed origin .. | initializationPanicked origin ..
  | startupRetirementFailed origin .. => origin

/-- The failures that come beside a root. -/
def ChildFailure.isNotification : ChildFailure P → Bool
  | notificationsFailed .. | startupTerminationNotificationFailed .. => true
  | _ => false

/-- What one row hands out. -/
structure Emission (P : ChildPort) where
  root : Option P.Root
  failure : Option (ChildFailure P)

/-! ## The rows in retirement -/

/-- The answers to the polls that a row may make, each with a value or pending. -/
structure Answer (P : ChildPort) where
  /-- The join handle of a projected task. -/
  projected : Option (Projected P)
  /-- The receiver of its notifications. -/
  receipts : Option (Receipts P)
  /-- What `retirement.try_get()` finds once both were received. -/
  published : Option ActorRetirementReport
  /-- The join handle of an actor's task. -/
  joined : Option (Joined P)
  /-- The receiver of its termination notification. -/
  notification : Option (Except RecvError (Notification P.child))
  /-- The join handle of a task that projects a startup. -/
  projection : Option (Except P.child.JoinError P.Root)

/-- `unwrap_or_else(|error| Err(ReceiptClosed { error }))`. -/
def unwrapNotification {P : ActorPort} : Except RecvError (Notification P) → Notification P
  | .ok notification => notification
  | .error error => .error (.receiptClosed error)

/-- How the loop leaves a row, with the descendant report it has then. -/
inductive RowPoll (P : ChildPort)
  /-- A poll is pending. -/
  | suspended (row : CreationBinding P) (report : ActorRetirementReport)
  /-- The whole operation returns. -/
  | returned (row : CreationBinding P) (report : ActorRetirementReport)
  /-- The row is complete and is taken out. -/
  | extracted (row : CreationBinding P) (report : ActorRetirementReport)
  /-- A branch that panics. -/
  | panicked

/-- A child's task failed, or a notification about it did. -/
def establishedFailed (joined : Option (Projected P))
    (notifications : Option (Receipts P)) : Bool :=
  (match joined with
    | some (.error _) | some (.ok (.error _)) => true
    | _ => false) ||
  (match notifications with
    | some (.error _) => true
    | some (.ok receipts) => receipts.hasFailures
    | none => false)

namespace CreationBinding

/-- The row of a child that was established.  `entering` tells a call of `receive_retirement` of the
task from a further poll of it. -/
def receiveEstablished (entering : Bool) (a : Answer P) (report : ActorRetirementReport)
    (site : Site P) (installed : P.Installed) (slots : Slots (Projected P) (Receipts P)) :
    RowPoll P :=
  let (slots, ready) :=
    if entering then slots.projectedRetirement a.projected a.receipts
    else slots.poll a.projected a.receipts
  if !ready then .suspended (established site installed slots) report
  else if !slots.complete then .returned (established site installed slots) report
  else
    let report := report.combine (a.published.getD ⟨.notEstablished, .incomplete⟩)
    .extracted (established site installed slots)
      (if establishedFailed slots.received slots.notice then report.withFailures .failuresFound
        else report)

/-- The row of a startup whose outcome is being projected. -/
def receiveProjection (a : Answer P) (report : ActorRetirementReport) (site : Site P) (task : Bool)
    (received : Option (Except P.child.JoinError P.Root)) (notification : Notification P.child)
    (retirementReport : ActorRetirementReport) : RowPoll P :=
  let row task received :=
    retiringStartup site (.projection task received notification retirementReport)
  let polled : Option (Bool × Option (Except P.child.JoinError P.Root)) :=
    if received.isNone && task then a.projection.map fun joined => (false, some joined)
    else some (task, received)
  match polled with
  | none => .suspended (row task received) report
  | some (task, received) =>
    if task || received.isNone then .returned (row task received) report
    else
      let report := report.combine retirementReport
      .extracted (row task received)
        (match received with
          | some (.error _) => report.withFailures .failuresFound
          | _ => report)

/-- The row of a startup that retires. -/
def receiveStartup (entering : Bool) (a : Answer P) (report : ActorRetirementReport)
    (site : Site P) :
    StartupRetirementCustody P → RowPoll P
  | .raw slots =>
    let note := a.notification.map unwrapNotification
    let (slots, ready) :=
      if entering then slots.ownedRetirement a.joined note else slots.poll a.joined note
    if !ready then .suspended (retiringStartup site (.raw slots)) report
    else
      match slots.owned, slots.received, slots.notice with
      | none, some joined, some notification =>
        let retirementReport := fromJoined joined notification
        let report := report.combine retirementReport
        match joined with
        | .ok _ => receiveProjection a report site true none notification retirementReport
        | .error _ => .extracted (retiringStartup site (.raw slots)) report
      | _, _, _ => .returned (retiringStartup site (.raw slots)) report
  | .projection task received notification retirementReport =>
    receiveProjection a report site task received notification retirementReport

/-- The row at the head of the order is received.  A startup that is still awaited is transferred to
raw retirement first. -/
def receive (entering : Bool) (a : Answer P) (report : ActorRetirementReport) :
    CreationBinding P → RowPoll P
  | established site installed slots => receiveEstablished entering a report site installed slots
  | retiringStartup site custody => receiveStartup entering a report site custody
  | startupRejected site evidence => .extracted (startupRejected site evidence) report
  | starting site task =>
    if entering then receiveStartup true a report site (.raw (.fresh task)) else .panicked
  | rejected => .panicked

/-- The request that the loop of `request_retirement` makes of a row. -/
def requestRetirement : CreationBinding P → CreationBinding P
  | starting site task => starting site (task.map TaskCustody.requestRetirement)
  | retiringStartup site (.raw slots) => retiringStartup site (.raw slots.request)
  | established site installed slots => established site installed slots.request
  | row => row

/-- The row that crossed the extraction is matched once more, and enters the caller's lanes. -/
def emit (id : P.Id) : CreationBinding P → Option (Emission P)
  | established site installed ⟨_, some joined, some notifications⟩ =>
    match joined with
    | .ok (.ok terminal) =>
      some ⟨some terminal,
        if (match notifications with
          | .ok receipts => receipts.hasFailures
          | .error _ => true) then some (.notificationsFailed ⟨site, id⟩ installed notifications)
        else none⟩
    | .ok (.error error) =>
      some ⟨none, some (.actorTaskFailed ⟨site, id⟩ installed notifications error)⟩
    | .error error =>
      some ⟨none, some (.projectionTaskFailed ⟨site, id⟩ installed notifications error)⟩
  | retiringStartup site (.raw ⟨_, some (.error error), some notification⟩) =>
    some ⟨none, some (.startupActorTaskFailed ⟨site, id⟩ error notification)⟩
  | retiringStartup site (.projection _ (some (.ok terminal)) notification _) =>
    some ⟨some terminal,
      match notification with
      | .error error => some (.startupTerminationNotificationFailed ⟨site, id⟩ error)
      | .ok () => none⟩
  | retiringStartup site (.projection _ (some (.error error)) notification _) =>
    some ⟨none, some (.startupProjectionTaskFailed ⟨site, id⟩ error notification)⟩
  | startupRejected site evidence =>
    match evidence.primaryFailure with
    | some (.initializationPanicked payload) =>
      some ⟨none, some (.initializationPanicked ⟨site, id⟩ payload evidence)⟩
    | _ => some ⟨none, some (.startupRetirementFailed ⟨site, id⟩ evidence)⟩
  | _ => none

/-- The rows that the entry guard of `receive_retirement` refuses. -/
def guarded : CreationBinding P → Bool
  | established _ _ ⟨some _, some _, _⟩ | established _ _ ⟨none, none, _⟩ => true
  | _ => false

end CreationBinding

/-! ## Occurrences -/

/-- One occurrence of children: every creation under its identity, and the order of those that
retirement will hand out. -/
structure Occurrence (P : ChildPort) where
  creations : AList fun _ : P.Id => CreationBinding P
  creationOrder : List P.Id

namespace Occurrence

variable [DecidableEq P.Id] (o : Occurrence P)

/-- An occurrence in which nothing was created. -/
def empty : Occurrence P := ⟨∅, []⟩

/-- The order a recording leaves. -/
def recordedOrder (id : P.Id) (row : CreationBinding P) : List P.Id :=
  if row.ordered then if id ∈ o.creationOrder then o.creationOrder else o.creationOrder ++ [id]
  else o.creationOrder.filter (· ≠ id)

/-- A new row; a second one for the same child is refused. -/
def recordChildCreation (id : P.Id) (row : CreationBinding P) : Option (Occurrence P) :=
  if id ∈ o.creations then none
  else some ⟨o.creations.insert id row, o.recordedOrder id row⟩

/-- The row of `id` is replaced. -/
def update (id : P.Id) (row : CreationBinding P) : Occurrence P :=
  { o with creations := o.creations.insert id row }

/-- `creations.remove(&id)`. -/
def remove (id : P.Id) : Occurrence P := { o with creations := o.creations.erase id }

/-- The reports of refused startups are combined on entry. -/
def startupReports (report : ActorRetirementReport) : ActorRetirementReport :=
  o.creations.entries.foldl (fun report row =>
    match row.2 with
    | .startupRejected _ evidence => report.combine evidence.retirementReport
    | _ => report) report

/-- The entry guard: a row of the order that it refuses makes the operation return. -/
def guarded : Bool :=
  o.creationOrder.any fun id =>
    match o.creations.lookup id with
    | some row => row.guarded
    | none => false

/-- `request_retirement`, for the rows of one occurrence. -/
def requestRetirement : Option (Occurrence P) :=
  (o.creationOrder.foldlM requestRow o.creations).map fun creations =>
    { o with creations := creations }
where
  /-- The body of the loop. -/
  requestRow (creations : AList fun _ : P.Id => CreationBinding P) (id : P.Id) :
      Option (AList fun _ : P.Id => CreationBinding P) :=
    (creations.lookup id).map fun row => creations.insert id row.requestRetirement

end Occurrence

end Local
