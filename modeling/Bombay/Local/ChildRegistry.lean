import Bombay.Machine.Run
import Bombay.Local.Children

/-!
# Creating children and retiring them

The registry of an actor's children is worked on by one operation at a time: by the creation of a
child, or by `receive_retirement`.  Both are futures, so both can be dropped where they wait, and
then the registry stays as they left it.

* A creation records its row as `Starting` and waits for the child's private commitment.  When that
  arrives the row becomes `Established`.  When the child ended instead, the row goes to raw
  retirement, the creation waits for the child's task, and records what is left of the startup.
* `receive_retirement` goes through the occurrences from the head of the chain to its end.  In each
  it first looks at all rows, and then receives and takes out one row after the other, in the order
  of their creation.

The slot `bindings` is the chain; its end, `NoChildBindings`, is the empty list.  There is no await
between the end of the chain and the return of the outermost call, so the slots of all tails are
emptied in one step with it.
-/

set_option autoImplicit false

namespace Local

open Machine Engine

variable {P : ChildPort}

/-! ## Startups that fail -/

/-- A creation, as it was requested. -/
structure RoutedCreation (P : ChildPort) where
  id : P.Id
  kind : CreationKind P
  route : ℕ
  child : P.child.Behavior

/-- Why a creation is refused. -/
inductive CreationRejection (P : ChildPort)
  | correlationAlreadyRecorded
  | allocation (reason : P.AllocationRejection)
  | environmentFailed

/-- What becomes of a creation. -/
inductive ChildCreationOutcome (P : ChildPort)
  | established (id : P.Id) (kind : CreationKind P) (actor : P.Installed)
  | unavailable (id : P.Id) (kind : CreationKind P)
  | initializationRejected (creation : RoutedCreation P) (error : P.child.BehaviorError)
  | initializationPanicked (creation : RoutedCreation P)
  | hostRejected (creation : RoutedCreation P) (initialization : P.child.Actions)
      (reason : CreationRejection P)

/-- `ItemSettlement`, as a creation is settled. -/
inductive CreationSettlement (P : ChildPort)
  | accepted (outcome : ChildCreationOutcome P)
  | rejected (item : RoutedCreation P) (reason : CreationRejection P)

/-- The lanes that the arms of `establish_native_child` match as `None` or assert to be empty. -/
def LocalResidual.untouched (r : LocalResidual P.child) : Bool :=
  r.activationTasks.isEmpty && r.receivedInterpretation.isNone && r.receivedSource.isNone &&
    r.sourceIndex.isNone && r.acquiredIngress.isNone && r.capabilityFailures.isEmpty &&
    r.unreadOwnerCancellation.isNone && r.ingress.control.isEmpty && r.ingress.user.isEmpty &&
    r.descendants.roots.isEmpty

/-- What the last `match` of `establish_native_child` makes of a startup's outcome, through
`SpawnError::from_local`: the evidence for the row and the settlement.  Every other outcome, and a
lane that is not empty, panics. -/
def startupRejection (c : RoutedCreation P) (notification : Notification P.child) :
    ActorExecutionOutcome P.child → Option (StartupEvidence P × ChildCreationOutcome P)
  | .retired r =>
    let residual : LocalResidual P.child := r.residual
    let creation := { c with child := r.behavior }
    let evidence primary : StartupEvidence P :=
      { primaryFailure := primary
        additionalFailures := r.additionalFailures
        terminalReport := residual.terminalReport
        retirementFailures := residual.retirementFailures
        terminationNotification := notification
        retirementReport := fromJoined (.ok (.retired r)) notification }
    if !residual.untouched then none
    else
      match r.disposition, residual.phase with
      | .error (.behavior error), .prepared =>
        some (evidence none, .initializationRejected creation error)
      | .error (.initializationPanicked payload), .prepared =>
        some (evidence (some (.initializationPanicked payload)), .initializationPanicked creation)
      | .error (.activation (.address error)), .uncommitted (.original initialization) =>
        some (evidence (some (.activation (.address error))),
          .hostRejected creation initialization
            (match error with
              | .addressInUse _ => .allocation P.addressAlreadyClaimed
              | .registrationIdsExhausted _ => .environmentFailed))
      | .error (.activation .bindingAbandoned), .uncommitted (.original initialization) =>
        some (evidence (some (.activation .bindingAbandoned)),
          .hostRejected creation initialization .environmentFailed)
      | .error (.activationPanicked payload), .uncommitted (.original initialization) =>
        some (evidence (some (.activationPanicked payload)),
          .hostRejected creation initialization .environmentFailed)
      | _, _ => none
  | .panicked | .cancelled => none

/-! ## The registry and what works on it -/

/-- Where `receive_retirement` is: about to enter an occurrence, about to look at the first row of
its order, or suspended in that row. -/
inductive RetirePoint
  | enter (depth : ℕ)
  | row (depth : ℕ)
  | wait (depth : ℕ)
  deriving DecidableEq, Repr

/-- What works on the registry. -/
inductive Activity (P : ChildPort)
  | idle
  /-- A creation waits for the private commitment of its child. -/
  | startup (depth : ℕ) (creation : RoutedCreation P) (site : Site P)
  /-- A creation waits for the task of a child that ended instead. -/
  | rawStartup (depth : ℕ) (creation : RoutedCreation P) (site : Site P)
  | retiring (point : RetirePoint)
  | panicked

/-- The registry with the lanes into which retirement receives, and the settlements returned. -/
structure ChildRegistry (P : ChildPort) where
  bindings : Option (List (Occurrence P))
  retired : List P.Root
  failures : List (ChildFailure P)
  descendantReport : ActorRetirementReport
  settled : List (CreationSettlement P)
  activity : Activity P

/-- What happens to the registry. -/
inductive ChildOp (P : ChildPort)
  /-- A creation is requested of an occurrence; the allocation of its address succeeds or not. -/
  | create (depth : ℕ) (creation : RoutedCreation P)
      (allocated : Except P.AllocationRejection P.child.Address)
  /-- The private commitment arrives, or its sender is gone; a child that is committed receives the
  acknowledgement of its binding or not. -/
  | started (commitment : Except RecvError P.Installed) (acknowledged : Bool)
  /-- The creation polls the task of a child that ended. -/
  | finish (a : Answer P)
  /-- The future of a creation is dropped where it waits. -/
  | abandon
  /-- `receive_retirement` is called. -/
  | retire
  /-- It is polled and goes on to the next place where it can wait. -/
  | run (a : Answer P)
  /-- Its future is dropped where it waits. -/
  | drop

namespace ChildRegistry

variable [DecidableEq P.Id]

/-- The registry of an actor that has just been made. -/
def new (occurrences : ℕ) : ChildRegistry P where
  bindings := some (List.replicate occurrences .empty)
  retired := []
  failures := []
  descendantReport := .clear
  settled := []
  activity := .idle

variable (s : ChildRegistry P)

/-- The registry after a panic. -/
def unwound : ChildRegistry P := { s with activity := .panicked }

/-- The operation goes on with the occurrence at `depth` changed. -/
def put (os : List (Occurrence P)) (depth : ℕ) (o : Occurrence P) (activity : Activity P) :
    ChildRegistry P :=
  { s with bindings := some (os.set depth o), activity := activity }

/-- A row is recorded, and the operation goes on. -/
def record (os : List (Occurrence P)) (depth : ℕ) (o : Occurrence P) (id : P.Id)
    (row : CreationBinding P) (activity : Activity P) : ChildRegistry P :=
  match o.recordChildCreation id row with
  | none => s.unwound
  | some o => s.put os depth o activity

/-- A creation returns its settlement. -/
def settle (settlement : CreationSettlement P) : ChildRegistry P :=
  { s with settled := s.settled ++ [settlement] }

/-- `establish_native_child`, up to its first await. -/
def create (os : List (Occurrence P)) (depth : ℕ) (o : Occurrence P) (c : RoutedCreation P)
    (allocated : Except P.AllocationRejection P.child.Address) : ChildRegistry P :=
  if c.id ∈ o.creations then s.settle (.rejected c .correlationAlreadyRecorded)
  else
    match allocated with
    | .error reason =>
      (s.record os depth o c.id .rejected .idle).settle (.rejected c (.allocation reason))
    | .ok address =>
      let site : Site P := ⟨c.kind, address, c.route⟩
      s.record os depth o c.id (.starting site (some ⟨true, .armed⟩)) (.startup depth c site)

/-- The code after `startup.await`; it asserts that the acknowledgement is received. -/
def started (os : List (Occurrence P)) (depth : ℕ) (o : Occurrence P) (c : RoutedCreation P)
    (site : Site P) (acknowledged : Bool) : Except RecvError P.Installed → ChildRegistry P
  | .ok installed =>
    match o.creations.lookup c.id with
    | some (.starting _ (some ⟨true, cancellation⟩)) =>
      let s := s.record os depth (o.remove c.id) c.id
        (.established site installed (.fresh (some ⟨true, cancellation⟩))) .idle
      if acknowledged then s.settle (.accepted (.established c.id c.kind installed)) else s.unwound
    | _ => s.unwound
  | .error _ =>
    match o.creations.lookup c.id with
    | some (.starting _ task) =>
      s.record os depth (o.remove c.id) c.id (.retiringStartup site (.raw (.fresh task)))
        (.rawStartup depth c site)
    | _ => s.unwound

/-- One poll of `receive_finish` by a creation, and the code after it. -/
def finish (os : List (Occurrence P)) (depth : ℕ)
    (o : Occurrence P) (c : RoutedCreation P) (site : Site P) (a : Answer P) : ChildRegistry P :=
  match o.creations.lookup c.id with
  | some (.retiringStartup _ (.raw slots)) =>
    let (slots, ready) := slots.receiveFinish a.joined (a.notification.map unwrapNotification)
    let o := o.update c.id (.retiringStartup site (.raw slots))
    if !ready then s.put os depth o (.rawStartup depth c site)
    else
      match slots.received, slots.notice with
      | some (.error _), _ => (s.put os depth o .idle).settle (.accepted (.unavailable c.id c.kind))
      | some (.ok outcome), some notification =>
        match startupRejection c notification outcome with
        | none => s.unwound
        | some (evidence, result) =>
          (s.record os depth (o.remove c.id) c.id (.startupRejected site evidence) .idle).settle
            (.accepted result)
      | _, _ => s.unwound
  | _ => s.unwound

/-- `request_retirement`, from the occurrence at the head on. -/
def requestAll (os : List (Occurrence P)) : Option (List (Occurrence P)) :=
  os.mapM Occurrence.requestRetirement

/-- `receive_retirement` enters the occurrence at `depth`. -/
def enter (os : List (Occurrence P)) (depth : ℕ) : ChildRegistry P :=
  match os[depth]? with
  | none => { s with bindings := none, activity := .idle }
  | some o =>
    let s := { s with descendantReport := o.startupReports s.descendantReport }
    if o.guarded then { s with activity := .idle }
    else
      match requestAll (os.drop depth) with
      | none => s.unwound
      | some tail =>
        { s with bindings := some (os.take depth ++ tail), activity := .retiring (.row depth) }

/-- The first row of the order has answered. -/
def settleRow (os : List (Occurrence P)) (depth : ℕ) (o : Occurrence P) (id : P.Id) :
    RowPoll P → ChildRegistry P
  | .suspended row report =>
    { s.put os depth (o.update id row) (.retiring (.wait depth)) with descendantReport := report }
  | .returned row report =>
    { s.put os depth (o.update id row) .idle with descendantReport := report }
  | .extracted row report =>
    match row.emit id with
    | none => s.unwound
    | some emission =>
      { s.put os depth { o.remove id with creationOrder := o.creationOrder.tail }
          (.retiring (.row depth)) with
        retired := s.retired ++ emission.root.toList
        failures := s.failures ++ emission.failure.toList
        descendantReport := report }
  | .panicked => s.unwound

/-- The loop over the rows of the occurrence at `depth`: its head, or a further poll of the row it
is suspended in. -/
def runRow (entering : Bool) (os : List (Occurrence P)) (depth : ℕ) (o : Occurrence P)
    (a : Answer P) :
    ChildRegistry P :=
  match o.creationOrder with
  | [] => { s with activity := .retiring (.enter (depth + 1)) }
  | id :: _ =>
    match o.creations.lookup id with
    | none => s.unwound
    | some row => s.settleRow os depth o id (row.receive entering a s.descendantReport)

/-- `receive_retirement` goes on. -/
def run (os : List (Occurrence P)) (a : Answer P) : RetirePoint → ChildRegistry P
  | .enter depth => s.enter os depth
  | .row depth =>
    match os[depth]? with
    | none => s.unwound
    | some o => s.runRow true os depth o a
  | .wait depth =>
    match os[depth]? with
    | none => s.unwound
    | some o => s.runRow false os depth o a

/-- One operation or poll. -/
def step (s : ChildRegistry P) : ChildOp P → Option (ChildRegistry P)
  | .create depth c allocated =>
    match s.activity, s.bindings with
    | .idle, some os => os[depth]?.map fun o => s.create os depth o c allocated
    | _, _ => none
  | .started commitment acknowledged =>
    match s.activity, s.bindings with
    | .startup depth c site, some os =>
      os[depth]?.map fun o => s.started os depth o c site acknowledged commitment
    | _, _ => none
  | .finish a =>
    match s.activity, s.bindings with
    | .rawStartup depth c site, some os =>
      os[depth]?.map fun o => s.finish os depth o c site a
    | _, _ => none
  | .abandon =>
    match s.activity with
    | .startup .. | .rawStartup .. => some { s with activity := .idle }
    | _ => none
  | .retire =>
    match s.activity, s.bindings with
    | .idle, some _ => some { s with activity := .retiring (.enter 0) }
    | .idle, none => some s
    | _, _ => none
  | .run a =>
    match s.activity, s.bindings with
    | .retiring point, some os => some (s.run os a point)
    | _, _ => none
  | .drop =>
    match s.activity with
    | .retiring (.wait _) => some { s with activity := .idle }
    | _ => none

end ChildRegistry

end Local
