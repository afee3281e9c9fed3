import Bombay.Local.Termination

/-!
# The environment of a local actor

`LocalEnvironment` is the prepared half of an incarnation, `ActiveLocalEnvironment` the live one.
Both are records of optional slots.  Every operation borrows the caller's slots beside them, moves
values from slot to slot, and keeps what it has where it can be found again if its future is dropped
at an await.

The functions below run an operation from one await to the next.  What the outside contributes, the
answers of a channel, of the children, of the interpreted actions and of destructors, comes in as
an argument.  Slots whose values nobody reads again (a lease, a reservation, a sender) are Booleans:
occupied or not.
-/

set_option autoImplicit false

namespace Local

open Engine

variable {P : ActorPort}

/-! ## Capabilities -/

/-- The lanes that retirement acquires. -/
structure CapabilityRetirement (P : ActorPort) where
  activationTasks : List P.Task
  descendants : Descendants P
  operationFailures : ActorFailureAssessment
  descendantReport : ActorRetirementReport
  terminalReport : Option (Except P.Termination Unit)
  retirementFailures : List P.Payload

/-- `ApplicationCapabilities`, the fields that commits and retirement work on. -/
structure Capabilities (P : ActorPort) where
  activationTasks : Option (List P.Task)
  operationFailures : ActorFailureAssessment
  childBindings : Option P.Bindings
  terminalReports : LocalTerminalReports P

/-- The interpreter, which owns the capabilities. -/
structure ActionInterpreter (P : ActorPort) where
  capabilities : Option (Capabilities P)

/-- The capabilities of an interpreter in its slot. -/
def ActionInterpreter.inside (interpreter : Option (ActionInterpreter P)) :
    Option (Capabilities P) :=
  interpreter.bind ActionInterpreter.capabilities

/-- What the children answer to a poll. -/
structure RetirementAnswer (P : ActorPort) where
  /-- `Bindings::receive_retirement` returned. -/
  ready : Bool
  /-- The registry as it is after the poll. -/
  bindings : Option P.Bindings
  /-- The children's results that were received. -/
  roots : List P.DescendantRoot
  failures : List P.DescendantFailure
  report : ActorRetirementReport
  /-- The payload of an `unreachable!`, should it be reached. -/
  refusal : P.Payload
  /-- What the destructors of the capabilities threw. -/
  disposal : List P.Payload
  /-- A fence that is drained with the mailbox has a waker that panics. -/
  fencePanics : Bool

/-- The slots of a retirement that was polled. -/
structure Retiring (P : ActorPort) (α : Type) where
  owner : Option α
  received : Option (CapabilityRetirement P)
  channel : Oneshot P.Termination
  ready : Bool

namespace Capabilities

variable (owner : Capabilities P)

/-- The lanes of a retirement that begins. -/
def lanes (tasks : List P.Task) : CapabilityRetirement P where
  activationTasks := tasks
  descendants := ⟨[], []⟩
  operationFailures := owner.operationFailures
  descendantReport := .clear
  terminalReport := none
  retirementFailures := []

/-- The children are received; once they are, the terminal report goes to its channel and the
capabilities are disposed of. -/
def receiveChildren (a : RetirementAnswer P) (retirement : CapabilityRetirement P)
    (channel : Oneshot P.Termination) : Retiring P (Capabilities P) :=
  let owner := { owner with childBindings := a.bindings }
  let retirement := { retirement with
    descendants :=
      ⟨retirement.descendants.roots ++ a.roots, retirement.descendants.failures ++ a.failures⟩
    descendantReport := a.report }
  if !a.ready then ⟨some owner, some retirement, channel, false⟩
  else if owner.childBindings.isSome then ⟨some owner, some retirement, channel, true⟩
  else
    let sent := owner.terminalReports.receiveRetirement channel retirement.terminalReport
    let retirement := { retirement with
      terminalReport := sent.publication
      retirementFailures :=
        retirement.retirementFailures ++ if sent.refused then [a.refusal] else [] }
    if !sent.reports.retirementComplete then
      ⟨some { owner with terminalReports := sent.reports }, some retirement, sent.channel, true⟩
    else
      ⟨none, some { retirement with
        retirementFailures := retirement.retirementFailures ++ a.disposal }, sent.channel, true⟩

/-- `RetireCapabilities::receive_retirement`.  A further poll of its future finds the tasks taken
and goes on with the children. -/
def receiveRetirement (a : RetirementAnswer P) (capabilities : Option (Capabilities P))
    (received : Option (CapabilityRetirement P)) (channel : Oneshot P.Termination) :
    Retiring P (Capabilities P) :=
  match capabilities with
  | none => ⟨none, received, channel, true⟩
  | some owner =>
    match owner.activationTasks, received with
    | some _, some _ | none, none => ⟨some owner, received, channel, true⟩
    | none, some retirement => owner.receiveChildren a retirement channel
    | some tasks, none =>
      { owner with activationTasks := none }.receiveChildren a (owner.lanes tasks) channel

end Capabilities

/-- `CommitActions::receive_retirement` of an `ActionInterpreter`. -/
def ActionInterpreter.receiveRetirement (a : RetirementAnswer P)
    (interpreter : Option (ActionInterpreter P)) (received : Option (CapabilityRetirement P))
    (channel : Oneshot P.Termination) : Retiring P (ActionInterpreter P) :=
  match interpreter with
  | none => ⟨none, received, channel, true⟩
  | some owner =>
    let r := Capabilities.receiveRetirement a owner.capabilities received channel
    if r.ready && r.owner.isNone && r.received.isSome then ⟨none, r.received, r.channel, true⟩
    else ⟨some ⟨r.owner⟩, r.received, r.channel, r.ready⟩

/-! ## Commits -/

/-- What a commit answers. -/
structure CommitAnswer (P : ActorPort) where
  /-- The terminal outcomes that were reported in it. -/
  reports : List P.Termination
  progress : InterpretationProgress P
  /-- The activation tasks and the registry as they are after the poll. -/
  activationTasks : List P.Task
  bindings : P.Bindings
  /-- If the interpretation returned, the class of the settlement it may have left. -/
  status : Option SettlementStatus

/-- `terminal_disposition` in `commit`; `None` where it returns at once. -/
def terminalDisposition : Option (InterpretationProgress P) → Option TerminalReportDisposition
  | some (.original actions) => some (ofStep (P.become_ actions))
  | some (.interpreting custody) => some (ofStep (P.interpretingBecome custody))
  | some (.completed _) | none => none
where
  /-- `Continue` discards, `Stop` retains. -/
  ofStep : Step → TerminalReportDisposition
    | .cont => .discard
    | .stop => .retain

namespace Capabilities

variable (c : Capabilities P)

/-- The interpretation of actions ran for a while. -/
def interpret (a : CommitAnswer P) : Capabilities P where
  activationTasks := some a.activationTasks
  operationFailures := c.operationFailures
  childBindings := some a.bindings
  terminalReports := a.reports.foldl .reportOutcome c.terminalReports

/-- What a settlement says of failures. -/
def failuresOf : SettlementStatus → ActorFailureAssessment
  | .accepted => .noFailuresFound
  | .rejected | .corrupt => .failuresFound

/-- The end of `commit`. -/
def finishCommit (progress : InterpretationProgress P) (status : SettlementStatus)
    (disposition : TerminalReportDisposition) : Capabilities P :=
  { c with
    operationFailures :=
      match progress with
      | .completed _ => c.operationFailures.combine (failuresOf status)
      | _ => c.operationFailures
    terminalReports := c.terminalReports.finish disposition }

/-- One poll of `commit`, after its disposition was read. -/
def commit (disposition : TerminalReportDisposition) (a : CommitAnswer P) : Capabilities P :=
  match a.status with
  | none => c.interpret a
  | some status => (c.interpret a).finishCommit a.progress status disposition

theorem commit_terminalReports (disposition : TerminalReportDisposition) (a : CommitAnswer P) :
    (c.commit disposition a).terminalReports.selection =
      a.status.elim (a.reports.foldl .select c.terminalReports.selection) fun _ =>
        (a.reports.foldl .select c.terminalReports.selection).finish disposition := by
  rw [commit]
  cases a.status with
  | none => exact c.terminalReports.foldl_selection a.reports
  | some =>
    exact congrArg (TerminationSelection.finish · disposition)
      (c.terminalReports.foldl_selection a.reports)

theorem commit_report (disposition : TerminalReportDisposition) (a : CommitAnswer P) :
    (c.commit disposition a).terminalReports.report = c.terminalReports.report := by
  rw [commit]
  cases a.status <;> exact c.terminalReports.foldl_report a.reports

end Capabilities

/-! ## The prepared environment -/

/-- What a mailbox holds: the two lanes of a `Consumer`. -/
structure Lanes (P : ActorPort) where
  control : List P.Event
  user : List P.Item

/-- What retirement keeps of a mailbox: its control events, and its items but for the fences. -/
def Lanes.retained (lanes : Lanes P) : Drained P :=
  ⟨lanes.control, lanes.user.filterMap P.retainAtRetirement⟩

/-- `collect_retired_ingress` completes the fences among the items.  If a waker panics there, it
unwinds with what was drained. -/
def Lanes.collectRetiredIngress (panics : Bool) (lanes : Lanes P) : Option (Drained P) :=
  if panics && lanes.user.any fun item => (P.retainAtRetirement item).isNone then none
  else some lanes.retained

/-- The slots of a mailbox once it is drained, unless it was before, and whether that returned. -/
def drainIngress (panics : Bool) (lanes : Option (Lanes P)) (retired : Option (Drained P)) :
    Option (Lanes P) × Option (Drained P) × Bool :=
  match retired, lanes with
  | none, some unread =>
    let drained := unread.collectRetiredIngress panics
    (none, drained, drained.isSome)
  | _, _ => (lanes, retired, true)

/-- `close_owner_cancellation`: a request that was accepted and never read survives. -/
def closeOwnerCancellation (accepted : Bool) : Option Unit := if accepted then some () else none

/-- The receiver of the owner's request is taken and closed, if it is there. -/
def takeOwnerCancellation (receiver : Option Bool) (unread : Option Unit) : Option Unit :=
  match receiver with
  | some accepted => closeOwnerCancellation accepted
  | none => unread

/-- Where a poll leaves the call of an operation. -/
inductive CallStatus
  | returned
  /-- It is suspended at its await. -/
  | waiting
  | unwound
  deriving DecidableEq, Repr

/-- The prepared environment. -/
structure LocalEnvironment (P : ActorPort) where
  consumer : Option (Lanes P)
  /-- The owner of the admission is there. -/
  admission : Bool
  controlLiveness : Bool
  interpreter : Option (ActionInterpreter P)
  /-- The receiver, and whether a request is waiting in it. -/
  ownerCancellation : Option Bool
  commitment : Bool
  reservation : Bool
  acknowledgement : Bool
  acknowledged : Option (Except RecvError Unit)
  initialization : Option (InterpretationProgress P)
  activationRejection : Option (LocalActivationRejection P)
  retirement : Option (CapabilityRetirement P)
  retiredIngress : Option (Drained P)
  unreadOwnerCancellation : Option Unit
  residual : Option (LocalResidual P)

/-- The residual made of a capability retirement and of what the environment held. -/
def CapabilityRetirement.residual (r : CapabilityRetirement P) (phase : ResidualPhase P)
    (ingress : Drained P) (unread : Option Unit) : LocalResidual P where
  phase := phase
  receivedInterpretation := none
  receivedSource := none
  sourceIndex := none
  acquiredIngress := none
  ingress := ingress
  activationTasks := r.activationTasks
  descendants := r.descendants
  operationFailures := r.operationFailures
  descendantReport := r.descendantReport
  capabilityFailures := []
  terminalReport := r.terminalReport
  retirementFailures := r.retirementFailures
  unreadOwnerCancellation := unread

namespace LocalEnvironment

variable (e : LocalEnvironment P)

/-- `LocalEnvironment::prepare`, with a private commitment or without. -/
def prepare (commitment : Bool) : LocalEnvironment P where
  consumer := some ⟨[], []⟩
  admission := true
  controlLiveness := true
  interpreter := some ⟨some ⟨some [], .noFailuresFound, some P.noBindings, .new⟩⟩
  ownerCancellation := some false
  commitment := commitment
  reservation := false
  acknowledgement := false
  acknowledged := none
  initialization := none
  activationRejection := none
  retirement := none
  retiredIngress := none
  unreadOwnerCancellation := none
  residual := none

/-- `receive_retirement`, up to its await. -/
def beginRetirement (panics : Bool) : LocalEnvironment P :=
  { e with
    ownerCancellation := none
    unreadOwnerCancellation := takeOwnerCancellation e.ownerCancellation e.unreadOwnerCancellation
    admission := false
    consumer := (drainIngress panics e.consumer e.retiredIngress).1
    retiredIngress := (drainIngress panics e.consumer e.retiredIngress).2.1 }

/-- `receive_retirement`, once the interpreter is gone. -/
def concludeRetirement : LocalEnvironment P :=
  let e := { e with
    reservation := false, acknowledgement := false, commitment := false, controlLiveness := false }
  match e.retirement, e.retiredIngress with
  | some retirement, some ingress =>
    { e with
      retirement := none
      retiredIngress := none
      initialization := none
      unreadOwnerCancellation := none
      residual := some (retirement.residual
        (e.initialization.elim .prepared .uncommitted) ingress e.unreadOwnerCancellation) }
  | _, _ => e

/-- `receive_retirement`, from its await on. -/
def pollRetirement (a : RetirementAnswer P) (channel : Oneshot P.Termination) :
    LocalEnvironment P × Oneshot P.Termination × CallStatus :=
  let r := ActionInterpreter.receiveRetirement a e.interpreter e.retirement channel
  let e := { e with interpreter := r.owner, retirement := r.received }
  if !r.ready then (e, r.channel, .waiting)
  else if e.interpreter.isSome then (e, r.channel, .returned)
  else (e.concludeRetirement, r.channel, .returned)

/-- `LocalEnvironment::receive_retirement`: a call, or a further poll of its future. -/
def receiveRetirement (entering : Bool) (a : RetirementAnswer P) (channel : Oneshot P.Termination) :
    LocalEnvironment P × Oneshot P.Termination × CallStatus :=
  if !entering then e.pollRetirement a channel
  else if e.residual.isSome then (e, channel, .returned)
  else if !(drainIngress a.fencePanics e.consumer e.retiredIngress).2.2 then
    (e.beginRetirement a.fencePanics, channel, .unwound)
  else (e.beginRetirement a.fencePanics).pollRetirement a channel

/-- The owners that the residual must not leave behind are gone. -/
def retired : Bool :=
  e.consumer.isNone && e.interpreter.isNone && e.retirement.isNone && e.retiredIngress.isNone

end LocalEnvironment

/-- A call of `LocalEnvironment::retire`: the slots it borrows, the channel of the terminal report,
and where its last poll has left it. -/
structure PreparedRetire (P : ActorPort) where
  environment : Option (LocalEnvironment P)
  actions : Option P.Actions
  received : Option (LocalResidual P)
  channel : Oneshot P.Termination
  status : CallStatus

namespace PreparedRetire

variable (s : PreparedRetire P)

/-- The environment receives its retirement, and hands over the residual if it is complete. -/
def resume (entering : Bool) (a : RetirementAnswer P) (owner : LocalEnvironment P) :
    PreparedRetire P :=
  let (owner, channel, status) := owner.receiveRetirement entering a s.channel
  match status, owner.residual, owner.retired with
  | .returned, some residual, true =>
    { s with environment := none, received := some residual, channel := channel, status := status }
  | _, _, _ => { s with environment := some owner, channel := channel, status := status }

/-- `LocalEnvironment::retire` is called. -/
def call (a : RetirementAnswer P) : PreparedRetire P :=
  if s.received.isSome then s
  else
    match s.environment with
    | none => s
    | some owner =>
      match s.actions with
      | some actions =>
        if owner.initialization.isSome || owner.residual.isSome then s
        else
          { s with actions := none }.resume true a
            { owner with initialization := some (.original actions) }
      | none => s.resume true a owner

end PreparedRetire

/-! ## The live environment -/

/-- Whether the address is published. -/
inductive Publication
  | pending
  | published
  deriving DecidableEq, Repr

/-- The live environment. -/
structure ActiveLocalEnvironment (P : ActorPort) where
  /-- The consumer of the inbox. -/
  inbox : Option (Lanes P)
  admission : Bool
  controlLiveness : Bool
  interpreter : Option (ActionInterpreter P)
  ownerCancellation : Option Bool
  publication : Option Publication
  lease : Bool
  interpretation : Option (InterpretationProgress P)
  source : Option (SourceProgress P)
  receivedInterpretation : Option (Interpretation P.Settlement)
  receivedSource : Option (SourceCustody P.Settlement)
  sourceIndex : Option ℕ
  acquiredIngress : Option (ControlFlow (LocalRetirementRequest P) (Option P.Event))
  retirement : Option (CapabilityRetirement P)
  retiredIngress : Option (Drained P)
  unreadOwnerCancellation : Option Unit

/-- A call of `ActiveLocalEnvironment::retire`. -/
structure ActiveRetire (P : ActorPort) where
  environment : Option (ActiveLocalEnvironment P)
  actions : Option P.Actions
  interpretation : Option (Interpretation P.Settlement)
  source : Option (SourceCustody P.Settlement)
  sourceIndex : Option ℕ
  ingress : Option (ControlFlow (LocalRetirementRequest P) (Option P.Event))
  settlements : Option (List P.Settlement)
  received : Option (LocalResidual P)
  channel : Oneshot P.Termination
  status : CallStatus

namespace ActiveRetire

variable (s : ActiveRetire P)

/-- Independent originals of one kind that coexist. -/
def coexist (owner : ActiveLocalEnvironment P) : Bool :=
  (owner.interpretation.isSome && s.actions.isSome) ||
    (owner.receivedInterpretation.isSome && s.interpretation.isSome) ||
    (owner.receivedSource.isSome && s.source.isSome) ||
    (owner.sourceIndex.isSome && s.sourceIndex.isSome) ||
    (owner.acquiredIngress.isSome && s.ingress.isSome)

/-- The originals enter the environment, and its lanes are closed. -/
def receive (panics : Bool) (owner : ActiveLocalEnvironment P) : ActiveLocalEnvironment P :=
  { owner with
    interpretation := if s.actions.isSome then s.actions.map .original else owner.interpretation
    receivedInterpretation :=
      if owner.receivedInterpretation.isNone then s.interpretation else owner.receivedInterpretation
    receivedSource := if owner.receivedSource.isNone then s.source else owner.receivedSource
    sourceIndex := if owner.sourceIndex.isNone then s.sourceIndex else owner.sourceIndex
    acquiredIngress := if owner.acquiredIngress.isNone then s.ingress else owner.acquiredIngress
    ownerCancellation := none
    unreadOwnerCancellation :=
      takeOwnerCancellation owner.ownerCancellation owner.unreadOwnerCancellation
    admission := false
    inbox := (drainIngress panics owner.inbox owner.retiredIngress).1
    retiredIngress := (drainIngress panics owner.inbox owner.retiredIngress).2.1 }

/-- The caller's slots after that. -/
def surrendered (owner : ActiveLocalEnvironment P) : ActiveRetire P :=
  { s with
    actions := none
    interpretation := if owner.receivedInterpretation.isNone then none else s.interpretation
    source := if owner.receivedSource.isNone then none else s.source
    sourceIndex := if owner.sourceIndex.isNone then none else s.sourceIndex
    ingress := if owner.acquiredIngress.isNone then none else s.ingress }

/-- The residual of a live environment. -/
def residualOf (owner : ActiveLocalEnvironment P) (retirement : CapabilityRetirement P)
    (ingress : Drained P) (settlements : List P.Settlement) : LocalResidual P :=
  { retirement.residual (.retired owner.interpretation owner.source settlements) ingress
      owner.unreadOwnerCancellation with
    receivedInterpretation := owner.receivedInterpretation
    receivedSource := owner.receivedSource
    sourceIndex := owner.sourceIndex
    acquiredIngress := owner.acquiredIngress }

/-- The interpreter is polled, and the residual is handed over once it is gone.  The caller's
settlements were seen before the await and stay in their slot until then. -/
def resume (a : RetirementAnswer P) (owner : ActiveLocalEnvironment P)
    (settlements : List P.Settlement) : ActiveRetire P :=
  let r := ActionInterpreter.receiveRetirement a owner.interpreter owner.retirement s.channel
  let owner := { owner with interpreter := r.owner, retirement := r.received }
  if !r.ready then { s with environment := some owner, channel := r.channel, status := .waiting }
  else if owner.interpreter.isSome then
    { s with environment := some owner, channel := r.channel, status := .returned }
  else
    let owner := { owner with controlLiveness := false, lease := false, publication := none }
    match owner.retirement, owner.retiredIngress with
    | some retirement, some ingress =>
      { s with
        environment := none
        settlements := none
        received := some (residualOf owner retirement ingress settlements)
        channel := r.channel
        status := .returned }
    | _, _ => { s with environment := some owner, channel := r.channel, status := .returned }

/-- `ActiveLocalEnvironment::retire` is called. -/
def call (a : RetirementAnswer P) : ActiveRetire P :=
  if s.received.isSome then s
  else
    match s.environment, s.settlements with
    | some owner, some settlements =>
      if s.coexist owner then s
      else if !(drainIngress a.fencePanics owner.inbox owner.retiredIngress).2.2 then
        { s.surrendered owner with
          environment := some (s.receive a.fencePanics owner)
          status := .unwound }
      else (s.surrendered owner).resume a (s.receive a.fencePanics owner) settlements
    | _, _ => s

end ActiveRetire

/-! ## Calls that are dropped and repeated -/

/-- What happens to a retirement. -/
inductive RetireOp (P : ActorPort)
  | call (a : RetirementAnswer P)
  /-- Its future is polled again. -/
  | poll (a : RetirementAnswer P)
  /-- Its future is dropped at its await. -/
  | drop

/-- Either of the two retirements. -/
inductive LocalRetire (P : ActorPort)
  | prepared (s : PreparedRetire P)
  | active (s : ActiveRetire P)

/-- One call, poll or drop. -/
def LocalRetire.step : LocalRetire P → RetireOp P → Option (LocalRetire P)
  | .prepared s, .call a =>
    if s.status = .waiting then none else some (.prepared ({ s with status := .returned }.call a))
  | .prepared s, .poll a =>
    match s.status, s.environment with
    | .waiting, some owner => some (.prepared (s.resume false a owner))
    | _, _ => none
  | .prepared s, .drop =>
    if s.status = .waiting then some (.prepared { s with status := .returned }) else none
  | .active s, .call a =>
    if s.status = .waiting then none else some (.active ({ s with status := .returned }.call a))
  | .active s, .poll a =>
    match s.status, s.environment, s.settlements with
    | .waiting, some owner, some settlements => some (.active (s.resume a owner settlements))
    | _, _, _ => none
  | .active s, .drop =>
    if s.status = .waiting then some (.active { s with status := .returned }) else none

end Local
