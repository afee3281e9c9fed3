import Bombay.Machine.Run
import Bombay.Local.Environment

/-!
# One actor, from its start to its termination

`ActorExecution` runs the driver once, over the local environment, and has its termination published
when the driver has retired, or when its future is dropped or unwinds.

The driver's own code is `Engine.step`.  Between the start and the end of an operation of the
environment the driver waits, and the operation runs by steps of its own, from one place where it
can be suspended to the next.  The environment is in one place at a time: in a slot of the driver or
lent to an operation.  Events, offers, the publication of the address and what user code decides are
arbitrary inputs.
-/

set_option autoImplicit false

namespace Local

open Machine Engine

variable {P : ActorPort}

/-! ## Activation -/

/-- What `activate` replies, with the environment itself. -/
abbrev Activated (P : ActorPort) : Type :=
  Except (LocalActivationRejection P × LocalResidual P)
    (ActiveLocalEnvironment P × Interpretation P.Settlement)

/-- The slots that `activate` borrows. -/
structure ActivateCall (P : ActorPort) where
  environment : Option (LocalEnvironment P)
  actions : Option P.Actions
  received : Option (Activated P)

/-- Where an activation waits. -/
inductive ActivatePoint
  /-- Before `interpreter.initialize()`. -/
  | initializing
  /-- At the acknowledgement of the private commitment. -/
  | acknowledge
  /-- At the retirement after a refusal; `begun` tells a further poll from the call. -/
  | retire (begun : Bool)
  /-- At the commit of the initialization. -/
  | commit (disposition : TerminalReportDisposition)
  | returned
  /-- The drain of the mailbox has panicked. -/
  | unwound
  deriving DecidableEq, Repr

/-- What `activate` meets before its first await. -/
structure ActivateAnswer (P : ActorPort) where
  reserved : Except (ClaimError P.Address) Unit
  /-- The creator still waits for the private commitment. -/
  receiver : Bool

namespace LocalEnvironment

variable (e : LocalEnvironment P)

/-- The address is reserved, or refused. -/
def reserve (a : ActivateAnswer P) : LocalEnvironment P :=
  if e.activationRejection.isNone && !e.reservation then
    match a.reserved with
    | .ok () => { e with reservation := true }
    | .error error => { e with activationRejection := some (.address error) }
  else e

/-- The private commitment is sent, if there is one. -/
def bind (a : ActivateAnswer P) : LocalEnvironment P :=
  if e.activationRejection.isNone && e.commitment then
    { e with
      commitment := false
      acknowledgement := true
      activationRejection := if a.receiver then none else some .bindingAbandoned }
  else e

/-- The acknowledgement came, or its sender is gone. -/
def acknowledge (r : Except RecvError Unit) : LocalEnvironment P :=
  { e with
    acknowledged := some r
    acknowledgement := false
    activationRejection := if isErr r then some .bindingAbandoned else e.activationRejection }

/-- The live environment that a prepared one turns into, if all its owners are in place. -/
def activated : Option (ActiveLocalEnvironment P × Interpretation P.Settlement) :=
  match e.consumer, e.interpreter, e.initialization, e.ownerCancellation with
  | some consumer, some interpreter, some (.completed interpretation), some ownerCancellation =>
    if e.reservation && e.controlLiveness && !e.acknowledgement && e.activationRejection.isNone &&
        e.retirement.isNone && e.retiredIngress.isNone && e.residual.isNone then
      some ({
        inbox := some consumer
        admission := e.admission
        controlLiveness := true
        interpreter := some interpreter
        ownerCancellation := some ownerCancellation
        publication := some .pending
        lease := false
        interpretation := none
        source := none
        receivedInterpretation := none
        receivedSource := none
        sourceIndex := none
        acquiredIngress := none
        retirement := none
        retiredIngress := none
        unreadOwnerCancellation := none }, interpretation)
    else none
  | _, _, _, _ => none

/-- The interpreter's capabilities, which a commit works on, are replaced. -/
def withCapabilities (c : Capabilities P) : LocalEnvironment P :=
  { e with interpreter := some ⟨some c⟩ }

end LocalEnvironment

namespace ActivateCall

variable (s : ActivateCall P)

/-- The last `match` of `activate`. -/
def finish (owner : LocalEnvironment P) : ActivateCall P × ActivatePoint :=
  match owner.activated with
  | some activated => ({ s with environment := none, received := some (.ok activated) }, .returned)
  | none => ({ s with environment := some owner }, .returned)

theorem finish_eq (owner : LocalEnvironment P) :
    (∃ e i, s.finish owner = ({ s with environment := none, received := some (.ok (e, i)) },
      .returned) ∧ e.interpreter = owner.interpreter ∧ e.interpretation = none) ∨
      s.finish owner = ({ s with environment := some owner }, .returned) := by
  unfold finish
  cases h : owner.activated with
  | none => exact .inr rfl
  | some activated =>
    refine .inl ⟨activated.1, activated.2, rfl, ?_⟩
    unfold LocalEnvironment.activated at h
    split at h
    · rename_i hint _ _
      split at h
      · cases h
        exact ⟨hint.symm, rfl⟩
      · cases h
    · cases h

/-- `activate`, up to `initialize`. -/
def enter : ActivateCall P × ActivatePoint :=
  if s.received.isSome then (s, .returned)
  else
    match s.environment with
    | none => (s, .returned)
    | some owner =>
      match owner.initialization, s.actions with
      | some _, some _ | none, none => (s, .returned)
      | none, some actions =>
        ({ s with
            environment := some { owner with initialization := some (.original actions) }
            actions := none },
          if owner.residual.isSome then .returned else .initializing)
      | some _, none => (s, if owner.residual.isSome then .returned else .initializing)

variable {e : LocalEnvironment P}

theorem enter_none (he : e.initialization = none) :
    enter ⟨some e, none, none⟩ = (⟨some e, none, none⟩, .returned) := by
  simp [enter, he]

theorem enter_some (a : P.Actions) (he : e.initialization = none) : enter ⟨some e, some a, none⟩ =
      (⟨some { e with initialization := some (.original a) }, none, none⟩,
        if e.residual.isSome then .returned else .initializing) := by
  simp [enter, he]

/-- The code after the acknowledgement. -/
def bound (owner : LocalEnvironment P) : ActivateCall P × ActivatePoint :=
  if owner.activationRejection.isSome then ({ s with environment := some owner }, .retire false)
  else if owner.interpreter.isNone then ({ s with environment := some owner }, .returned)
  else
    match terminalDisposition owner.initialization with
    | some disposition => ({ s with environment := some owner }, .commit disposition)
    | none => s.finish owner

/-- `activate`, from `initialize` to its first await. -/
def initialized (a : ActivateAnswer P) (owner : LocalEnvironment P) :
    ActivateCall P × ActivatePoint :=
  let owner := (owner.reserve a).bind a
  if owner.activationRejection.isNone && owner.acknowledgement then
    ({ s with environment := some owner }, .acknowledge)
  else s.bound owner

variable {owner : LocalEnvironment P} {a : P.Actions}

theorem bound_original (h : owner.initialization = some (.original a)) :
    ∃ point, s.bound owner = ({ s with environment := some owner }, point) ∧
      (point = .retire false ∨ point = .returned ∨
        point = .commit (terminalDisposition.ofStep (P.become_ a))) := by
  unfold bound
  split
  · exact ⟨_, rfl, .inl rfl⟩
  · split
    · exact ⟨_, rfl, .inr (.inl rfl)⟩
    · rw [h]
      exact ⟨_, rfl, .inr (.inr rfl)⟩

theorem initialized_original (answer : ActivateAnswer P)
    (h : owner.initialization = some (.original a)) :
    ∃ owner' point, s.initialized answer owner = ({ s with environment := some owner' }, point) ∧
      owner'.initialization = some (.original a) ∧ owner'.interpreter = owner.interpreter ∧
      (point = .acknowledge ∨ point = .retire false ∨ point = .returned ∨
        point = .commit (terminalDisposition.ofStep (P.become_ a))) := by
  have hkept : ((owner.reserve answer).bind answer).initialization = owner.initialization ∧
      ((owner.reserve answer).bind answer).interpreter = owner.interpreter := by
    unfold LocalEnvironment.bind LocalEnvironment.reserve
    (repeat' split) <;> exact ⟨rfl, rfl⟩
  rw [h] at hkept
  unfold initialized
  simp only
  split
  · exact ⟨_, _, rfl, hkept.1, hkept.2, .inl rfl⟩
  · obtain ⟨point, hbound, hpoint⟩ := s.bound_original hkept.1
    exact ⟨_, point, hbound, hkept.1, hkept.2, .inr hpoint⟩

/-- A poll of the retirement after a refusal. -/
def refuse (begun : Bool) (a : RetirementAnswer P) (channel : Oneshot P.Termination)
    (owner : LocalEnvironment P) : (ActivateCall P × ActivatePoint) × Oneshot P.Termination :=
  let (owner, channel, status) := owner.receiveRetirement (!begun) a channel
  match status with
  | .waiting => (({ s with environment := some owner }, .retire true), channel)
  | .unwound => (({ s with environment := some owner }, .unwound), channel)
  | .returned =>
    match owner.activationRejection, owner.residual, owner.retired with
    | some error, some residual, true =>
      (({ s with environment := none, received := some (.error (error, residual)) }, .returned),
        channel)
    | _, _, _ => (({ s with environment := some owner }, .returned), channel)

/-- `commit`: the operations of the interpretation. -/
def commit (disposition : TerminalReportDisposition) (a : CommitAnswer P)
    (owner : LocalEnvironment P) (c : Capabilities P) : ActivateCall P × ActivatePoint :=
  let owner := { owner.withCapabilities (c.commit disposition a) with
    initialization := some a.progress }
  if a.status.isSome then s.finish owner
  else ({ s with environment := some owner }, .commit disposition)

/-- The slots as the driver gets them back. -/
def loan : Loan P.port :=
  .activation (s.environment.map fun _ => ()) s.actions
    (s.received.map fun
      | .ok (_, interpretation) => .ok ((), interpretation)
      | .error refused => .error refused)

end ActivateCall

/-! ## Application -/

/-- The slots that `apply` borrows, and the environment it works on. -/
structure ApplyCall (P : ActorPort) where
  environment : ActiveLocalEnvironment P
  actions : Option P.Actions
  received : Option (Interpretation P.Settlement)

/-- Where an application waits. -/
inductive ApplyPoint
  | commit (disposition : TerminalReportDisposition)
  | returned
  deriving DecidableEq, Repr

namespace ApplyCall

variable (s : ApplyCall P)

/-- The end of `apply`. -/
def finish : ApplyCall P × ApplyPoint :=
  match s.environment.interpretation with
  | some (.completed interpretation) =>
    ({ s with
        environment := { s.environment with interpretation := none }
        received := some interpretation }, .returned)
  | _ => (s, .returned)

/-- The interpreter is there: `commit` is called. -/
def begin : ApplyCall P × ApplyPoint :=
  if s.environment.interpreter.isNone then (s, .returned)
  else
    match terminalDisposition s.environment.interpretation with
    | some disposition => (s, .commit disposition)
    | none => s.finish

/-- `apply`, up to its await. -/
def enter : ApplyCall P × ApplyPoint :=
  if s.received.isSome then (s, .returned)
  else
    match s.environment.interpretation, s.actions with
    | some _, some _ | none, none => (s, .returned)
    | none, some actions =>
      { s with
        environment := { s.environment with interpretation := some (.original actions) }
        actions := none : ApplyCall P }.begin
    | some _, none => s.begin

variable {e : ActiveLocalEnvironment P}

theorem enter_none (he : e.interpretation = none) :
    enter ⟨e, none, none⟩ = (⟨e, none, none⟩, .returned) := by
  simp [enter, he]

theorem enter_some (a : P.Actions) (he : e.interpretation = none) : enter ⟨e, some a, none⟩ =
      (⟨{ e with interpretation := some (.original a) }, none, none⟩,
        if e.interpreter.isNone then .returned
        else .commit (terminalDisposition.ofStep (P.become_ a))) := by
  simp only [enter, he, begin, terminalDisposition]
  cases e.interpreter <;> rfl

def commit (disposition : TerminalReportDisposition) (a : CommitAnswer P) (c : Capabilities P) :
    ApplyCall P × ApplyPoint :=
  let s := { s with
    environment := { s.environment with
      interpreter := some ⟨some (c.commit disposition a)⟩
      interpretation := some a.progress } }
  if a.status.isSome then s.finish else (s, .commit disposition)

/-- The slots as the driver gets them back. -/
def loan : Loan P.port := .application s.actions s.received

end ApplyCall

/-- The slots of a retirement as the driver gets them back. -/
def PreparedRetire.loan (s : PreparedRetire P) : Loan P.port :=
  .prepared (s.environment.map fun _ => ()) s.actions s.received

/-- The slots of a retirement as the driver gets them back. -/
def ActiveRetire.loan (s : ActiveRetire P) : Loan P.port :=
  .retirement (s.environment.map fun _ => ()) s.actions s.interpretation s.source s.sourceIndex
    s.ingress s.settlements s.received

/-! ## The whole actor -/

/-- Items arrive in a mailbox. -/
def Lanes.append (lanes more : Lanes P) : Lanes P :=
  ⟨lanes.control ++ more.control, lanes.user ++ more.user⟩

/-- Items arrive, if the consumer is there. -/
def LocalEnvironment.arrive (lanes : Lanes P) (e : LocalEnvironment P) : LocalEnvironment P :=
  { e with consumer := e.consumer.map (·.append lanes) }

/-- A request is sent, if its receiver is there. -/
def LocalEnvironment.cancel (e : LocalEnvironment P) : LocalEnvironment P :=
  { e with ownerCancellation := e.ownerCancellation.map fun _ => true }

/-- Items arrive, if the consumer is there. -/
def ActiveLocalEnvironment.arrive (lanes : Lanes P) (e : ActiveLocalEnvironment P) :
    ActiveLocalEnvironment P :=
  { e with inbox := e.inbox.map (·.append lanes) }

/-- A request is sent, if its receiver is there. -/
def ActiveLocalEnvironment.cancel (e : ActiveLocalEnvironment P) : ActiveLocalEnvironment P :=
  { e with ownerCancellation := e.ownerCancellation.map fun _ => true }

/-- `next`, `next_source` and `publish` read the owner's request, `publish` publishes the address,
`offer_next` keeps an offer until it is answered, and `next` leaves `unread` in the mailbox. -/
def ActiveLocalEnvironment.serve (read published : Bool) (source : Option (SourceProgress P))
    (unread : Lanes P) (e : ActiveLocalEnvironment P) : ActiveLocalEnvironment P :=
  { e with
    inbox := e.inbox.map fun _ => unread
    ownerCancellation := if read then none else e.ownerCancellation
    publication := if published then some .published else e.publication
    lease := e.lease || published
    source := source }

/-- Where the environment is. -/
inductive Place (P : ActorPort)
  /-- In the driver's slot `environment`. -/
  | prepared (e : LocalEnvironment P)
  | activating (call : ActivateCall P) (point : ActivatePoint)
  /-- In the driver's slot `active`. -/
  | active (e : ActiveLocalEnvironment P)
  | applying (call : ApplyCall P) (point : ApplyPoint)
  | retiringPrepared (call : PreparedRetire P)
  | retiringActive (call : ActiveRetire P)
  /-- It has handed over its residual. -/
  | gone

/-- The environment is in the driver's hands. -/
def Place.isSettled : Place P → Bool
  | .prepared _ | .active _ | .gone => true
  | _ => false

/-- What an activation leaves. -/
def Place.ofActivate (call : ActivateCall P) : Place P :=
  match call.environment, call.received with
  | some e, _ => .prepared e
  | none, some (.ok (e, _)) => .active e
  | none, _ => .gone

/-- The environment after a retirement. -/
def Place.ofPrepared (call : PreparedRetire P) : Place P := call.environment.elim .gone .prepared

/-- The environment after a retirement. -/
def Place.ofActive (call : ActiveRetire P) : Place P := call.environment.elim .gone .active

/-- `ActorExecution`: the driver, the environment, the channel of the terminal report, and the guard
`Terminal`. -/
structure Execution (P : ActorPort) where
  config : Config P.port
  place : Place P
  /-- The creator has accepted the private commitment, and with it the actor's address. -/
  bound : Bool
  channel : Oneshot P.Termination
  /-- The slot `retirement` of `Terminal` is occupied. -/
  terminal : Bool
  /-- What was published, of which outcome.  A publication of `none` is one of the branches marked
  unreachable. -/
  published : List (ActorExecutionOutcome P × Option P.Termination)
  /-- The future of `run` returned or was dropped. -/
  finished : Bool

/-- What happens to an actor. -/
inductive ExecutionOp (P : ActorPort)
  /-- The driver goes on, or gets an answer that is not the environment's doing. -/
  | drive (i : Input P.port)
  /-- `activate` is called. -/
  | activate
  /-- The interpreter was initialized. -/
  | initialized (a : ActivateAnswer P)
  | acknowledged (r : Except RecvError Unit)
  /-- `apply` is called. -/
  | apply
  /-- A commit is polled. -/
  | commit (a : CommitAnswer P)
  /-- A retirement of the environment is called or polled. -/
  | retire (a : RetirementAnswer P)
  /-- An operation of the environment ended: it returned, or it unwound where it was. -/
  | ended (reply : Received P.Payload Unit)
  /-- A message or a control event arrives. -/
  | arrive (lanes : Lanes P)
  /-- The owner asks for cancellation. -/
  | cancel
  /-- An operation of the environment that the driver sees as an input is under way or has ended. -/
  | serve (read published : Bool) (source : Option (SourceProgress P)) (unread : Lanes P)
  /-- The driver has retired: `Terminal::complete`. -/
  | complete
  /-- The future is dropped, or unwinds. -/
  | cut (panicking : Bool)

/-- The inputs that do not stand for an operation that is modelled. -/
def isOwn : Input P.port → Point P.port → Bool
  | .receiveRun, .idle => true
  | .receiveRun, _ => false
  | .completed (.source ..) _, _ => true
  | .completed _ _, _ => false
  | .dropped _, _ => false
  | _, _ => true

namespace Execution

/-- `LocalEnvironment::prepare` and `Driver::new`, at the first poll of `run`: a future that is
dropped before it was polled has no guard `Terminal` yet and publishes nothing. -/
def start (behavior : P.Behavior) (commitment : Bool) : Execution P where
  config := .start behavior ()
  place := .prepared (.prepare commitment)
  bound := false
  channel := .new
  terminal := true
  published := []
  finished := false

variable (s : Execution P)

/-- The operation goes on, and the driver waits. -/
def at_ (place : Place P) : Execution P := { s with place := place }

/-- `activate` is called. -/
def activate : Option (Execution P) :=
  match s.place, s.config.point, s.config.driver.activation with
  | .prepared e, .activate, none =>
    let (call, point) := ActivateCall.enter ⟨some e, s.config.driver.actions, none⟩
    some (s.at_ (.activating call point))
  | _, _, _ => none

/-- `apply` is called. -/
def apply : Option (Execution P) :=
  match s.place, s.config.point, s.config.driver.interpretation with
  | .active e, .apply, none =>
    let (call, point) := ApplyCall.enter ⟨e, s.config.driver.actions, none⟩
    some (s.at_ (.applying call point))
  | _, _, _ => none

/-- `initialize` returned: the address is reserved and the private commitment is sent. -/
def initialized (a : ActivateAnswer P) : Option (Execution P) :=
  match s.place with
  | .activating call .initializing =>
    call.environment.map fun owner =>
      let (next, point) := call.initialized a owner
      { s with
        place := .activating next point
        bound :=
          s.bound || ((owner.reserve a).activationRejection.isNone && owner.commitment &&
            a.receiver) }
  | _ => none

/-- The acknowledgement has come. -/
def acknowledged (r : Except RecvError Unit) : Option (Execution P) :=
  match s.place with
  | .activating call .acknowledge =>
    call.environment.map fun owner =>
      let (call, point) := call.bound (owner.acknowledge r)
      s.at_ (.activating call point)
  | _ => none

def commit (a : CommitAnswer P) : Option (Execution P) :=
  match s.place with
  | .activating call (.commit disposition) =>
    call.environment.bind fun owner =>
      (ActionInterpreter.inside owner.interpreter).map fun c =>
        let (call, point) := call.commit disposition a owner c
        s.at_ (.activating call point)
  | .applying call (.commit disposition) =>
    (ActionInterpreter.inside call.environment.interpreter).map fun c =>
      let (call, point) := call.commit disposition a c
      s.at_ (.applying call point)
  | _ => none

/-- A retirement is called or polled. -/
def retire (a : RetirementAnswer P) : Option (Execution P) :=
  let d := s.config.driver
  match s.place, s.config.point with
  | .activating call (.retire begun), _ =>
    call.environment.map fun owner =>
      let ((call, point), channel) := call.refuse begun a s.channel owner
      { s with place := .activating call point, channel := channel }
  | .prepared e, .retirePrepared =>
    let call := PreparedRetire.call ⟨some e, d.actions, d.residual, s.channel, .returned⟩ a
    some { s with place := .retiringPrepared call, channel := call.channel }
  | .active e, .retireActive =>
    let call := ActiveRetire.call ⟨some e, d.actions, d.interpretation, d.sourceReceived,
      d.sourceIndex, d.ingress, d.retirementInput, d.residual, s.channel, .returned⟩ a
    some { s with place := .retiringActive call, channel := call.channel }
  | .retiringPrepared call, _ =>
    match call.status, call.environment with
    | .waiting, some owner =>
      let call := call.resume false a owner
      some { s with place := .retiringPrepared call, channel := call.channel }
    | _, _ => none
  | .retiringActive call, _ =>
    match call.status, call.environment, call.settlements with
    | .waiting, some owner, some settlements =>
      let call := call.resume a owner settlements
      some { s with place := .retiringActive call, channel := call.channel }
    | _, _, _ => none
  | _, _ => none

/-- An operation of the environment ended; it returned exactly if it is past its last await. -/
def ended (reply : Received P.Payload Unit) : Option (Execution P) :=
  match s.place with
  | .activating call point =>
    if reply.value?.isSome = decide (point = .returned) then
      (Engine.step s.config (.completed call.loan reply)).map fun c =>
        { s with config := c, place := .ofActivate call }
    else none
  | .applying call point =>
    if reply.value?.isSome = decide (point = .returned) then
      (Engine.step s.config (.completed call.loan reply)).map fun c =>
        { s with config := c, place := .active call.environment }
    else none
  | .retiringPrepared call =>
    if reply.value?.isSome = decide (call.status = .returned) then
      (Engine.step s.config (.completed call.loan reply)).map fun c =>
        { s with config := c, place := .ofPrepared call }
    else none
  | .retiringActive call =>
    if reply.value?.isSome = decide (call.status = .returned) then
      (Engine.step s.config (.completed call.loan reply)).map fun c =>
        { s with config := c, place := .ofActive call }
    else none
  | _ => none

/-- Items arrive in a mailbox whose address is known. -/
def arrive (lanes : Lanes P) : Option (Execution P) :=
  match s.place with
  | .active e => some (s.at_ (.active (ActiveLocalEnvironment.arrive lanes e)))
  | .applying call point =>
    some (s.at_ (.applying { call with environment := call.environment.arrive lanes } point))
  | .activating call point =>
    if s.bound then
      some (s.at_ (.activating { call with
        environment := call.environment.map (LocalEnvironment.arrive lanes) } point))
    else none
  | _ => none

/-- The owner's request goes into its channel. -/
def cancel : Option (Execution P) :=
  match s.place with
  | .prepared e => some (s.at_ (.prepared e.cancel))
  | .activating call point =>
    some (s.at_ (.activating { call with
      environment := call.environment.map LocalEnvironment.cancel } point))
  | .active e => some (s.at_ (.active e.cancel))
  | .applying call point =>
    some (s.at_ (.applying { call with environment := call.environment.cancel } point))
  | _ => none

/-- The guard's capability is taken and retires. -/
def takeTerminal (outcome : ActorExecutionOutcome P) : Execution P :=
  { s with
    terminal := false
    published := s.published ++ [(outcome, LocalRetirement.retire s.channel outcome)] }

/-- The guard is dropped at the end of the future. -/
def dropTerminal (panicking : Bool) : Execution P :=
  let s := if s.terminal then s.takeTerminal (if panicking then .panicked else .cancelled) else s
  { s with finished := true }

/-- One step of an actor that runs. -/
def advance : ExecutionOp P → Option (Execution P)
  | .drive i =>
    if s.place.isSettled && isOwn i s.config.point then
      (Engine.step s.config i).map fun c => { s with config := c }
    else none
  | .activate => s.activate
  | .initialized a => s.initialized a
  | .acknowledged r => s.acknowledged r
  | .apply => s.apply
  | .commit a => s.commit a
  | .retire a => s.retire a
  | .ended reply => s.ended reply
  | .arrive lanes => s.arrive lanes
  | .cancel => s.cancel
  | .serve read published source unread =>
    match s.place with
    | .active e => some (s.at_ (.active (e.serve read published source unread)))
    | _ => none
  | .complete =>
    match s.config.point with
    | .received (.ok r) => some ((s.takeTerminal (.retired r)).dropTerminal false)
    | _ => none
  | .cut panicking =>
    match s.config.point with
    | .received (.ok _) => none
    | _ => some (s.dropTerminal panicking)

/-- One step. -/
def step (s : Execution P) (op : ExecutionOp P) : Option (Execution P) :=
  if s.finished then none else s.advance op

end Execution

end Local
