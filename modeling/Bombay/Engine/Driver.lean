import Mathlib.Data.List.InsertIdx
import Bombay.Machine.Run

/-!
# The universal direct-Behavior Driver

One closed behavior and one typed environment cross this boundary.  `Driver::receive_run` borrows
a `Driver` record, initializes the behavior, activates the environment and then loops: settle the
products of earlier turns, acquire one event, fold it, apply its actions; in the end it retires the
environment.  Every operation of the environment borrows *slots* of the record, so what the host
did with them is visible in the record when the operation returns, and also when the borrowing
future is dropped in the middle of it.

The model keeps the record as the source has it and cuts `drive` at the points where something
outside the driver decides what happens next.

* A `Point` is a place in the code: the head of the loop, an operation that has been started, or
  the place control falls through to.  The local variable `failures` of the loop body lives in it.
* An `Input` is what the outside contributes: the result of a fold, the slots a host hands back
  together with its panics, the drop of the future at a pending `.await`.  Nothing is assumed about
  a host: an operation that borrowed slots may leave any values in them.
* `step` runs the code from one point to the next.  It is a partial function: an input that does
  not answer the current point gives `none`.

The environment's own state is the host's, and `P.Active` is only the handle the driver holds.
-/

set_option autoImplicit false

namespace Engine

/-! ## The data of the boundary -/

/-- `Step<Never, Stopped>`: what a decision asks the driver to do next.  `Goto` carries a phase of
the empty type, so it has no value here. -/
inductive Step
  | cont
  | stop
  deriving DecidableEq, Repr

/-- The decision the driver keeps beside the actions it came with. -/
inductive ActionDecision
  | cont
  | stop
  deriving DecidableEq, Repr

/-- The decision of a step. -/
def ActionDecision.fromStep : Step → ActionDecision
  | .cont => .cont
  | .stop => .stop

/-- `core::ops::ControlFlow`. -/
inductive ControlFlow (B C : Type)
  | cont (value : C)
  | brk (request : B)
  deriving DecidableEq, Repr

/-- `SettlementStatus`, the host's classification of an interpretation. -/
inductive SettlementStatus
  | accepted
  | rejected
  | corrupt
  deriving DecidableEq, Repr

/-- `SourceCustody`, the reply to one source offer. -/
inductive SourceCustody (S : Type)
  | exhausted (settlement : S)
  | retained (settlement : S)
  | admitted (settlement : S)
  | closed (settlement : S)
  deriving DecidableEq, Repr

/-- The settlement inside a reply. -/
def SourceCustody.settlement {S : Type} : SourceCustody S → S
  | .exhausted s | .retained s | .admitted s | .closed s => s

/-- The factual reason one execution completed successfully. -/
inductive Completion (R : Type)
  | stopped
  | exhausted
  | retirementRequested (request : R)
  deriving DecidableEq, Repr

/-- Why the driver could not finish custody of a settlement. -/
inductive SettlementFailure
  | rejected
  | corrupt
  | sourceClosed
  deriving DecidableEq, Repr

/-- `SettlementTurn`: one row of the settlement queue. -/
inductive SettlementTurn (S : Type)
  | offer (settlement : S)
  | awaitSource (settlement : S)
  | retained (settlement : S)
  deriving DecidableEq, Repr

/-- The settlement of a row. -/
@[simp]
def SettlementTurn.intoSettlement {S : Type} : SettlementTurn S → S
  | .offer s | .awaitSource s | .retained s => s

/-- `matches!(turn, SettlementTurn::Retained(_))`. -/
@[simp]
def SettlementTurn.isRetained {S : Type} : SettlementTurn S → Bool
  | .retained _ => true
  | _ => false

/-- The phase of a driver. -/
inductive ExecutionPhase
  | prepared
  | activating
  | initializing
  | settlingInitialization
  | active
  | retiring
  | retirementAttempted
  deriving DecidableEq, Repr

/-- The three phases in which the driver holds a live environment and takes turns. -/
@[simp] def ExecutionPhase.running : ExecutionPhase → Bool
  | .initializing | .settlingInitialization | .active => true
  | _ => false

/-- The types one closed behavior and its environment agree on. -/
structure Port where
  /-- The behavior `B`. -/
  Behavior : Type
  /-- `B::Event`. -/
  Event : Type
  /-- `ActionsOf<B>`. -/
  Actions : Type
  /-- `B::Error`. -/
  BehaviorError : Type
  /-- The prepared environment `E`. -/
  Environment : Type
  /-- The handle of the live environment, `E::Active`. -/
  Active : Type
  /-- `Interpretation<E::Settlement>`. -/
  Interpretation : Type
  /-- `E::Settlement`. -/
  Settlement : Type
  /-- `E::RetirementRequest`. -/
  RetirementRequest : Type
  /-- `E::Error`. -/
  Error : Type
  /-- `E::Residual`. -/
  Residual : Type
  /-- A caught panic, `Box<dyn Any + Send>`. -/
  Payload : Type
  /-- The field `become_` of an action value. -/
  become_ : Actions → Step
  /-- `Interpretation::into_settlement`. -/
  intoSettlement : Interpretation → Settlement

/-- What `next` and `next_source` reply. -/
abbrev Port.Ingress (P : Port) : Type := ControlFlow P.RetirementRequest (Option P.Event)

/-- What `activate` replies. -/
abbrev Port.Activation (P : Port) : Type :=
  Except (P.Error × P.Residual) (P.Active × P.Interpretation)

/-- The decision that comes with an action value. -/
def Port.decision (P : Port) (a : P.Actions) : ActionDecision := .fromStep (P.become_ a)

/-- Why a driver ends. -/
inductive DriverError (P : Port)
  | behavior (error : P.BehaviorError)
  | initializationPanicked (payload : P.Payload)
  | transitionPanicked (payload : P.Payload)
  | hostExecutionPanicked (payload : P.Payload)
  | activationPanicked (payload : P.Payload)
  | retirementPanicked (payload : P.Payload)
  | interpreterContractFailed
  | activation (error : P.Error)
  | settlement (failure : SettlementFailure)

/-- `Result<Completion, DriverError>`. -/
abbrev Disposition (P : Port) : Type := Except (DriverError P) (Completion P.RetirementRequest)

/-- `DriverRetirement`: the complete terminal reply. -/
structure DriverRetirement (P : Port) where
  behavior : P.Behavior
  residual : P.Residual
  disposition : Disposition P
  additionalFailures : List (DriverError P)

/-- `Driver`: one affine owner of everything acquired and not yet handed on. -/
structure Driver (P : Port) where
  behavior : P.Behavior
  environment : Option P.Environment
  active : Option P.Active
  phase : ExecutionPhase
  actions : Option P.Actions
  activation : Option P.Activation
  interpretation : Option P.Interpretation
  sourceInput : Option P.Settlement
  sourceReceived : Option (SourceCustody P.Settlement)
  sourceIndex : Option ℕ
  ingress : Option P.Ingress
  decision : Option ActionDecision
  settlements : List (SettlementTurn P.Settlement)
  retirementInput : Option (List P.Settlement)
  residual : Option P.Residual
  disposition : Option (Disposition P)
  additionalFailures : List (DriverError P)

namespace Driver

variable {P : Port}

/-- A driver before its first poll. -/
def new (behavior : P.Behavior) (environment : P.Environment) : Driver P where
  behavior := behavior
  environment := some environment
  active := none
  phase := .prepared
  actions := none
  activation := none
  interpretation := none
  sourceInput := none
  sourceReceived := none
  sourceIndex := none
  ingress := none
  decision := none
  settlements := []
  retirementInput := none
  residual := none
  disposition := none
  additionalFailures := []

/-! ## Recording a terminal fact -/

/-- The first error decides, later ones are additional. -/
def reject (d : Driver P) (error : DriverError P) : Driver P :=
  { d with
    disposition := if d.disposition.isNone then some (.error error) else d.disposition
    additionalFailures :=
      if d.disposition.isNone then d.additionalFailures else d.additionalFailures ++ [error]
    phase := .retiring }

/-- A completion, unless something was decided before. -/
def complete (d : Driver P) (completion : Completion P.RetirementRequest) : Driver P :=
  { d with
    disposition := if d.disposition.isNone then some (.ok completion) else d.disposition
    phase := .retiring }

/-- The loop `for payload in failures { self.reject(..) }`, over errors. -/
def rejectAll (d : Driver P) (errors : List (DriverError P)) : Driver P := errors.foldl reject d

/-- The panics of an activation. -/
def receiveActivationFailures (d : Driver P) (failures : List P.Payload) : Driver P :=
  d.rejectAll (failures.map .activationPanicked)

/-- The panics of other operations. -/
def receiveExecutionFailures (d : Driver P) (failures : List P.Payload) : Driver P :=
  d.rejectAll (failures.map .hostExecutionPanicked)

/-- The guard `if !matches!(self.phase, Retiring) { self.reject(InterpreterContractFailed) }`. -/
def rejectContract (d : Driver P) : Driver P :=
  if d.phase = .retiring then d else d.reject .interpreterContractFailed

/-- The predicate `ready` of `receive_run`: every owning slot permits the final move. -/
def ready (d : Driver P) : Bool :=
  d.environment.isNone && d.active.isNone && d.actions.isNone && d.activation.isNone &&
  d.interpretation.isNone && d.sourceInput.isNone && d.sourceReceived.isNone &&
  d.sourceIndex.isNone && d.settlements.isEmpty && d.ingress.isNone &&
  d.retirementInput.isNone && d.residual.isSome && d.disposition.isSome

/-- The end of `receive_run`: the complete retirement, or the surviving driver. -/
def deliver (d : Driver P) : Except (Driver P) (DriverRetirement P) :=
  match d.ready, d.residual, d.disposition with
  | true, some residual, some disposition =>
    .ok ⟨d.behavior, residual, disposition, d.additionalFailures⟩
  | _, _, _ => .error d

/-- The classification `match (status, self.decision.take())` of a received interpretation: the
error to reject with, or the decision to follow. -/
def verdict (d : Driver P) : SettlementStatus → Except (DriverError P) ActionDecision
  | .corrupt => .error (.settlement .corrupt)
  | .rejected =>
    if d.phase = .initializing then .error (.settlement .rejected) else ofDecision d.decision
  | .accepted => ofDecision d.decision
where
  /-- The arms `(_, Some(decision))` and `(_, None)`. -/
  ofDecision : Option ActionDecision → Except (DriverError P) ActionDecision
    | some decision => .ok decision
    | none => .error .interpreterContractFailed

/-- Move the classified interpretation to the front of the queue and take its decision. -/
def enqueue (d : Driver P) (i : P.Interpretation) : Driver P :=
  { d with
    interpretation := none
    settlements := .offer (P.intoSettlement i) :: d.settlements
    decision := none }

/-- The move of all settlements into `retirement_input`, an in-flight row first being put back at
its original index. -/
def gather (d : Driver P) : Driver P :=
  if d.retirementInput.isNone && d.active.isSome then
    let rows := match d.sourceInput, d.sourceIndex with
      | some s, some index => d.settlements.insertIdx index (.retained s)
      | _, _ => d.settlements
    let inFlight := d.sourceInput.isSome && d.sourceIndex.isSome
    { d with
      sourceInput := if inFlight then none else d.sourceInput
      sourceIndex := if inFlight then none else d.sourceIndex
      settlements := []
      retirementInput := some (rows.map SettlementTurn.intoSettlement) }
  else d

end Driver

/-! ## Borrowed operations -/

/-- How `receive_operation` saw one operation end. -/
inductive Received (Payload ρ : Type)
  /-- Constructing the future panicked. -/
  | construction (payload : Payload)
  /-- The future was ready; disposing of it may panic. -/
  | reply (value : ρ) (disposal : Option Payload)
  /-- A poll panicked; disposing of the future may panic as well. -/
  | unwound (payload : Payload) (disposal : Option Payload)
  deriving DecidableEq, Repr

/-- The failures `receive_operation` returns, in the order it collected them. -/
def Received.failures {Payload ρ : Type} : Received Payload ρ → List Payload
  | .construction p => [p]
  | .reply _ disposal => disposal.toList
  | .unwound p disposal => p :: disposal.toList

/-- The value `receive_operation` stored in its outside slot. -/
def Received.value? {Payload ρ : Type} : Received Payload ρ → Option ρ
  | .reply v _ => some v
  | _ => none

/-- The slots an operation borrows, as the host left them. -/
inductive Loan (P : Port)
  /-- `Environment::activate`. -/
  | activation (environment : Option P.Environment) (actions : Option P.Actions)
      (received : Option P.Activation)
  /-- `ActiveEnvironment::offer_next`. -/
  | source (settlement : Option P.Settlement) (received : Option (SourceCustody P.Settlement))
  /-- `next` and `next_source` borrow no slot of the driver. -/
  | ingress
  /-- `ActiveEnvironment::apply`. -/
  | application (actions : Option P.Actions) (received : Option P.Interpretation)
  /-- `Environment::retire`. -/
  | prepared (environment : Option P.Environment) (actions : Option P.Actions)
      (received : Option P.Residual)
  /-- `ActiveEnvironment::retire`. -/
  | retirement (environment : Option P.Active) (actions : Option P.Actions)
      (interpretation : Option P.Interpretation) (source : Option (SourceCustody P.Settlement))
      (sourceIndex : Option ℕ) (ingress : Option P.Ingress)
      (settlements : Option (List P.Settlement)) (received : Option P.Residual)

/-- The result of a synchronous fold of the behavior. -/
inductive Fold (P : Port)
  | ok (actions : P.Actions)
  | err (error : P.BehaviorError)
  | panicked (payload : P.Payload)

/-! ## The code, cut at its points -/

/-- Where control is. -/
inductive Point (P : Port)
  /-- No borrowing future exists. -/
  | idle
  /-- The head of the loop. -/
  | head
  /-- `behavior::initialize` has been called. -/
  | initialization
  /-- `Environment::activate` has been called. -/
  | activate
  /-- `settlement_status` has been called. -/
  | classify
  /-- Past the classification: `let Some(active) = ..`. -/
  | settle
  /-- `offer_next` has been called. -/
  | offerNext
  /-- Past the source offer, with its failures. -/
  | offered (failures : List P.Payload)
  /-- An exhausted settlement is being dropped. -/
  | dispose (settlement : P.Settlement)
  /-- `next_source` has been called. -/
  | nextSource
  /-- Past `next_source`, with its failures. -/
  | sourceAcquired (failures : List P.Payload)
  /-- `publish` has been called. -/
  | publish
  /-- `next` has been called. -/
  | next
  /-- Past `next`, with its failures. -/
  | ingressAcquired (failures : List P.Payload)
  /-- `let event = match self.ingress.take()`. -/
  | consume
  /-- `behavior::delegate_transition` has been called. -/
  | transition (event : P.Event)
  /-- `apply` has been called. -/
  | apply
  /-- `Environment::retire` has been called. -/
  | retirePrepared
  /-- `ActiveEnvironment::retire` has been called. -/
  | retireActive
  /-- `drive` has returned. -/
  | finish
  /-- `receive_run` has stored its reply. -/
  | received (reply : Except (Driver P) (DriverRetirement P))

/-- What the outside contributes to one step. -/
inductive Input (P : Port)
  /-- The caller starts `receive_run`. -/
  | receiveRun
  /-- The driver runs on by itself. -/
  | advance
  /-- A fold returned, leaving this behavior. -/
  | folded (behavior : P.Behavior) (result : Fold P)
  /-- An operation that borrowed slots ended. -/
  | completed (loan : Loan P) (reply : Received P.Payload Unit)
  /-- `next` or `next_source` ended. -/
  | acquired (reply : Received P.Payload P.Ingress)
  /-- The classification returned or panicked. -/
  | classified (status : Except P.Payload SettlementStatus)
  /-- The destructor of an exhausted settlement returned or panicked. -/
  | disposed (failure : Option P.Payload)
  /-- `publish` returned or panicked. -/
  | published (reply : Except P.Payload (ControlFlow P.RetirementRequest Unit))
  /-- The future was dropped at a pending `.await`, leaving the borrowed slots so. -/
  | dropped (loan : Loan P)

/-- The future was dropped. -/
def Input.isDropped {P : Port} : Input P → Bool
  | .dropped _ => true
  | _ => false

/-- A driver and the point its code has reached.  After a complete retirement the driver has been
moved out, and the field is its last value. -/
structure Config (P : Port) where
  driver : Driver P
  point : Point P

variable {P : Port}

namespace Driver

/-- The slots come back from an operation that has been called. -/
def lend (d : Driver P) : Point P → Loan P → Option (Driver P)
  | .activate, .activation environment actions received =>
    some { d with environment := environment, actions := actions, activation := received }
  | .offerNext, .source settlement received =>
    some { d with sourceInput := settlement, sourceReceived := received }
  | .nextSource, .ingress => some d
  | .next, .ingress => some d
  | .apply, .application actions received =>
    some { d with actions := actions, interpretation := received }
  | .retirePrepared, .prepared environment actions received =>
    some { d with environment := environment, actions := actions, residual := received }
  | .retireActive,
      .retirement active actions interpretation source sourceIndex ingress settlements received =>
    some { d with
      active := active
      actions := actions
      interpretation := interpretation
      sourceReceived := source
      sourceIndex := sourceIndex
      ingress := ingress
      retirementInput := settlements
      residual := received }
  | _, _ => none

/-- The phase `Retiring`: return a malformed source reply untouched, or gather the settlements and
start the applicable retirement. -/
def retire (d : Driver P) : Config P :=
  if d.sourceInput.isSome && d.sourceReceived.isSome then ⟨d, .finish⟩
  else
    let d := d.gather
    match d.environment, d.active, d.residual with
    | some _, none, none => ⟨{ d with phase := .retirementAttempted }, .retirePrepared⟩
    | none, some _, none => ⟨{ d with phase := .retirementAttempted }, .retireActive⟩
    | _, _, _ => ⟨d, .finish⟩

/-- The head of the loop, `match self.phase`. -/
def head (d : Driver P) : Config P :=
  match d.phase with
  | .prepared => ⟨{ d with phase := .activating }, .initialization⟩
  | .activating => ⟨d, .activate⟩
  | .initializing | .settlingInitialization | .active =>
    if d.interpretation.isSome then ⟨d, .classify⟩ else ⟨d, .settle⟩
  | .retiring => d.retire
  | .retirementAttempted => ⟨d, .finish⟩

/-- Choose what progresses when no row is in flight: the first row that is not retained, else
publication, else ordinary ingress. -/
def select (d : Driver P) : Config P :=
  match d.settlements.findIdx? (fun turn => !turn.isRetained) with
  | some index =>
    match d.settlements[index]? with
    | some (.offer settlement) =>
      ⟨{ d with
          settlements := d.settlements.eraseIdx index
          sourceIndex := some index
          sourceInput := some settlement }, .head⟩
    | some (.awaitSource settlement) =>
      let d := { d with
        settlements := (d.settlements.eraseIdx index).insertIdx index (.offer settlement) }
      -- `receive_operation` does not call the host when its slot is already filled
      if d.ingress.isSome then ⟨d, .sourceAcquired []⟩ else ⟨d, .nextSource⟩
    | _ => ⟨d, .settle⟩
  | none =>
    if d.phase = .settlingInitialization then ⟨d, .publish⟩
    else if d.ingress.isSome then ⟨d, .ingressAcquired []⟩
    else ⟨d, .next⟩

/-- The code after classification. -/
def settle (d : Driver P) : Config P :=
  if d.active.isNone then ⟨d.reject .interpreterContractFailed, .head⟩
  else if d.sourceIndex.isSome then
    if d.sourceReceived.isNone then ⟨d, .offerNext⟩ else ⟨d, .offered []⟩
  else d.select

/-- The code after a source offer. -/
def offered (d : Driver P) (failures : List P.Payload) : Config P :=
  match d.sourceInput, d.sourceReceived, d.sourceIndex with
  | none, some custody, some index =>
    let d := { d with sourceReceived := none, sourceIndex := none }
    match custody with
    | .exhausted s => ⟨d.receiveExecutionFailures failures, .dispose s⟩
    | .retained s =>
      ⟨{ d with settlements := d.settlements.insertIdx index (.retained s) }
        |>.receiveExecutionFailures failures, .head⟩
    | .admitted s =>
      ⟨{ d with settlements := d.settlements.insertIdx index (.awaitSource s) }
        |>.receiveExecutionFailures failures, .head⟩
    | .closed s =>
      ⟨({ d with settlements := d.settlements.insertIdx index (.offer s) }.reject
          (.settlement .sourceClosed)).receiveExecutionFailures failures, .head⟩
  | _, _, _ => ⟨(d.receiveExecutionFailures failures).rejectContract, .head⟩

/-- `Continue(None)` from `next_source` is not exhaustion but source closure. -/
def noteClosure (d : Driver P) : Driver P :=
  match d.ingress with
  | some (.cont none) => { d with ingress := none }.reject (.settlement .sourceClosed)
  | _ => d

/-- The code after `next_source`. -/
def sourceAcquired (d : Driver P) (failures : List P.Payload) : Config P :=
  let d := d.noteClosure.receiveExecutionFailures failures
  if d.phase = .retiring then ⟨d, .head⟩
  else if d.ingress.isNone then ⟨d.reject .interpreterContractFailed, .head⟩
  else ⟨d, .consume⟩

/-- The code after `next`. -/
def ingressAcquired (d : Driver P) (failures : List P.Payload) : Config P :=
  let d := d.receiveExecutionFailures failures
  if d.phase = .retiring then ⟨d, .head⟩ else ⟨d, .consume⟩

/-- Take the acquired ingress. -/
def consume (d : Driver P) : Config P :=
  match d.ingress with
  | some (.cont (some event)) => ⟨{ d with ingress := none }, .transition event⟩
  | some (.cont none) => ⟨{ d with ingress := none }.complete .exhausted, .head⟩
  | some (.brk request) =>
    ⟨{ d with ingress := none }.complete (.retirementRequested request), .head⟩
  | none => ⟨d.reject .interpreterContractFailed, .head⟩

/-- The code after `activate`. -/
def activated (d : Driver P) (failures : List P.Payload) : Config P :=
  match d.environment, d.actions, d.activation with
  | none, none, some (.ok (active, interpretation)) =>
    let d : Driver P := { d with
      activation := none
      active := some active
      interpretation := some interpretation
      phase := if d.phase = .retiring then .retiring else .initializing }
    ⟨d.receiveActivationFailures failures, .head⟩
  | none, none, some (.error (error, residual)) =>
    ⟨({ d with activation := none, residual := some residual }.reject
        (.activation error)).receiveActivationFailures failures, .head⟩
  | _, _, _ => ⟨(d.receiveActivationFailures failures).rejectContract, .head⟩

/-- The code after the classification of the interpretation `i`. -/
def classified (d : Driver P) (i : P.Interpretation) (status : SettlementStatus) : Config P :=
  match d.verdict status with
  | .error error => ⟨(d.enqueue i).reject error, .head⟩
  | .ok .stop => ⟨(d.enqueue i).complete .stopped, .head⟩
  | .ok .cont =>
    ⟨{ d.enqueue i with
        phase := if d.phase = .initializing then .settlingInitialization else d.phase }, .settle⟩

/-- The code after `apply`. -/
def applied (d : Driver P) (failures : List P.Payload) : Config P :=
  let d := d.receiveExecutionFailures failures
  if d.actions.isSome || d.interpretation.isNone then ⟨d.rejectContract, .head⟩ else ⟨d, .head⟩

/-- The code after a fold that returned action value `a` for an event. -/
def decided (d : Driver P) (a : P.Actions) : Config P :=
  let d := { d with decision := some (P.decision a), actions := some a }
  if d.active.isNone then ⟨d.reject .interpreterContractFailed, .head⟩ else ⟨d, .apply⟩

/-- The code after a retirement operation. -/
def retired (d : Driver P) (failures : List P.Payload) : Config P :=
  ⟨{ d with
      additionalFailures := d.additionalFailures ++ failures.map .retirementPanicked }, .finish⟩

end Driver

/-- What the driver does by itself at a point, if it does not wait for anyone there. -/
def Config.advance (c : Config P) : Option (Config P) :=
  match c.point with
  | .head => some c.driver.head
  | .settle => some c.driver.settle
  | .offered failures => some (c.driver.offered failures)
  | .sourceAcquired failures => some (c.driver.sourceAcquired failures)
  | .ingressAcquired failures => some (c.driver.ingressAcquired failures)
  | .consume => some c.driver.consume
  | .finish => some ⟨c.driver, .received c.driver.deliver⟩
  | _ => none

/-- One move of the driver. -/
def step (c : Config P) : Input P → Option (Config P)
  | .advance => c.advance
  | .receiveRun =>
    match c.point with
    | .idle => some ⟨c.driver, .head⟩
    | .received (.error d) => some ⟨d, .head⟩
    | _ => none
  | .folded behavior result =>
    let d := { c.driver with behavior := behavior }
    match c.point, result with
    | .initialization, .ok a =>
      some ⟨{ d with decision := some (P.decision a), actions := some a }, .head⟩
    | .initialization, .err error => some ⟨d.reject (.behavior error), .head⟩
    | .initialization, .panicked payload => some ⟨d.reject (.initializationPanicked payload), .head⟩
    | .transition _, .ok a => some (d.decided a)
    | .transition _, .err error => some ⟨d.reject (.behavior error), .head⟩
    | .transition _, .panicked payload => some ⟨d.reject (.transitionPanicked payload), .head⟩
    | _, _ => none
  | .completed loan reply =>
    match c.point, c.driver.lend c.point loan with
    | .activate, some d => some (d.activated reply.failures)
    | .offerNext, some d => some ⟨d, .offered reply.failures⟩
    | .apply, some d => some (d.applied reply.failures)
    | .retirePrepared, some d => some (d.retired reply.failures)
    | .retireActive, some d => some (d.retired reply.failures)
    | _, _ => none
  | .acquired reply =>
    match c.point with
    | .nextSource =>
      some ⟨{ c.driver with ingress := reply.value? }, .sourceAcquired reply.failures⟩
    | .next => some ⟨{ c.driver with ingress := reply.value? }, .ingressAcquired reply.failures⟩
    | _ => none
  | .classified status =>
    match c.point, c.driver.interpretation, status with
    | .classify, some i, .ok status => some (c.driver.classified i status)
    | .classify, some _, .error payload =>
      some ⟨c.driver.reject (.hostExecutionPanicked payload), .head⟩
    | _, _, _ => none
  | .disposed failure =>
    match c.point, failure with
    | .dispose _, none => some ⟨c.driver, .head⟩
    | .dispose _, some payload =>
      some ⟨c.driver.reject (.hostExecutionPanicked payload), .head⟩
    | _, _ => none
  | .published reply =>
    match c.point, reply with
    | .publish, .ok (.cont ()) => some ⟨{ c.driver with phase := .active }, .head⟩
    | .publish, .ok (.brk request) =>
      some ⟨c.driver.complete (.retirementRequested request), .head⟩
    | .publish, .error payload =>
      some ⟨c.driver.reject (.hostExecutionPanicked payload), .head⟩
    | _, _ => none
  | .dropped loan => (c.driver.lend c.point loan).map (⟨·, .idle⟩)

/-- Histories of a driver. -/
abbrev DriverHistory (P : Port) := List (Machine.Transition (Config P) (Input P))

/-- A driver that has just been made. -/
def Config.start (behavior : P.Behavior) (environment : P.Environment) : Config P :=
  ⟨.new behavior environment, .idle⟩

/-! ## A port to run the driver on -/

/-- A port in which every value is a number; the action value `0` decides to stop. -/
abbrev numberPort : Port where
  Behavior := ℕ
  Event := ℕ
  Actions := ℕ
  BehaviorError := ℕ
  Environment := ℕ
  Active := ℕ
  Interpretation := ℕ
  Settlement := ℕ
  RetirementRequest := ℕ
  Error := ℕ
  Residual := ℕ
  Payload := ℕ
  become_ a := if a = 0 then .stop else .cont
  intoSettlement i := i

/-- A new driver of that port. -/
abbrev numberStart : Config numberPort := .start (P := numberPort) 0 0

/-- Its history and its last configuration under a list of inputs. -/
def play (is : List (Input numberPort)) : DriverHistory numberPort × Config numberPort :=
  (Machine.exec step numberStart is).getD ([], numberStart)

theorem play_run (is : List (Input numberPort)) (h : (Machine.exec step numberStart is).isSome) :
    Machine.Run step numberStart (play is).1 (play is).2 := by
  obtain ⟨⟨tr, u⟩, htr⟩ := Option.isSome_iff_exists.mp h
  rw [play, htr]
  exact Machine.exec_run htr

/-- A life in which the product of the initialization is offered to its source. -/
def offering : List (Input numberPort) :=
  [.receiveRun, .advance, .folded 1 (.ok 1), .advance,
    .completed (.activation none none (some (.ok (7, 3)))) (.reply () none),
    .advance, .classified (.ok .accepted), .advance, .advance, .advance]

/-- A life whose first product is retained, and which is published and asks for its first event. -/
def publishing : List (Input numberPort) :=
  offering ++ [.completed (.source none (some (.retained 3))) (.reply () none), .advance, .advance,
    .advance, .published (.ok (.cont ())), .advance, .advance]

end Engine
