import Bombay.Engine.Driver

/-!
# What an incarnation leaves behind

The driver of a local actor ends with a `DriverRetirement`: the behavior, the disposition and a
`LocalResidual`, in which the environment hands over everything it still owned.  Whoever joined the
actor's task reads an `ActorRetirementReport` from that: whether the actor and its whole subtree are
known to have retired, and whether a failure is known, known to be absent, or not known.

The variants of `ActorExecutionOutcome` that carry a residual are one for each disposition of the
driver, with the same fields; here they are the one constructor `retired`.  The three variants of
`LocalResidual` share all fields but the phase, and are one structure.
-/

set_option autoImplicit false

namespace Local

open Engine

/-! ## Reports -/

/-- Whether retirement is established. -/
inductive RetirementAssessment
  | established
  | notEstablished
  deriving DecidableEq, Repr

/-- What is known of failures. -/
inductive ActorFailureAssessment
  | failuresFound
  | noFailuresFound
  | incomplete
  deriving DecidableEq, Repr

/-- A failure prevails, and then a gap. -/
def ActorFailureAssessment.combine : ActorFailureAssessment → ActorFailureAssessment →
    ActorFailureAssessment
  | failuresFound, _ | _, failuresFound => failuresFound
  | incomplete, _ | _, incomplete => incomplete
  | noFailuresFound, noFailuresFound => noFailuresFound

/-- The two assessments of an actor. -/
structure ActorRetirementReport where
  retirement : RetirementAssessment
  failures : ActorFailureAssessment
  deriving DecidableEq, Repr

/-- The report with which a fold over children begins. -/
def ActorRetirementReport.clear : ActorRetirementReport := ⟨.established, .noFailuresFound⟩

/-- Both reports as one. -/
def ActorRetirementReport.combine (r later : ActorRetirementReport) : ActorRetirementReport where
  retirement :=
    match r.retirement, later.retirement with
    | .established, .established => .established
    | .notEstablished, _ | _, .notEstablished => .notEstablished
  failures := r.failures.combine later.failures

/-- The report with more known of failures. -/
def ActorRetirementReport.withFailures (r : ActorRetirementReport) (f : ActorFailureAssessment) :
    ActorRetirementReport := ⟨r.retirement, r.failures.combine f⟩

/-- `if failed { FailuresFound } else { NoFailuresFound }`. -/
def ActorFailureAssessment.found (failed : Bool) : ActorFailureAssessment :=
  if failed then failuresFound else noFailuresFound

theorem ActorFailureAssessment.combine_eq_noFailuresFound {f g} :
    f.combine g = noFailuresFound ↔ f = noFailuresFound ∧ g = noFailuresFound := by
  cases f <;> cases g <;> simp [combine]

theorem ActorFailureAssessment.found_eq_noFailuresFound {failed : Bool} :
    found failed = noFailuresFound ↔ failed = false := by
  cases failed <;> simp [found]

theorem ActorRetirementReport.combine_established {r s : ActorRetirementReport} :
    (r.combine s).retirement = .established ↔
      r.retirement = .established ∧ s.retirement = .established := by
  obtain ⟨r, f⟩ := r
  obtain ⟨s, g⟩ := s
  cases r <;> cases s <;> simp [combine]

/-! ## The values of an actor -/

/-- The types of one local actor, and the texts of its terminations. -/
structure ActorPort where
  Behavior : Type
  Event : Type
  /-- An item of the user lane, `M::Item`. -/
  Item : Type
  /-- A user item that was never read, `User<A, M>`. -/
  User : Type
  /-- `ActionsOf<B>`. -/
  Actions : Type
  /-- `B::InterpretationCustody`, a partly interpreted action value. -/
  InterpretationCustody : Type
  Settlement : Type
  /-- `B::SourceCustody`, a partly offered settlement. -/
  OfferCustody : Type
  BehaviorError : Type
  /-- `MailAddr`. -/
  Address : Type
  JoinError : Type
  /-- A caught panic. -/
  Payload : Type
  /-- One task of `ActivationTasks`. -/
  Task : Type
  /-- The registry of the children. -/
  Bindings : Type
  /-- The terminal of a child, and what is kept of one that has none. -/
  DescendantRoot : Type
  DescendantFailure : Type
  /-- `Exit<A>`. -/
  Exit : Type
  Crash : Type
  normal : Exit
  collected : Exit
  failed : Crash
  panicked : Crash
  environmentFailed : Crash
  capabilityFailed : Crash
  cancelled : Crash
  /-- The field `become_` of an action value. -/
  become_ : Actions → Step
  /-- The same, of a partly interpreted value. -/
  interpretingBecome : InterpretationCustody → Step
  /-- `M::retain_at_retirement`. -/
  retainAtRetirement : Item → Option User
  /-- The registry of an actor that has just been made. -/
  noBindings : Bindings

/-- `Interpretation<S>`. -/
inductive Interpretation (S : Type)
  | complete (settlement : S)
  | corrupt (settlement : S)
  deriving DecidableEq, Repr

/-- The settlement, corrupt or not. -/
def Interpretation.intoSettlement {S : Type} : Interpretation S → S
  | complete s | corrupt s => s

/-- How far an interpretation is. -/
inductive InterpretationProgress (P : ActorPort)
  | original (actions : P.Actions)
  | interpreting (custody : P.InterpretationCustody)
  | completed (interpretation : Interpretation P.Settlement)

/-- How far an offer is. -/
inductive SourceProgress (P : ActorPort)
  | original (settlement : P.Settlement)
  | offering (custody : P.OfferCustody)
  | completed (source : SourceCustody P.Settlement)

/-- Who asked for retirement. -/
inductive LocalRetirementRequest (P : ActorPort)
  | ownerCancellation
  | capabilityFailed (failure : P.JoinError)

/-- `ClaimError<A>`. -/
inductive ClaimError (A : Type)
  | addressInUse (address : A)
  | registrationIdsExhausted (address : A)
  deriving DecidableEq, Repr

/-- Why an activation was refused. -/
inductive LocalActivationRejection (P : ActorPort)
  | address (error : ClaimError P.Address)
  | bindingAbandoned
  | hostCommitPanicked (payload : P.Payload)

/-- `Termination<A>`. -/
abbrev ActorPort.Termination (P : ActorPort) : Type := Except P.Crash P.Exit

/-- `Drained`: what the lanes of a mailbox held. -/
structure Drained (P : ActorPort) where
  control : List P.Event
  user : List P.User

/-- `I::Retired`: the lanes into which the children are received. -/
structure Descendants (P : ActorPort) where
  roots : List P.DescendantRoot
  failures : List P.DescendantFailure

/-- The variants of `LocalResidual`, with the fields that are their own. -/
inductive ResidualPhase (P : ActorPort)
  | prepared
  | uncommitted (initialization : InterpretationProgress P)
  | retired (interpretation : Option (InterpretationProgress P))
      (source : Option (SourceProgress P))
      (settlements : List P.Settlement)

/-- What a retired environment leaves. -/
structure LocalResidual (P : ActorPort) where
  phase : ResidualPhase P
  receivedInterpretation : Option (Interpretation P.Settlement)
  receivedSource : Option (SourceCustody P.Settlement)
  sourceIndex : Option ℕ
  acquiredIngress : Option (ControlFlow (LocalRetirementRequest P) (Option P.Event))
  ingress : Drained P
  activationTasks : List P.Task
  descendants : Descendants P
  operationFailures : ActorFailureAssessment
  descendantReport : ActorRetirementReport
  capabilityFailures : List P.JoinError
  terminalReport : Option (Except P.Termination Unit)
  retirementFailures : List P.Payload
  unreadOwnerCancellation : Option Unit

/-- The port of the driver of a local actor.  The environment's own state is the host's, so the
driver holds a mere handle of it. -/
abbrev ActorPort.port (P : ActorPort) : Port where
  Behavior := P.Behavior
  Event := P.Event
  Actions := P.Actions
  BehaviorError := P.BehaviorError
  Environment := Unit
  Active := Unit
  Interpretation := Interpretation P.Settlement
  Settlement := P.Settlement
  RetirementRequest := LocalRetirementRequest P
  Error := LocalActivationRejection P
  Residual := LocalResidual P
  Payload := P.Payload
  become_ := P.become_
  intoSettlement := Interpretation.intoSettlement

/-- How the task of an actor ended. -/
inductive ActorExecutionOutcome (P : ActorPort)
  /-- `From<DriverRetirement>`: the variant is the disposition. -/
  | retired (retirement : DriverRetirement P.port)
  | panicked
  | cancelled

/-! ## Reading the report -/

variable {P : ActorPort}

/-- What an interpretation that was begun says of failures. -/
def InterpretationProgress.assess : InterpretationProgress P → ActorFailureAssessment
  | original _ | interpreting _ => .incomplete
  | completed (.corrupt _) => .failuresFound
  | completed (.complete _) => .noFailuresFound

/-- What an answer of a source says of failures: an admitted settlement is still owed an event. -/
def assessSource : SourceCustody P.Settlement → ActorFailureAssessment
  | .closed _ => .failuresFound
  | .admitted _ => .incomplete
  | .exhausted _ | .retained _ => .noFailuresFound

/-- What an offer that was begun says of failures. -/
def SourceProgress.assess : SourceProgress P → ActorFailureAssessment
  | original _ | offering _ => .incomplete
  | completed source => assessSource source

/-- `progress` in `retirement_report`. -/
def ResidualPhase.assess : ResidualPhase P → ActorFailureAssessment
  | prepared => .noFailuresFound
  | uncommitted initialization => initialization.assess
  | retired interpretation source _ =>
    (interpretation.elim .noFailuresFound InterpretationProgress.assess).combine
      (source.elim .noFailuresFound SourceProgress.assess)

/-- `matches!(received_interpretation, Some(Interpretation::Corrupt(_)))`. -/
def isCorrupt : Option (Interpretation P.Settlement) → Bool
  | some (.corrupt _) => true
  | _ => false

/-- `matches!(acquired_ingress, Some(ControlFlow::Break(CapabilityFailed(_))))`. -/
def isCapabilityFailure : Option (ControlFlow (LocalRetirementRequest P) (Option P.Event)) → Bool
  | some (.brk (.capabilityFailed _)) => true
  | _ => false

/-- `matches!(terminal_report, Some(Err(_)))`. -/
def isRefused : Option (Except P.Termination Unit) → Bool
  | some (.error _) => true
  | _ => false

namespace LocalResidual

variable (r : LocalResidual P)

/-- The condition under which `native_failures` is `FailuresFound`. -/
def nativeFailed : Bool :=
  !r.capabilityFailures.isEmpty || !r.retirementFailures.isEmpty || isRefused r.terminalReport ||
    isCorrupt r.receivedInterpretation || isCapabilityFailure r.acquiredIngress

/-- What a residual says of its retirement. -/
def retirementReport : ActorRetirementReport :=
  let retirement : RetirementAssessment :=
    if r.activationTasks.isEmpty then .established else .notEstablished
  let nativeFailures : ActorFailureAssessment :=
    if r.nativeFailed then .failuresFound
    else if !r.activationTasks.isEmpty then .incomplete
    else .noFailuresFound
  let sourceFailures := r.receivedSource.elim .noFailuresFound assessSource
  ActorRetirementReport.combine
    ⟨retirement, ((r.operationFailures.combine r.phase.assess).combine nativeFailures).combine
      sourceFailures⟩
    r.descendantReport

end LocalResidual

/-- The channel was closed. -/
inductive RecvError
  | closed
  deriving DecidableEq, Repr

/-- Why no notification came. -/
inductive RetirementNotificationError (P : ActorPort)
  | panicked (payload : P.Payload)
  | receiptClosed (error : RecvError)

/-- `Result<(), RetirementNotificationError>`. -/
abbrev Notification (P : ActorPort) : Type := Except (RetirementNotificationError P) Unit

/-- `Result::is_err`. -/
def isErr {ε α : Type} : Except ε α → Bool
  | .error _ => true
  | .ok _ => false

/-- `completion_failures` in `from_joined`. -/
def completionFailures : Completion (LocalRetirementRequest P) → ActorFailureAssessment
  | .retirementRequested (.capabilityFailed _) => .failuresFound
  | .stopped | .exhausted | .retirementRequested .ownerCancellation => .noFailuresFound

/-- The report of a driver that returned. -/
def reportOf (r : DriverRetirement P.port) : ActorRetirementReport :=
  match r.disposition with
  | .ok completion =>
    LocalResidual.retirementReport r.residual |>.withFailures
      ((completionFailures completion).combine (.found !r.additionalFailures.isEmpty))
  | .error _ => LocalResidual.retirementReport r.residual |>.withFailures .failuresFound

/-- The report of a joined task. -/
def fromJoined (joined : Except P.JoinError (ActorExecutionOutcome P))
    (notification : Notification P) : ActorRetirementReport :=
  let report : ActorRetirementReport :=
    match joined with
    | .ok (.retired r) => reportOf r
    | .ok .panicked | .ok .cancelled | .error _ => ⟨.notEstablished, .failuresFound⟩
  if isErr notification then report.withFailures .failuresFound else report

/-! ## An actor to run things on -/

/-- An actor whose values are numbers; the action value `0` decides to stop. -/
abbrev numberActor : ActorPort where
  Behavior := ℕ
  Event := ℕ
  Item := ℕ
  User := ℕ
  Actions := ℕ
  InterpretationCustody := ℕ
  Settlement := ℕ
  OfferCustody := ℕ
  BehaviorError := ℕ
  Address := ℕ
  JoinError := ℕ
  Payload := ℕ
  Task := ℕ
  Bindings := ℕ
  DescendantRoot := ℕ
  DescendantFailure := ℕ
  Exit := ℕ
  Crash := ℕ
  normal := 0
  collected := 1
  failed := 0
  panicked := 1
  environmentFailed := 2
  capabilityFailed := 3
  cancelled := 4
  become_ a := if a = 0 then .stop else .cont
  interpretingBecome a := if a = 0 then .stop else .cont
  retainAtRetirement := some
  noBindings := 0

end Local
