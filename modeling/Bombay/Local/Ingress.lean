import Bombay.Engine.Shape
import Bombay.Entity.Runtime

/-!
# The mailbox of an entity and the environment that reads it

Senders put messages into the user lane of an actor's mailbox, and fences as well: a fence is
answered when the actor comes to it.  `ActiveLocalEnvironment::next` reads the lane.  A message
becomes an event and is returned to the driver; a fence is completed on the spot, and `next` goes
on.  What is unread when the environment retires, or is dropped, is taken out of the lane at once,
and the fences among it fail.

The lane is kept as the list of all that was ever accepted, together with how much of it was read,
so that a position in it is the name of a message or fence.  Of the mailbox only this is assumed:
the lane is first in, first out, and to drain it closes it and gives everything unread.

The driver is the one of the engine.  Its inputs are restricted as the environment restricts them:
`next` and `next_source` reply what the iterations of their loops have found, nobody drops the
driver's future, and a residual is handed over only after the lane was drained.  Everything else
about the host is left open, and so is when which source is ready.
-/

set_option autoImplicit false

namespace Local

open Machine Engine Entity

/-! ## The environment -/

/-- What the mailbox carries. -/
inductive LocalIngress (M : Type)
  | message (user : M)
  | fence
  deriving DecidableEq

/-- The sources of `next`. -/
inductive EventSource
  | mailbox
  | localEvent
  | timer
  deriving DecidableEq

/-- The order from a source on. -/
def EventSource.order : EventSource → List EventSource
  | mailbox => [mailbox, localEvent, timer]
  | localEvent => [localEvent, timer, mailbox]
  | timer => [timer, mailbox, localEvent]

/-- The sources of `next_source`. -/
inductive SettlementSource
  | control
  | localEvent
  deriving DecidableEq

/-- The order from a source on. -/
def SettlementSource.order : SettlementSource → List SettlementSource
  | control => [control, localEvent]
  | localEvent => [localEvent, control]

/-- What `Consumer::recv` gives; the next item of the user lane is found there. -/
inductive MailboxPoll (P : Port)
  | closed
  | control (event : P.Event)
  | user
  | userLaneClosed

/-- What the sources of `next` answer to a poll, if they are ready. -/
structure Polls (P : Port) where
  cancellation : Option (Option P.RetirementRequest)
  mailbox : Option (MailboxPoll P)
  localEvent : Option (Except P.RetirementRequest P.Event)
  timer : Bool
  /-- What `pop_due` finds. -/
  due : Option P.Event
  /-- The conversion of a message panics, or the waker of a fence. -/
  panics : Option P.Payload

/-- What a poll has acquired. -/
inductive Acquired (P : Port)
  | mailbox (received : MailboxPoll P)
  | localEvent (result : Except P.RetirementRequest P.Event)
  | deadline
  | ownerCancellation (request : Option P.RetirementRequest)

/-- The answer of a source. -/
def Polls.answer {P : Port} (polls : Polls P) : EventSource → Option (Acquired P)
  | .mailbox => polls.mailbox.map .mailbox
  | .localEvent => polls.localEvent.map .localEvent
  | .timer => if polls.timer then some .deadline else none

/-- The owner's cancellation comes first, then the sources in their order. -/
def Polls.acquired {P : Port} (polls : Polls P) (source : EventSource) : Option (Acquired P) :=
  match polls.cancellation with
  | some request => some (.ownerCancellation request)
  | none => source.order.findSome? polls.answer

/-- How an iteration of a loop ends. -/
inductive Iteration (P : Port)
  | again
  | returns (ingress : P.Ingress)
  | unwinds (payload : P.Payload)

/-- An actor with its driver, its environment and its mailbox.  `admission` is open until somebody
closes it, `consumer` is with the inbox until it is drained, and `completions` are the completed
fences. -/
structure LocalActor (P : Port) (M : Type) where
  config : Config P
  accepted : List (LocalIngress M)
  read : ℕ
  admission : Bool
  consumer : Bool
  retiredIngress : Option (List M)
  nextEventSource : EventSource
  nextSettlementSource : SettlementSource
  completions : List (ℕ × Except FenceFailure Unit)
  /-- The driver and its environment have not been dropped. -/
  alive : Bool

namespace LocalActor

variable {P : Port} {M : Type}

/-- `LocalEnvironment::prepare`, and the driver for it. -/
def new (behavior : P.Behavior) (environment : P.Environment) : LocalActor P M where
  config := .start behavior environment
  accepted := []
  read := 0
  admission := true
  consumer := true
  retiredIngress := none
  nextEventSource := .mailbox
  nextSettlementSource := .control
  completions := []
  alive := true

variable (s : LocalActor P M)

/-- The next item of the user lane, and `EntityIngress::into_event` of it. -/
def receive (user : M → P.Event) (panics : Option P.Payload) :
    Option (LocalActor P M × Iteration P) :=
  match s.accepted[s.read]? with
  | none => none
  | some (.message m) =>
    some ({ s with read := s.read + 1 },
      match panics with
      | none => .returns (.cont (some (user m)))
      | some payload => .unwinds payload)
  | some .fence =>
    some ({ s with read := s.read + 1, completions := s.completions ++ [(s.read, .ok ())] },
      match panics with
      | none => .again
      | some payload => .unwinds payload)

/-- One iteration of `ActiveLocalEnvironment::next`, or none if everything is pending. -/
def next (user : M → P.Event) (polls : Polls P) : Option (LocalActor P M × Iteration P) :=
  match polls.acquired s.nextEventSource with
  | none => none
  | some (.ownerCancellation (some request)) => some (s, .returns (.brk request))
  | some (.ownerCancellation none) => some (s, .again)
  | some (.localEvent (.ok event)) =>
    some ({ s with nextEventSource := .timer }, .returns (.cont (some event)))
  | some (.localEvent (.error request)) => some (s, .returns (.brk request))
  | some .deadline =>
    match polls.due with
    | some event => some ({ s with nextEventSource := .mailbox }, .returns (.cont (some event)))
    | none => some (s, .again)
  | some (.mailbox .closed) => some (s, .returns (.cont none))
  | some (.mailbox (.control event)) =>
    some ({ s with nextEventSource := .localEvent }, .returns (.cont (some event)))
  | some (.mailbox .user) =>
    { s with nextEventSource := EventSource.localEvent }.receive user polls.panics
  | some (.mailbox .userLaneClosed) => some ({ s with nextEventSource := .localEvent }, .again)

/-- One iteration of `ActiveLocalEnvironment::next_source`.  It reads the control lane only. -/
def nextSource (cancellation : Option (Option P.RetirementRequest))
    (control : Option (Option P.Event))
    (event : Option (Except P.RetirementRequest P.Event)) : Option (LocalActor P M × Iteration P) :=
  match cancellation with
  | some (some request) => some (s, .returns (.brk request))
  | some none => some (s, .again)
  | none =>
    s.nextSettlementSource.order.findSome? fun source =>
      match source with
      | .control =>
        control.map fun event => ({ s with nextSettlementSource := .localEvent },
          .returns (.cont event))
      | .localEvent =>
        event.map fun result =>
          ({ s with nextSettlementSource := .control },
            match result with
            | .ok event => .returns (.cont (some event))
            | .error request => .returns (.brk request))

/-- An iteration hands its result to the driver. -/
def resume (disposal : Option P.Payload) :
    Option (LocalActor P M × Iteration P) → Option (LocalActor P M)
  | none => none
  | some (s, .again) => some s
  | some (s, .returns ingress) =>
    (step s.config (.acquired (.reply ingress disposal))).map fun c => { s with config := c }
  | some (s, .unwinds payload) =>
    (step s.config (.acquired (.unwound payload disposal))).map fun c => { s with config := c }

end LocalActor

/-- `EntityIngress::retain_at_retirement` for all that is unread, from the position `n` on.  If the
waker of a fence panics, the rest is lost. -/
def collectRetiredIngress {M : Type} (panics : ℕ → Bool) (n : ℕ) :
    List (LocalIngress M) → List (ℕ × Except FenceFailure Unit) × Option (List M)
  | [] => ([], some [])
  | .message m :: rest =>
    let (completed, users) := collectRetiredIngress panics (n + 1) rest
    (completed, users.map (m :: ·))
  | .fence :: rest =>
    if panics n then ([(n, .error .acknowledgement)], none)
    else
      let (completed, users) := collectRetiredIngress panics (n + 1) rest
      ((n, .error .acknowledgement) :: completed, users)

namespace LocalActor

variable {P : Port} {M : Type} (s : LocalActor P M)

/-- `LocalInbox::drain`, after admission was closed. -/
def drain (panics : ℕ → Bool) : LocalActor P M :=
  if s.consumer then
    let (completed, users) := collectRetiredIngress panics s.read (s.accepted.drop s.read)
    { s with
      admission := false
      consumer := false
      read := s.accepted.length
      completions := s.completions ++ completed
      retiredIngress := users }
  else { s with admission := false }

end LocalActor

/-! ## The actor -/

/-- What happens to an actor. -/
inductive LocalOp (P : Port) (M : Type)
  /-- The lane accepts a message. -/
  | send (user : M)
  /-- The lane accepts a fence. -/
  | fence
  | closeAdmission
  /-- The driver, or an operation of the environment other than the two below, takes a step. -/
  | drive (i : Engine.Input P)
  | next (polls : Polls P) (disposal : Option P.Payload)
  | nextSource (cancellation : Option (Option P.RetirementRequest))
      (control : Option (Option P.Event))
      (event : Option (Except P.RetirementRequest P.Event)) (disposal : Option P.Payload)
  /-- The environment that is retired drains its inbox. -/
  | drain (panics : ℕ → Bool)
  /-- The driver is dropped, with an active environment: `LocalInbox::drop`. -/
  | drop (panics : ℕ → Bool)

section

variable {P : Port} {M : Type}

/-- The residual that an operation hands over. -/
def residualOf : Loan P → Option P.Residual
  | .activation _ _ (some (.error (_, residual))) => some residual
  | .prepared _ _ received => received
  | .retirement _ _ _ _ _ _ _ received => received
  | _ => none

/-- The operation hands over an active environment. -/
def activates : Loan P → Bool
  | .activation _ _ (some (.ok _)) => true
  | _ => false

/-- The inputs that the environment allows. -/
def LocalActor.permits (s : LocalActor P M) : Engine.Input P → Bool
  | .dropped _ => false
  | .acquired reply => reply.value?.isNone
  | .completed loan _ =>
    (!(residualOf loan).isSome || s.retiredIngress.isSome) && (!activates loan || s.consumer)
  | _ => true

/-- The environment is being retired at this point, or its activation is being refused. -/
def retires : Point P → Bool
  | .activate | .retirePrepared | .retireActive => true
  | _ => false

/-- The driver is not running and can be dropped. -/
def rests : Point P → Bool
  | .idle | .received (.error _) => true
  | _ => false

/-- One step; `user` makes the event of a message. -/
def LocalActor.step (user : M → P.Event) (s : LocalActor P M) :
    LocalOp P M → Option (LocalActor P M)
  | .send m =>
    if s.admission && s.consumer then some
      { s with accepted := s.accepted ++ [.message m] } else none
  | .fence =>
    if s.admission && s.consumer then some { s with accepted := s.accepted ++ [.fence] } else none
  | .closeAdmission => some { s with admission := false }
  | .drive i =>
    if s.alive && s.permits i then (Engine.step s.config i).map fun c =>
      { s with config := c } else none
  | .next polls disposal =>
    match s.alive, s.config.point with
    | true, .next => resume disposal (s.next user polls)
    | _, _ => none
  | .nextSource cancellation control event disposal =>
    match s.alive, s.config.point with
    | true, .nextSource => resume disposal (s.nextSource cancellation control event)
    | _, _ => none
  | .drain panics => if s.alive && retires s.config.point then some (s.drain panics) else none
  | .drop panics =>
    if s.alive && rests s.config.point && s.config.driver.active.isSome then
      some { s.drain panics with alive := false }
    else none

/-- Histories of an actor. -/
abbrev LocalHistory (P : Port) (M : Type) := List (Transition (LocalActor P M) (LocalOp P M))

/-- A new actor comes to `s` by the history `tr`. -/
abbrev LocalRun (user : M → P.Event) (b : P.Behavior) (e : P.Environment) (tr : LocalHistory P M)
    (s : LocalActor P M) : Prop := Run (LocalActor.step user) (.new b e) tr s

end

end Local
