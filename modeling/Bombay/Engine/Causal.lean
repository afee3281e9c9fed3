import Bombay.Engine.Protocol
import Bombay.Machine.Performance

/-!
# The causal execution of a behavior

`drive` settles products iteratively: a queue it pushes to the front, a saved index, a search for
the first row that can be offered.  What it is meant to compute is recursive, and this module says
it that way.  To settle a product is to offer its results one by one; the event of an admitted
result is folded and applied, and the product of that is settled completely, with all that it admits
in turn, before the older product is offered again.

Both are run against the same behavior and the same environment, a `Program` and a `Script`.  The
replies of a script may depend on what it is asked and on everything before; it is finite in that it
has only so many events to give.  `Script.listed` is the one whose replies are written down in
lists.  `perform` lets the driver run against them by itself.
-/

set_option autoImplicit false

namespace Engine

open Machine

/-! ## Behaviors and environments -/

/-- A behavior that does not panic. -/
structure Program (P : Port) where
  /-- `behavior::initialize`. -/
  initialization : P.Behavior → Except P.BehaviorError P.Actions × P.Behavior
  /-- `behavior::delegate_transition`. -/
  transition : P.Behavior → P.Event → Except P.BehaviorError P.Actions × P.Behavior

/-- How many events an acquisition gives. -/
def ControlFlow.events {R E : Type} : ControlFlow R (Option E) → ℕ
  | .cont (some _) => 1
  | _ => 0

/-- An environment that does not panic, takes what it is lent and replies to every call.  `left` is
how many events it still has to give. -/
structure Script (P : Port) where
  /-- What it remembers. -/
  State : Type
  activate : State → P.Environment → P.Actions → P.Activation × State
  settlementStatus : P.Interpretation → SettlementStatus
  offerNext : State → P.Settlement → SourceCustody P.Settlement × State
  nextSource : State → P.Ingress × State
  publish : State → ControlFlow P.RetirementRequest Unit × State
  next : State → P.Ingress × State
  apply : State → P.Actions → P.Interpretation × State
  retirePrepared : State → P.Environment → P.Residual
  retireActive : State → P.Active → List P.Settlement → P.Residual
  left : State → ℕ
  offerNext_left : ∀ state s, left (offerNext state s).2 ≤ left state
  nextSource_left : ∀ state, left (nextSource state).2 + (nextSource state).1.events ≤ left state
  next_left : ∀ state, left (next state).2 + (next state).1.events ≤ left state
  apply_left : ∀ state a, left (apply state a).2 ≤ left state

/-- A call of the environment or of the behavior, with what it is given. -/
inductive Act (P : Port)
  | initialization
  | activate (environment : P.Environment) (actions : P.Actions)
  | offerNext (settlement : P.Settlement)
  | nextSource
  | publish
  | next
  | transition (event : P.Event)
  | apply (actions : P.Actions)
  | retirePrepared
  | retireActive (settlements : List P.Settlement)

variable {P : Port}

/-! ## Finite scripts -/

/-- What a script that is written down still has to reply. -/
structure Replies (P : Port) where
  /-- What becomes of the settlements that are offered; after these they are exhausted. -/
  offers : List (P.Settlement → SourceCustody P.Settlement)
  /-- The replies of `next_source`; after these the source is closed. -/
  sources : List P.Ingress
  /-- The replies of `next`; after these there is nothing more. -/
  nexts : List P.Ingress

/-- The next of some acquisitions. -/
def acquire : List P.Ingress → P.Ingress × List P.Ingress
  | [] => (.cont none, [])
  | ingress :: rest => (ingress, rest)

theorem acquire_length (ingresses : List P.Ingress) :
    (acquire ingresses).2.length + (acquire ingresses).1.events ≤ ingresses.length := by
  cases ingresses with
  | nil => exact le_rfl
  | cons ingress =>
    have hone : ingress.events ≤ 1 := by
      rcases ingress with (_ | _) | _ <;> simp [ControlFlow.events]
    exact Nat.add_le_add_left hone _

/-- What becomes of an offer. -/
def Replies.offerNext (r : Replies P) (s : P.Settlement) : SourceCustody P.Settlement × Replies P :=
  match r.offers with
  | [] => (.exhausted s, r)
  | custody :: offers => (custody s, { r with offers := offers })

/-- The acquisitions left bound the events left. -/
def Replies.left (r : Replies P) : ℕ := r.sources.length + r.nexts.length

theorem Replies.offerNext_left (r : Replies P) (s : P.Settlement) :
    (r.offerNext s).2.left ≤ r.left := by
  unfold offerNext
  split <;> exact le_rfl

theorem Replies.nextSource_left (r : Replies P) :
    left { r with sources := (acquire r.sources).2 } + (acquire r.sources).1.events ≤ r.left := by
  have := acquire_length r.sources
  simp only [left]
  omega

theorem Replies.next_left (r : Replies P) :
    left { r with nexts := (acquire r.nexts).2 } + (acquire r.nexts).1.events ≤ r.left := by
  have := acquire_length r.nexts
  simp only [left]
  omega

/-- The environment whose offers and acquisitions are answered from lists. -/
def Script.listed (activation : P.Activation) (status : P.Interpretation → SettlementStatus)
    (publication : ControlFlow P.RetirementRequest Unit)
    (interpretation : P.Actions → P.Interpretation) (residual : P.Residual) : Script P where
  State := Replies P
  activate r _ _ := (activation, r)
  settlementStatus := status
  offerNext := Replies.offerNext
  nextSource r := ((acquire r.sources).1, { r with sources := (acquire r.sources).2 })
  publish r := (publication, r)
  next r := ((acquire r.nexts).1, { r with nexts := (acquire r.nexts).2 })
  apply r a := (interpretation a, r)
  retirePrepared _ _ := residual
  retireActive _ _ _ := residual
  left := Replies.left
  offerNext_left := Replies.offerNext_left
  nextSource_left := Replies.nextSource_left
  next_left := Replies.next_left
  apply_left _ _ := le_rfl

/-! ## The recursive semantics -/

/-- The behavior and the environment, as they are at some time. -/
structure World (script : Script P) where
  behavior : P.Behavior
  state : script.State

/-- How a turn ends the execution, if it does: the product was rejected, or the decision was to
stop.  Only the product of the initialization must not be rejected. -/
def judge (initial : Bool) (status : SettlementStatus) (decision : ActionDecision) :
    Option (Disposition P) :=
  match status, decision with
  | .corrupt, _ => some (.error (.settlement .corrupt))
  | status, decision =>
    if initial && status == .rejected then some (.error (.settlement .rejected))
    else
      match decision with
      | .stop => some (.ok .stopped)
      | .cont => none

/-- What an event leads to: its fold, the application of its actions, and their product.  The list
has the product if the execution ends here. -/
structure Reaction (script : Script P) (n : ℕ) where
  acts : List (Act P)
  world : World script
  product : Except (List P.Settlement × Disposition P) P.Settlement
  left_le : script.left world.state ≤ n

/-- What remains when a product has been settled: the products of its results that the environment
wants to keep, newest first, then the product itself if it is kept, and how the execution ended, if
it did. -/
structure Settling (script : Script P) (n : ℕ) where
  acts : List (Act P)
  world : World script
  children : List P.Settlement
  own : Option P.Settlement
  ended : Option (Disposition P)
  left_le : script.left world.state ≤ n

def Settling.kept {script : Script P} {n : ℕ} (r : Settling script n) : List P.Settlement :=
  r.children ++ r.own.toList

/-- How ordinary execution ended, and what was kept until then. -/
structure Executed (script : Script P) where
  acts : List (Act P)
  world : World script
  kept : List P.Settlement
  disposition : Disposition P

/-- What `receive_run` gives back, and what was called. -/
structure Life (P : Port) where
  acts : List (Act P)
  behavior : P.Behavior
  residual : P.Residual
  disposition : Disposition P

section

variable (program : Program P) (script : Script P)

/-- Fold one event and apply its actions. -/
def react (w : World script) (event : P.Event) : Reaction script (script.left w.state) :=
  let folded := program.transition w.behavior event
  match folded.1 with
  | .error error =>
    ⟨[.transition event], ⟨folded.2, w.state⟩, .error ([], .error (.behavior error)), le_rfl⟩
  | .ok a =>
    let applied := script.apply w.state a
    let product := P.intoSettlement applied.1
    ⟨[.transition event, .apply a], ⟨folded.2, applied.2⟩,
      match judge false (script.settlementStatus applied.1) (P.decision a) with
      | some disposition => .error ([product], disposition)
      | none => .ok product,
      script.apply_left w.state a⟩

/-- Settle one product completely. -/
def settle (w : World script) (product : P.Settlement) : Settling script (script.left w.state) :=
  let offered := script.offerNext w.state product
  have hoffered : script.left offered.2 ≤ script.left w.state :=
    script.offerNext_left w.state product
  match offered.1 with
  | .exhausted _ => ⟨[.offerNext product], ⟨w.behavior, offered.2⟩, [], none, none, hoffered⟩
  | .retained kept =>
    ⟨[.offerNext product], ⟨w.behavior, offered.2⟩, [], some kept, none, hoffered⟩
  | .closed kept =>
    ⟨[.offerNext product], ⟨w.behavior, offered.2⟩, [], some kept,
      some (.error (.settlement .sourceClosed)), hoffered⟩
  | .admitted kept =>
    let acquired := script.nextSource offered.2
    have hacquired : script.left acquired.2 + acquired.1.events ≤ script.left offered.2 :=
      script.nextSource_left offered.2
    have hwaited : script.left acquired.2 ≤ script.left w.state := by omega
    match hevent : acquired.1 with
    | .cont none =>
      ⟨[.offerNext product, .nextSource], ⟨w.behavior, acquired.2⟩, [], some kept,
        some (.error (.settlement .sourceClosed)), hwaited⟩
    | .brk request =>
      ⟨[.offerNext product, .nextSource], ⟨w.behavior, acquired.2⟩, [], some kept,
        some (.ok (.retirementRequested request)), hwaited⟩
    | .cont (some event) =>
      let reaction := react program script ⟨w.behavior, acquired.2⟩ event
      have hreaction : script.left reaction.world.state ≤ script.left acquired.2 := reaction.left_le
      have hreacted : script.left reaction.world.state < script.left w.state := by
        rw [hevent, ControlFlow.events] at hacquired
        omega
      match reaction.product with
      | .error (newer, disposition) =>
        ⟨.offerNext product :: .nextSource :: reaction.acts, reaction.world, newer, some kept,
          some disposition, hreacted.le⟩
      | .ok product' =>
        let child := settle reaction.world product'
        have hchild : script.left child.world.state < script.left w.state :=
          Nat.lt_of_le_of_lt child.left_le hreacted
        match child.ended with
        | some disposition =>
          ⟨.offerNext product :: .nextSource :: (reaction.acts ++ child.acts), child.world,
            child.kept, some kept, some disposition, hchild.le⟩
        | none =>
          let rest := settle child.world kept
          ⟨.offerNext product :: .nextSource :: (reaction.acts ++ (child.acts ++ rest.acts)),
            rest.world, rest.children ++ child.kept, rest.own, rest.ended,
            rest.left_le.trans hchild.le⟩
termination_by script.left w.state
decreasing_by
  · exact hreacted
  · exact hchild

/-- Ordinary execution, with what has been kept so far. -/
def execute (w : World script) (older : List P.Settlement) : Executed script :=
  let acquired := script.next w.state
  have hacquired : script.left acquired.2 + acquired.1.events ≤ script.left w.state :=
    script.next_left w.state
  match hevent : acquired.1 with
  | .cont none => ⟨[.next], ⟨w.behavior, acquired.2⟩, older, .ok .exhausted⟩
  | .brk request =>
    ⟨[.next], ⟨w.behavior, acquired.2⟩, older, .ok (.retirementRequested request)⟩
  | .cont (some event) =>
    let reaction := react program script ⟨w.behavior, acquired.2⟩ event
    have hreaction : script.left reaction.world.state ≤ script.left acquired.2 := reaction.left_le
    match reaction.product with
    | .error (newer, disposition) =>
      ⟨.next :: reaction.acts, reaction.world, newer ++ older, disposition⟩
    | .ok product =>
      let settled := settle program script reaction.world product
      have hsettled := settled.left_le
      have hless : script.left settled.world.state < script.left w.state := by
        rw [hevent, ControlFlow.events] at hacquired
        omega
      match settled.ended with
      | some disposition =>
        ⟨.next :: (reaction.acts ++ settled.acts), settled.world, settled.kept ++ older,
          disposition⟩
      | none =>
        let rest := execute settled.world (settled.kept ++ older)
        ⟨.next :: (reaction.acts ++ (settled.acts ++ rest.acts)), rest.world, rest.kept,
          rest.disposition⟩
termination_by script.left w.state

/-- Execution once the environment is active, from the product of the initialization on. -/
def begin (w : World script) (status : SettlementStatus) (decision : ActionDecision)
    (product : P.Settlement) : Executed script :=
  match judge true status decision with
  | some disposition => ⟨[], w, [product], disposition⟩
  | none =>
    let settled := settle program script w product
    match settled.ended with
    | some disposition => ⟨settled.acts, settled.world, settled.kept, disposition⟩
    | none =>
      let published := script.publish settled.world.state
      let w : World script := ⟨settled.world.behavior, published.2⟩
      match published.1 with
      | .brk request =>
        ⟨settled.acts ++ [.publish], w, settled.kept, .ok (.retirementRequested request)⟩
      | .cont () =>
        let rest := execute program script w settled.kept
        ⟨settled.acts ++ .publish :: rest.acts, rest.world, rest.kept, rest.disposition⟩

/-- The whole execution: initialization, activation, turns, retirement. -/
def causal (b : P.Behavior) (e : P.Environment) (state : script.State) : Life P :=
  let folded := program.initialization b
  match folded.1 with
  | .error error =>
    ⟨[.initialization, .retirePrepared], folded.2, script.retirePrepared state e,
      .error (.behavior error)⟩
  | .ok a =>
    let activated := script.activate state e a
    match activated.1 with
    | .error (error, residual) =>
      ⟨[.initialization, .activate e a], folded.2, residual, .error (.activation error)⟩
    | .ok (active, i) =>
      let executed := begin program script ⟨folded.2, activated.2⟩ (script.settlementStatus i)
        (P.decision a) (P.intoSettlement i)
      ⟨.initialization :: .activate e a :: (executed.acts ++ [.retireActive executed.kept]),
        executed.world.behavior, script.retireActive executed.world.state active executed.kept,
        executed.disposition⟩

end

/-! ## The driver by itself -/

/-- The call that has been made at a point. -/
def Config.act? (c : Config P) : Option (Act P) :=
  match c.point with
  | .initialization => some .initialization
  | .activate =>
    match c.driver.environment, c.driver.actions with
    | some e, some a => some (.activate e a)
    | _, _ => none
  | .offerNext => c.driver.sourceInput.map .offerNext
  | .nextSource => some .nextSource
  | .publish => some .publish
  | .next => some .next
  | .transition event => some (.transition event)
  | .apply => c.driver.actions.map .apply
  | .retirePrepared => some .retirePrepared
  | .retireActive => c.driver.retirementInput.map .retireActive
  | _ => none

/-- The result of a fold that does not panic. -/
def Fold.of : Except P.BehaviorError P.Actions → Fold P
  | .ok a => .ok a
  | .error error => .err error

/-- A driver and the environment it runs against. -/
structure Performance (script : Script P) where
  config : Config P
  state : script.State

section

variable (program : Program P) (script : Script P)

/-- What happens next: the driver runs on, or the behavior or the environment replies.  Nobody drops
the driver's future. -/
def answer (c : Config P) (state : script.State) : Option (Input P × script.State) :=
  match c.point with
  | .idle => some (.receiveRun, state)
  | .head | .settle | .offered _ | .sourceAcquired _ | .ingressAcquired _ | .consume | .finish =>
    some (.advance, state)
  | .initialization =>
    let folded := program.initialization c.driver.behavior
    some (.folded folded.2 (.of folded.1), state)
  | .transition event =>
    let folded := program.transition c.driver.behavior event
    some (.folded folded.2 (.of folded.1), state)
  | .activate =>
    match c.driver.environment, c.driver.actions with
    | some e, some a =>
      let activated := script.activate state e a
      some (.completed (.activation none none (some activated.1)) (.reply () none), activated.2)
    | _, _ => none
  | .classify =>
    c.driver.interpretation.map fun i => (.classified (.ok (script.settlementStatus i)), state)
  | .offerNext =>
    c.driver.sourceInput.map fun s =>
      let offered := script.offerNext state s
      (.completed (.source none (some offered.1)) (.reply () none), offered.2)
  | .dispose _ => some (.disposed none, state)
  | .nextSource =>
    let acquired := script.nextSource state
    some (.acquired (.reply acquired.1 none), acquired.2)
  | .publish =>
    let published := script.publish state
    some (.published (.ok published.1), published.2)
  | .next =>
    let acquired := script.next state
    some (.acquired (.reply acquired.1 none), acquired.2)
  | .apply =>
    c.driver.actions.map fun a =>
      let applied := script.apply state a
      (.completed (.application none (some applied.1)) (.reply () none), applied.2)
  | .retirePrepared =>
    c.driver.environment.map fun e =>
      (.completed (.prepared none none (some (script.retirePrepared state e)))
        (.reply () none), state)
  | .retireActive =>
    match c.driver.active, c.driver.retirementInput with
    | some active, some settlements =>
      some (.completed (.retirement none none none none none none none
        (some (script.retireActive state active settlements))) (.reply () none), state)
    | _, _ => none
  | .received _ => none

def perform (s : Performance script) : Option (Performance script) :=
  (answer program script s.config s.state).bind fun (i, state) =>
    (step s.config i).map fun c => ⟨c, state⟩

end

end Engine
