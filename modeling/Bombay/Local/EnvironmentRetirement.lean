import Bombay.Local.Execution

/-!
# What a retirement holds

A retirement moves about a dozen optional values in stages, from the caller's slots into the
environment and from there into the residual, and it can be dropped at its await and called again.
`Holdings` counts the values of every kind wherever they are: no step adds or loses one, unless the
waker of a fence panics as the mailbox is drained.  Meanwhile the capabilities hand over their
children.  `LocalRetire.gains` says which calls and polls reach them and what each brings, and all
of that goes to the end of its lanes (`Grown`).

All this begins with slots that fit together (`Fits`), as the operations of an actor leave them
(`Execution.orderly_run`).

The owners that retirement itself is about are not among them.  When the interpreter is gone, the
reservation, the private commitment, the lease, the publication and the liveness of the control lane
are dropped on purpose.
-/

set_option autoImplicit false

namespace Local

open Machine Engine Option LocalEnvironment

variable {P : ActorPort}

/-! ## Holdings -/

/-- The values of every kind that a retirement carries, wherever they are. -/
@[ext]
structure Holdings (P : ActorPort) where
  interpretation : List (InterpretationProgress P)
  source : List (SourceProgress P)
  receivedInterpretation : List (Interpretation P.Settlement)
  receivedSource : List (SourceCustody P.Settlement)
  sourceIndex : List ℕ
  acquiredIngress : List (ControlFlow (LocalRetirementRequest P) (Option P.Event))
  settlements : List (List P.Settlement)
  control : List P.Event
  user : List P.User
  activationTasks : List P.Task
  operationFailures : Option ActorFailureAssessment
  unreadOwnerCancellation : List Unit

/-- The tasks the capabilities own. -/
def Capabilities.tasks (owner : Option (Capabilities P)) : List P.Task :=
  (owner.bind Capabilities.activationTasks).getD []

/-- The tasks that were acquired. -/
def CapabilityRetirement.tasks (received : Option (CapabilityRetirement P)) : List P.Task :=
  (received.map CapabilityRetirement.activationTasks).getD []

/-- What is known of failed operations: what the acquired lanes say, or else the capabilities. -/
def operations (capabilities : Option (Capabilities P))
    (received : Option (CapabilityRetirement P)) :
    Option ActorFailureAssessment :=
  received.map CapabilityRetirement.operationFailures <|>
    capabilities.map Capabilities.operationFailures

/-- The items of a mailbox that retirement keeps. -/
def Lanes.drained (lanes : Option (Lanes P)) (retired : Option (Drained P)) : Drained P :=
  let unread := (lanes.map Lanes.retained).getD ⟨[], []⟩
  let read := retired.getD ⟨[], []⟩
  ⟨unread.control ++ read.control, unread.user ++ read.user⟩

/-- A request that was not read, in the channel or out of it. -/
def unread (receiver : Option Bool) (slot : Option Unit) : List Unit :=
  (receiver.bind closeOwnerCancellation).toList ++ slot.toList

/-- The interpretation that a residual keeps. -/
def ResidualPhase.interpretation : ResidualPhase P → List (InterpretationProgress P)
  | prepared => []
  | uncommitted initialization => [initialization]
  | retired interpretation _ _ => interpretation.toList

/-- The offer that a residual keeps. -/
def ResidualPhase.source : ResidualPhase P → List (SourceProgress P)
  | retired _ source _ => source.toList
  | _ => []

/-- The settlements that a residual keeps. -/
def ResidualPhase.settlements : ResidualPhase P → List (List P.Settlement)
  | retired _ _ settlements => [settlements]
  | _ => []

/-- What a residual holds. -/
def LocalResidual.holdings (r : LocalResidual P) : Holdings P where
  interpretation := r.phase.interpretation
  source := r.phase.source
  receivedInterpretation := r.receivedInterpretation.toList
  receivedSource := r.receivedSource.toList
  sourceIndex := r.sourceIndex.toList
  acquiredIngress := r.acquiredIngress.toList
  settlements := r.phase.settlements
  control := r.ingress.control
  user := r.ingress.user
  activationTasks := r.activationTasks
  operationFailures := some r.operationFailures
  unreadOwnerCancellation := r.unreadOwnerCancellation.toList

namespace Holdings

/-- Nothing. -/
def none : Holdings P := ⟨[], [], [], [], [], [], [], [], [], [], .none, []⟩

/-- The values of two places. -/
def append (h k : Holdings P) : Holdings P where
  interpretation := h.interpretation ++ k.interpretation
  source := h.source ++ k.source
  receivedInterpretation := h.receivedInterpretation ++ k.receivedInterpretation
  receivedSource := h.receivedSource ++ k.receivedSource
  sourceIndex := h.sourceIndex ++ k.sourceIndex
  acquiredIngress := h.acquiredIngress ++ k.acquiredIngress
  settlements := h.settlements ++ k.settlements
  control := h.control ++ k.control
  user := h.user ++ k.user
  activationTasks := h.activationTasks ++ k.activationTasks
  operationFailures := h.operationFailures <|> k.operationFailures
  unreadOwnerCancellation := h.unreadOwnerCancellation ++ k.unreadOwnerCancellation

instance : Append (Holdings P) := ⟨append⟩

/-- What a slot for a residual holds. -/
def ofResidual (r : Option (LocalResidual P)) : Holdings P := r.elim none LocalResidual.holdings

theorem append_none (h : Holdings P) : h ++ none = h := by
  obtain ⟨_, _, _, _, _, _, _, _, _, _, failures, _⟩ := h
  ext1
  case operationFailures => cases failures <;> rfl
  all_goals exact List.append_nil _

end Holdings

/-- What a prepared environment holds.  A residual leaves it in the poll that makes it (`Fits`). -/
def LocalEnvironment.holdings (e : LocalEnvironment P) : Holdings P where
  interpretation := e.initialization.toList
  source := []
  receivedInterpretation := []
  receivedSource := []
  sourceIndex := []
  acquiredIngress := []
  settlements := []
  control := (Lanes.drained e.consumer e.retiredIngress).control
  user := (Lanes.drained e.consumer e.retiredIngress).user
  activationTasks :=
    Capabilities.tasks (ActionInterpreter.inside e.interpreter) ++
      CapabilityRetirement.tasks e.retirement
  operationFailures := operations (ActionInterpreter.inside e.interpreter) e.retirement
  unreadOwnerCancellation := unread e.ownerCancellation e.unreadOwnerCancellation

/-- What a live environment holds. -/
def ActiveLocalEnvironment.holdings (e : ActiveLocalEnvironment P) : Holdings P where
  interpretation := e.interpretation.toList
  source := e.source.toList
  receivedInterpretation := e.receivedInterpretation.toList
  receivedSource := e.receivedSource.toList
  sourceIndex := e.sourceIndex.toList
  acquiredIngress := e.acquiredIngress.toList
  settlements := []
  control := (Lanes.drained e.inbox e.retiredIngress).control
  user := (Lanes.drained e.inbox e.retiredIngress).user
  activationTasks :=
    Capabilities.tasks (ActionInterpreter.inside e.interpreter) ++
      CapabilityRetirement.tasks e.retirement
  operationFailures := operations (ActionInterpreter.inside e.interpreter) e.retirement
  unreadOwnerCancellation := unread e.ownerCancellation e.unreadOwnerCancellation

/-- What the caller of `LocalEnvironment::retire` holds. -/
def PreparedRetire.caller (s : PreparedRetire P) : Holdings P :=
  { Holdings.none with interpretation := s.actions.toList.map .original }

/-- What the caller of `ActiveLocalEnvironment::retire` holds. -/
def ActiveRetire.caller (s : ActiveRetire P) : Holdings P :=
  { Holdings.none with
    interpretation := s.actions.toList.map .original
    receivedInterpretation := s.interpretation.toList
    receivedSource := s.source.toList
    sourceIndex := s.sourceIndex.toList
    acquiredIngress := s.ingress.toList
    settlements := s.settlements.toList }

namespace LocalRetire

/-- What is in the caller's slots. -/
def caller : LocalRetire P → Holdings P
  | prepared s => s.caller
  | active s => s.caller

/-- The environment's slot. -/
def owned : LocalRetire P → Bool
  | prepared s => s.environment.isSome
  | active s => s.environment.isSome

/-- What the environment holds. -/
def environment : LocalRetire P → Holdings P
  | prepared s => s.environment.elim .none holdings
  | active s => s.environment.elim .none ActiveLocalEnvironment.holdings

/-- The residual that was produced. -/
def received : LocalRetire P → Option (LocalResidual P)
  | prepared s => s.received
  | active s => s.received

/-- How the last call ended. -/
def status : LocalRetire P → CallStatus
  | prepared s => s.status
  | active s => s.status

/-- Everything the retirement carries. -/
def holdings (s : LocalRetire P) : Holdings P :=
  s.caller ++ s.environment ++ Holdings.ofResidual s.received

end LocalRetire

/-! ## The interpreter -/

section Interpreter

variable {received : Option (CapabilityRetirement P)}

/-- The lanes that a retirement has acquired; they begin empty. -/
def CapabilityRetirement.lane (received : Option (CapabilityRetirement P)) :
    CapabilityRetirement P :=
  received.getD ⟨[], ⟨[], []⟩, .noFailuresFound, .clear, none, []⟩

/-- What a poll brings from the children: their results, their failures, and the panics that are
caught when all of them are gone. -/
structure Gains (P : ActorPort) where
  roots : List P.DescendantRoot
  failures : List P.DescendantFailure
  panics : List P.Payload

/-- The panics of a terminal report that is refused, and of the destructors. -/
def Capabilities.caught (owner : Capabilities P) (a : RetirementAnswer P)
    (publication : Option (Except P.Termination Unit)) (channel : Oneshot P.Termination) :
    List P.Payload :=
  let sent := owner.terminalReports.receiveRetirement channel publication
  if a.ready && a.bindings.isNone then
    (if sent.refused then [a.refusal] else []) ++
      if sent.reports.retirementComplete then a.disposal else []
  else []

/-- What a poll of the capabilities brings.  It reaches the children if it takes the tasks, or if an
earlier one has. -/
def Capabilities.gains (a : RetirementAnswer P) (owner : Option (Capabilities P))
    (received : Option (CapabilityRetirement P)) (channel : Oneshot P.Termination) :
    List (Gains P) :=
  match owner with
  | none => []
  | some owner =>
    if owner.activationTasks.isSome = received.isSome then []
    else
      [⟨a.roots, a.failures,
        owner.caught a (received.bind CapabilityRetirement.terminalReport) channel⟩]

/-- The lanes grow by the gains, in their order. -/
structure Grown (gs : List (Gains P)) (c c' : CapabilityRetirement P) : Prop where
  roots : c'.descendants.roots = c.descendants.roots ++ gs.flatMap Gains.roots
  failures : c'.descendants.failures = c.descendants.failures ++ gs.flatMap Gains.failures
  panics : c'.retirementFailures = c.retirementFailures ++ gs.flatMap Gains.panics
  terminal : c.terminalReport.isSome → c'.terminalReport = c.terminalReport

theorem Grown.refl (c : CapabilityRetirement P) : Grown [] c c := by
  constructor <;> simp

theorem Grown.trans {gs gs' : List (Gains P)} {c d e : CapabilityRetirement P}
    (h : Grown gs c d) (h' : Grown gs' d e) : Grown (gs ++ gs') c e where
  roots := by rw [h'.roots, h.roots, List.flatMap_append, List.append_assoc]
  failures := by rw [h'.failures, h.failures, List.flatMap_append, List.append_assoc]
  panics := by rw [h'.panics, h.panics, List.flatMap_append, List.append_assoc]
  terminal hc := by
    have hd := h.terminal hc
    rw [h'.terminal (hd ▸ hc), hd]

/-- What a poll of a retirement does: the tasks and what is known of failures stay, and the lanes
grow by the gains. -/
structure Polled (gs : List (Gains P)) (owner : Option (Capabilities P))
    (received : Option (CapabilityRetirement P)) (owner' : Option (Capabilities P))
    (received' : Option (CapabilityRetirement P)) : Prop where
  tasks : Capabilities.tasks owner' ++ CapabilityRetirement.tasks received' =
    Capabilities.tasks owner ++ CapabilityRetirement.tasks received
  operations : operations owner' received' = operations owner received
  lane : Grown gs (CapabilityRetirement.lane received) (CapabilityRetirement.lane received')

theorem Polled.refl (owner : Option (Capabilities P)) (received : Option (CapabilityRetirement P)) :
    Polled [] owner received owner received := ⟨rfl, rfl, .refl _⟩

/-- The children answered: the tasks were taken before, and the lanes grow. -/
theorem Capabilities.receiveChildren_polled (a : RetirementAnswer P)
    (channel : Oneshot P.Termination) (owner : Capabilities P) (c : CapabilityRetirement P)
    (howner : owner.activationTasks = none) :
    Polled [⟨a.roots, a.failures, owner.caught a c.terminalReport channel⟩] (some owner) (some c)
      (owner.receiveChildren a c channel).owner (owner.receiveChildren a c channel).received := by
  have hreport : c.terminalReport.isSome →
      (owner.terminalReports.receiveRetirement channel c.terminalReport).publication =
        c.terminalReport := fun h => by rw [LocalTerminalReports.receiveRetirement, if_pos h]
  have hnil : Capabilities.tasks (some owner) = [] := by simp [Capabilities.tasks, howner]
  unfold receiveChildren
  simp only
  split
  · next hready =>
    exact ⟨rfl, rfl, by constructor <;> simp_all [CapabilityRetirement.lane, caught]⟩
  · next hready =>
    have hready : a.ready = true := by simpa using hready
    split
    · next hbindings =>
      have hbindings : a.bindings.isNone = false := by simpa using hbindings
      exact ⟨rfl, rfl, by constructor <;> simp [CapabilityRetirement.lane, caught, hbindings]⟩
    · next hbindings =>
      have hbindings : a.bindings.isNone = true := by simpa using hbindings
      split
      · next hdone =>
        have hdone : (owner.terminalReports.receiveRetirement channel
            c.terminalReport).reports.retirementComplete = false := by simpa using hdone
        exact ⟨rfl, rfl, by simp [CapabilityRetirement.lane], by simp [CapabilityRetirement.lane],
          by simp [CapabilityRetirement.lane, caught, hready, hbindings, hdone], hreport⟩
      · next hdone =>
        have hdone : (owner.terminalReports.receiveRetirement channel
            c.terminalReport).reports.retirementComplete = true := by simpa using hdone
        exact ⟨by rw [hnil]; rfl, rfl, by simp [CapabilityRetirement.lane],
          by simp [CapabilityRetirement.lane],
          by simp [CapabilityRetirement.lane, caught, hready, hbindings, hdone], hreport⟩

theorem Capabilities.receiveRetirement_polled (a : RetirementAnswer P)
    (channel : Oneshot P.Termination) (owner : Option (Capabilities P)) :
    Polled (gains a owner received channel) owner received
      (Capabilities.receiveRetirement a owner received channel).owner
      (Capabilities.receiveRetirement a owner received channel).received := by
  rcases owner with _ | ⟨tasks, failures, bindings, reports⟩
  · exact .refl none received
  · cases tasks with
    | none =>
      cases received with
      | none => exact .refl _ none
      | some c => exact receiveChildren_polled a channel ⟨none, failures, bindings, reports⟩ c rfl
    | some tasks =>
      cases received with
      | some c => exact .refl _ (some c)
      | none =>
        -- the tasks move into lanes that are empty otherwise
        have h := receiveChildren_polled a channel ⟨none, failures, bindings, reports⟩
          (lanes ⟨some tasks, failures, bindings, reports⟩ tasks) rfl
        refine ⟨h.tasks.trans ?_, h.operations, h.lane.roots, h.lane.failures, h.lane.panics, nofun⟩
        simp [Capabilities.tasks, CapabilityRetirement.tasks, lanes]

theorem ActionInterpreter.receiveRetirement_polled (a : RetirementAnswer P)
    (channel : Oneshot P.Termination) (owner : Option (ActionInterpreter P)) :
    Polled (Capabilities.gains a (inside owner) received channel) (inside owner) received
      (inside (ActionInterpreter.receiveRetirement a owner received channel).owner)
      (ActionInterpreter.receiveRetirement a owner received channel).received := by
  cases owner with
  | none => exact .refl none received
  | some owner =>
    have h : Polled _ owner.capabilities received _ _ :=
      Capabilities.receiveRetirement_polled a channel owner.capabilities
    unfold receiveRetirement
    simp only
    split
    · rename_i hgone
      simp only [Bool.and_eq_true, isNone_iff_eq_none] at hgone
      rw [hgone.1.2] at h
      exact h
    · exact h

end Interpreter

/-! ## Closing the lanes -/

theorem unread_closed {receiver} {slot} (h : receiver.isSome → slot = none) :
    unread none (takeOwnerCancellation receiver slot) = unread receiver slot := by
  cases receiver with
  | none => rfl
  | some accepted =>
    rw [h rfl]
    cases accepted <;> rfl

/-- A drain that returns keeps what is in the mailbox. -/
theorem drained_closed {panics : Bool} {lanes : Option (Lanes P)} {retired : Option (Drained P)}
    (h : (drainIngress panics lanes retired).2.2 = true) :
    Lanes.drained (drainIngress panics lanes retired).1 (drainIngress panics lanes retired).2.1 =
      Lanes.drained lanes retired := by
  cases retired with
  | some => rfl
  | none =>
    cases lanes with
    | none => rfl
    | some unread =>
      obtain ⟨drained, hdrained⟩ := isSome_iff_exists.mp h
      have hkept : drained = unread.retained := by
        unfold Lanes.collectRetiredIngress at hdrained
        split at hdrained
        · cases hdrained
        · exact (some.inj hdrained).symm
      simp [drainIngress, hdrained, hkept, Lanes.drained]

theorem inbox_of_drain {panics : Bool} {lanes : Option (Lanes P)} {retired : Option (Drained P)}
    (h : retired.isSome → lanes = none) : (drainIngress panics lanes retired).1 = none := by
  cases retired with
  | some => exact h rfl
  | none => cases lanes <;> rfl

/-- A value goes from the caller's slot into the environment's, if that is empty. -/
theorem toList_moved {α : Type} (owned lent : Option α) :
    (if owned.isNone then none else lent).toList ++ (if owned.isNone then lent else owned).toList =
      lent.toList ++ owned.toList := by
  cases owned with
  | none => exact (List.append_nil _).symm
  | some => rfl

/-! ## The prepared environment -/

/-- The lanes as a residual keeps them. -/
def LocalResidual.capability (r : LocalResidual P) : CapabilityRetirement P where
  activationTasks := r.activationTasks
  descendants := r.descendants
  operationFailures := r.operationFailures
  descendantReport := r.descendantReport
  terminalReport := r.terminalReport
  retirementFailures := r.retirementFailures

namespace LocalEnvironment

/-- The slots that the operations of the environment leave occupied together: an unread request does
not stand beside its receiver, nor a drained mailbox beside its consumer, and a residual does not
stay. -/
structure Fits (e : LocalEnvironment P) : Prop where
  cancellation : e.ownerCancellation.isSome → e.unreadOwnerCancellation = none
  ingress : e.retiredIngress.isSome → e.consumer = none
  residual : e.residual = none

variable {e : LocalEnvironment P} {panics : Bool}

theorem beginRetirement_fits (h : e.Fits) : (e.beginRetirement panics).Fits :=
  ⟨nofun, fun _ => inbox_of_drain h.ingress, h.residual⟩

theorem beginRetirement_holdings (h : e.Fits)
    (hd : (drainIngress panics e.consumer e.retiredIngress).2.2 = true) :
    (e.beginRetirement panics).holdings = e.holdings := by
  have hdrained := drained_closed hd
  ext1
  case control => exact congrArg Drained.control hdrained
  case user => exact congrArg Drained.user hdrained
  case unreadOwnerCancellation => exact unread_closed h.cancellation
  all_goals rfl

/-- What `receive_retirement` brings, as it is called or polled again. -/
def gains (entering : Bool) (a : RetirementAnswer P) (channel : Oneshot P.Termination)
    (e : LocalEnvironment P) : List (Gains P) :=
  if entering && (e.residual.isSome ||
      !(drainIngress a.fencePanics e.consumer e.retiredIngress).2.2) then []
  else Capabilities.gains a (ActionInterpreter.inside e.interpreter) e.retirement channel

/-- What `receive_retirement` leaves, whether it is called or polled again: an environment that
holds what it held, or a residual that does. -/
inductive Receives (gs : List (Gains P)) (e : LocalEnvironment P) :
    LocalEnvironment P → CallStatus → Prop
  | stays {e' : LocalEnvironment P} {status : CallStatus} (fits : e'.Fits)
    (holdings : status ≠ .unwound → e'.holdings = e.holdings)
    (closed : status = .waiting → e'.ownerCancellation = none)
    (lane : Grown gs (.lane e.retirement) (.lane e'.retirement)) : Receives gs e e' status
  | ends {e' : LocalEnvironment P} {r : LocalResidual P} (residual : e'.residual = some r)
    (retired : e'.retired = true) (holdings : r.holdings = e.holdings)
    (lane : Grown gs (.lane e.retirement) r.capability) : Receives gs e e' .returned

theorem concludeRetirement_receives {gs} {e₀} (h : e.Fits)
    (hi : e.interpreter = none) (ho : e.ownerCancellation = none) (hh : e.holdings = e₀.holdings)
    (hl : Grown gs (.lane e₀.retirement) (.lane e.retirement)) :
    Receives gs e₀ e.concludeRetirement .returned := by
  unfold concludeRetirement
  simp only
  split
  · rename_i retirement ingress hr hg
    have hc : e.consumer = none := h.ingress (by rw [hg]; rfl)
    rw [hr] at hl
    refine .ends rfl (by simp [retired, hc, hi]) (Eq.trans ?_ hh) hl
    cases hinit : e.initialization <;>
      simp [holdings, LocalResidual.holdings, CapabilityRetirement.residual,
        CapabilityRetirement.tasks, Lanes.drained, operations, unread, Capabilities.tasks,
        ActionInterpreter.inside, ResidualPhase.interpretation, ResidualPhase.source,
        ResidualPhase.settlements, ho, hi, hr, hg, hc, hinit]
  · exact .stays ⟨h.cancellation, h.ingress, h.residual⟩ (fun _ => hh) nofun hl

theorem poll_receives (a : RetirementAnswer P) (channel : Oneshot P.Termination) (h : e.Fits)
    (ho : e.ownerCancellation = none) : e.Receives (e.gains false a channel)
      (e.pollRetirement a channel).1 (e.pollRetirement a channel).2.2 := by
  have hp : Polled (e.gains false a channel) (ActionInterpreter.inside e.interpreter) e.retirement
    _ _ := ActionInterpreter.receiveRetirement_polled a channel e.interpreter
  rw [pollRetirement]
  generalize ActionInterpreter.receiveRetirement a e.interpreter e.retirement channel = r at hp ⊢
  have hfits : Fits { e with interpreter := r.owner, retirement := r.received } :=
    ⟨h.cancellation, h.ingress, h.residual⟩
  have hheld : holdings { e with interpreter := r.owner, retirement := r.received } =
      e.holdings := by
    ext1
    case activationTasks => exact hp.tasks
    case operationFailures => exact hp.operations
    all_goals rfl
  simp only
  split
  · exact .stays hfits (fun _ => hheld) (fun _ => ho) hp.lane
  · split
    · exact .stays hfits (fun _ => hheld) nofun hp.lane
    · rename_i hgone
      exact concludeRetirement_receives hfits (by simpa using hgone) ho hheld hp.lane

theorem receiveRetirement_receives (entering : Bool) (a : RetirementAnswer P)
    (channel : Oneshot P.Termination) (h : e.Fits)
    (ho : entering = false → e.ownerCancellation = none) :
    e.Receives (e.gains entering a channel) (e.receiveRetirement entering a channel).1
      (e.receiveRetirement entering a channel).2.2 := by
  cases entering with
  | false => exact poll_receives a channel h (ho rfl)
  | true =>
    have hfits : (e.beginRetirement a.fencePanics).Fits := beginRetirement_fits h
    rw [receiveRetirement, gains, Bool.true_and, Bool.not_true, if_neg Bool.false_ne_true,
      h.residual, isSome_none, if_neg Bool.false_ne_true, Bool.false_or]
    cases hd : (drainIngress a.fencePanics e.consumer e.retiredIngress).2.2 with
    | false => exact .stays hfits (fun hn => absurd rfl hn) nofun (.refl _)
    | true =>
      have hheld := beginRetirement_holdings h hd
      have hrec := poll_receives a channel hfits rfl
      simp only [Bool.not_true, Bool.false_eq_true, if_false]
      generalize (e.beginRetirement a.fencePanics).pollRetirement a channel = r at hrec
      obtain ⟨e', channel', status⟩ := r
      cases hrec with
      | stays fits held closed lane =>
        exact .stays fits (fun hn => (held hn).trans hheld) closed lane
      | ends residual retired held lane => exact .ends residual retired (held.trans hheld) lane

end LocalEnvironment

/-- The lanes of the capability retirement, wherever they are. -/
def LocalRetire.lane : LocalRetire P → CapabilityRetirement P
  | prepared s =>
    s.environment.elim (.lane (s.received.map LocalResidual.capability)) (.lane ·.retirement)
  | active s =>
    s.environment.elim (.lane (s.received.map LocalResidual.capability)) (.lane ·.retirement)

/-- What one step of a retirement keeps, that brings the gains `gs`. -/
structure LocalRetire.Advances (gs : List (Gains P)) (s u : LocalRetire P) : Prop where
  holdings : u.status ≠ .unwound → u.holdings = s.holdings
  lane : Grown gs s.lane u.lane
  unfinished : u.received = none → s.received = none ∧ u.owned = s.owned
  finished : u.received.isSome → u.received = s.received ∧ u.owned = s.owned ∧ u.caller = s.caller ∨
    u.owned = false ∧ u.caller = .none

theorem LocalRetire.Advances.refl (s : LocalRetire P) : Advances [] s s :=
  ⟨fun _ => rfl, .refl _, fun hs => ⟨hs, rfl⟩, fun _ => .inl ⟨rfl, rfl, rfl⟩⟩

theorem LocalRetire.Advances.from {gs : List (Gains P)} {s t u : LocalRetire P}
    (h : Advances gs t u) (hholdings : t.holdings = s.holdings) (hlane : t.lane = s.lane)
    (howned : t.owned = s.owned) (ht : t.received = none) (hs : s.received = none) :
    Advances gs s u where
  holdings hu := (h.holdings hu).trans hholdings
  lane := hlane ▸ h.lane
  unfinished hu := ⟨hs, (h.unfinished hu).2.trans howned⟩
  finished hu :=
    (h.finished hu).elim (fun e => absurd hu (by rw [e.1, ht]; nofun)) .inr

namespace PreparedRetire

/-- The slots that a call finds and leaves. -/
structure Fits (s : PreparedRetire P) : Prop where
  environment : ∀ e, s.environment = some e → e.Fits
  suspended : s.status = .waiting → s.actions = none ∧ s.received = none ∧
    ∃ e, s.environment = some e ∧ e.ownerCancellation = none

/-- What a call brings. -/
def gains (a : RetirementAnswer P) (s : PreparedRetire P) : List (Gains P) :=
  match s.received, s.environment with
  | none, some e =>
    if s.actions.isSome && e.initialization.isSome then [] else e.gains true a s.channel
  | _, _ => []

variable {s : PreparedRetire P}

theorem resume_advances (entering : Bool) (a : RetirementAnswer P) (owner : LocalEnvironment P)
    (h : owner.Fits) (ho : entering = false → owner.ownerCancellation = none)
    (hactions : s.actions = none) (hrec : s.received = none) :
    (s.resume entering a owner).Fits ∧ LocalRetire.Advances (owner.gains entering a s.channel)
      (.prepared { s with environment := some owner }) (.prepared (s.resume entering a owner)) := by
  have hr := receiveRetirement_receives entering a s.channel h ho
  rw [resume]
  generalize owner.receiveRetirement entering a s.channel = r at hr ⊢
  obtain ⟨e, channel, status⟩ := r
  cases hr with
  | stays fits held closed lane =>
    simp only
    split
    · rename_i hres _
      rw [fits.residual] at hres
      cases hres
    · refine ⟨⟨by rintro _ ⟨⟩; exact fits, fun hw => ⟨hactions, hrec, e, rfl, closed hw⟩⟩,
        fun hn => congrArg (s.caller ++ · ++ Holdings.ofResidual s.received) (held hn), lane,
        fun _ => ⟨hrec, rfl⟩, fun hsome => ?_⟩
      simp [LocalRetire.received, hrec] at hsome
  | @ends residual hres hret held lane =>
    simp only
    rw [hres, hret]
    refine ⟨⟨fun _ hn => absurd hn.symm (some_ne_none _), nofun⟩, fun _ => ?_, lane,
      fun hn => absurd hn (some_ne_none residual), fun _ => .inr ⟨rfl, ?_⟩⟩
    · show s.caller ++ Holdings.none ++ residual.holdings = s.caller ++ owner.holdings ++ _
      rw [held, hrec, Holdings.append_none]
      exact (Holdings.append_none _).symm
    · simp [LocalRetire.caller, caller, hactions, Holdings.none]

theorem Fits.call_advances (h : s.Fits) (a : RetirementAnswer P) :
    (s.call a).Fits ∧ LocalRetire.Advances (s.gains a) (.prepared s) (.prepared (s.call a)) := by
  have hstay : s.Fits ∧ LocalRetire.Advances [] (.prepared s) (.prepared s) := ⟨h, .refl _⟩
  unfold call gains
  cases hrec : s.received with
  | some => exact hstay
  | none =>
    cases he : s.environment with
    | none => exact hstay
    | some owner =>
      have howner := h.environment owner he
      cases hactions : s.actions with
      | none =>
        have hsame : { s with environment := some owner } = s := by rw [← he]
        have hadv := resume_advances (s := s) true a owner howner nofun hactions hrec
        rw [hsame] at hadv
        exact hadv
      | some actions =>
        cases hinit : owner.initialization with
        | some =>
          simp only [isSome_some, hinit, Bool.true_or, Bool.true_and, if_true,
            isSome_none, Bool.false_eq_true, if_false]
          exact hstay
        | none =>
          obtain ⟨hfits, hadv⟩ := resume_advances (s := { s with actions := none }) true a
            { owner with initialization := some (.original actions) }
            ⟨howner.cancellation, howner.ingress, howner.residual⟩ nofun rfl hrec
          have hfree : ¬(owner.initialization.isSome || owner.residual.isSome) = true := by
            simp [hinit, howner.residual]
          have hnone : ¬((some actions).isSome && owner.initialization.isSome) = true := by
            simp [hinit]
          simp only [isSome_none, Bool.false_eq_true, if_false]
          rw [if_neg hfree, if_neg hnone]
          rw [he, hrec] at hfits hadv
          refine ⟨hfits, hadv.from (s := .prepared s) ?_ ?_ ?_ rfl hrec⟩
          · have hs : LocalRetire.received (.prepared s) = none := hrec
            rw [LocalRetire.holdings, LocalRetire.holdings, hs]
            refine congrArg (· ++ Holdings.ofResidual none) ?_
            simp only [LocalRetire.environment, he, elim_some]
            ext1
            case interpretation =>
              show [] ++ [InterpretationProgress.original actions] =
                s.actions.toList.map .original ++ owner.initialization.toList
              rw [hactions, hinit]
              rfl
            all_goals rfl
          · simp only [LocalRetire.lane, he, elim_some]
          · simp [LocalRetire.owned, he]

end PreparedRetire

/-! ## The live environment -/

/-- The slots of a live environment that its operations leave occupied together. -/
structure ActiveLocalEnvironment.Fits (e : ActiveLocalEnvironment P) : Prop where
  cancellation : e.ownerCancellation.isSome → e.unreadOwnerCancellation = none
  inbox : e.retiredIngress.isSome → e.inbox = none

/-- The lanes of a live environment are closed. -/
structure ActiveLocalEnvironment.Closed (e : ActiveLocalEnvironment P) : Prop where
  ownerCancellation : e.ownerCancellation = none
  inbox : e.inbox = none

theorem ActiveLocalEnvironment.Closed.fits {e : ActiveLocalEnvironment P} (h : e.Closed) : e.Fits :=
  ⟨fun hsome => by simp [h.ownerCancellation] at hsome, fun _ => h.inbox⟩

namespace ActiveRetire

/-- The caller has given away what it had, apart from the settlements. -/
structure Surrendered (s : ActiveRetire P) : Prop where
  actions : s.actions = none
  interpretation : s.interpretation = none
  source : s.source = none
  sourceIndex : s.sourceIndex = none
  ingress : s.ingress = none
  received : s.received = none

/-- The slots that a call finds and leaves. -/
structure Fits (s : ActiveRetire P) : Prop where
  environment : ∀ e, s.environment = some e → e.Fits
  suspended : s.status = .waiting → s.Surrendered ∧ ∃ e, s.environment = some e ∧ e.Closed

/-- What a call brings. -/
def gains (a : RetirementAnswer P) (s : ActiveRetire P) : List (Gains P) :=
  match s.received, s.environment, s.settlements with
  | none, some e, some _ =>
    if s.coexist e || !(drainIngress a.fencePanics e.inbox e.retiredIngress).2.2 then []
    else Capabilities.gains a (ActionInterpreter.inside e.interpreter) e.retirement s.channel
  | _, _, _ => []

variable {s : ActiveRetire P}

theorem resume_advances (a : RetirementAnswer P) (owner : ActiveLocalEnvironment P)
    {settlements : List P.Settlement} (h : owner.Closed) (hs : s.Surrendered)
    (hsett : s.settlements = some settlements) : (s.resume a owner settlements).Fits ∧
      LocalRetire.Advances
        (Capabilities.gains a (ActionInterpreter.inside owner.interpreter)
          owner.retirement s.channel)
        (.active { s with environment := some owner })
        (.active (s.resume a owner settlements)) := by
  have hp : Polled _ _ owner.retirement _ _ :=
    ActionInterpreter.receiveRetirement_polled a s.channel owner.interpreter
  rw [resume]
  generalize ActionInterpreter.receiveRetirement a owner.interpreter owner.retirement s.channel = r
    at hp ⊢
  have hheld : ActiveLocalEnvironment.holdings
      { owner with interpreter := r.owner, retirement := r.received } = owner.holdings := by
    ext1
    case activationTasks => exact hp.tasks
    case operationFailures => exact hp.operations
    all_goals rfl
  have hkept : ∀ (e : ActiveLocalEnvironment P) (channel : Oneshot P.Termination)
      (status : CallStatus), e.holdings = owner.holdings → e.retirement = r.received → e.Closed →
      ActiveRetire.Fits { s with environment := some e, channel := channel, status := status } ∧
      LocalRetire.Advances
        (Capabilities.gains a (ActionInterpreter.inside owner.interpreter)
          owner.retirement s.channel)
        (.active { s with environment := some owner })
        (.active { s with environment := some e, channel := channel, status := status }) := by
    intro e channel status he hret hclosed
    refine ⟨⟨?_, fun _ => ⟨⟨hs.actions, hs.interpretation, hs.source, hs.sourceIndex, hs.ingress,
      hs.received⟩, e, rfl, hclosed⟩⟩,
      fun _ => congrArg (s.caller ++ · ++ Holdings.ofResidual s.received) he, ?_,
      fun _ => ⟨hs.received, rfl⟩, fun hsome =>
        by simp [LocalRetire.received, hs.received] at hsome⟩
    · rintro _ ⟨⟩
      exact hclosed.fits
    · have hgrown := hp.lane
      rw [← hret] at hgrown
      exact hgrown
  simp only
  split
  · exact hkept _ _ _ hheld rfl ⟨h.ownerCancellation, h.inbox⟩
  · split
    · exact hkept _ _ _ hheld rfl ⟨h.ownerCancellation, h.inbox⟩
    · rename_i hgone
      split
      · rename_i retirement ingress hret hingress
        simp only [not_isSome_iff_eq_none] at hgone hret hingress
        refine ⟨⟨fun _ hn => absurd hn.symm (some_ne_none _), nofun⟩, fun _ => ?_, ?_,
          fun hn => absurd hn (some_ne_none _), fun _ => .inr ⟨rfl, ?_⟩⟩
        · show _ = s.caller ++ owner.holdings ++ Holdings.ofResidual s.received
          rw [← hheld, hs.received]
          show Holdings.append (Holdings.append _ _) _ = Holdings.append (Holdings.append _ _) _
          simp [Holdings.append, Holdings.ofResidual, Holdings.none, LocalRetire.caller, caller,
            LocalRetire.environment, LocalRetire.received, LocalResidual.holdings, residualOf,
            CapabilityRetirement.residual, ActiveLocalEnvironment.holdings,
            CapabilityRetirement.tasks, Lanes.drained, operations, unread, Capabilities.tasks,
            ActionInterpreter.inside, ResidualPhase.interpretation, ResidualPhase.source,
            ResidualPhase.settlements, hs.actions, hs.interpretation, hs.source, hs.sourceIndex,
            hs.ingress, hsett, h.ownerCancellation, h.inbox, hgone, hret, hingress]
        · have hgrown := hp.lane
          rw [hret] at hgrown
          exact hgrown
        · simp [LocalRetire.caller, caller, Holdings.none, hs.actions, hs.interpretation, hs.source,
            hs.sourceIndex, hs.ingress]
      · exact hkept _ _ _ hheld rfl ⟨h.ownerCancellation, h.inbox⟩

/-- No kind of original is in both places. -/
structure Apart (s : ActiveRetire P) (owner : ActiveLocalEnvironment P) : Prop where
  interpretation : (owner.interpretation.isSome && s.actions.isSome) = false
  receivedInterpretation : (owner.receivedInterpretation.isSome && s.interpretation.isSome) = false
  receivedSource : (owner.receivedSource.isSome && s.source.isSome) = false
  sourceIndex : (owner.sourceIndex.isSome && s.sourceIndex.isSome) = false
  acquiredIngress : (owner.acquiredIngress.isSome && s.ingress.isSome) = false

variable {owner : ActiveLocalEnvironment P}

theorem apart_of_coexist (h : s.coexist owner = false) : s.Apart owner := by
  simp only [coexist, Bool.or_eq_false_iff] at h
  obtain ⟨⟨⟨⟨h1, h2⟩, h3⟩, h4⟩, h5⟩ := h
  exact ⟨h1, h2, h3, h4, h5⟩

theorem admit_holdings {panics : Bool} (h : s.Apart owner) (hf : owner.Fits)
    (hd : (drainIngress panics owner.inbox owner.retiredIngress).2.2 = true) :
    (s.surrendered owner).caller ++ (s.receive panics owner).holdings =
      s.caller ++ owner.holdings := by
  have hdrained := drained_closed hd
  ext1
  case interpretation =>
    have hi := h.interpretation
    show (if s.actions.isSome then s.actions.map InterpretationProgress.original
      else owner.interpretation).toList =
      s.actions.toList.map .original ++ owner.interpretation.toList
    cases hactions : s.actions with
    | none => rfl
    | some =>
      rw [hactions] at hi
      have hnone : owner.interpretation = none := by simpa using hi
      rw [hnone]
      rfl
  case receivedInterpretation => exact toList_moved _ _
  case receivedSource => exact toList_moved _ _
  case sourceIndex => exact toList_moved _ _
  case acquiredIngress => exact toList_moved _ _
  case control => exact congrArg Drained.control hdrained
  case user => exact congrArg Drained.user hdrained
  case unreadOwnerCancellation => exact unread_closed hf.cancellation
  all_goals rfl

theorem surrendered_of_apart (h : s.Apart owner)
    (hr : s.received = none) : (s.surrendered owner).Surrendered := by
  have hgiven : ∀ {α : Type} {owned lent : Option α}, (owned.isSome && lent.isSome) = false →
      (if owned.isNone then none else lent) = none := by
    intro α owned lent hno
    cases owned <;> cases lent <;> first | rfl | cases hno
  exact ⟨rfl, hgiven h.receivedInterpretation, hgiven h.receivedSource, hgiven h.sourceIndex,
    hgiven h.acquiredIngress, hr⟩

theorem Fits.call_advances (h : s.Fits) (a : RetirementAnswer P) :
    (s.call a).Fits ∧ LocalRetire.Advances (s.gains a) (.active s) (.active (s.call a)) := by
  have hstay : s.Fits ∧ LocalRetire.Advances [] (.active s) (.active s) := ⟨h, .refl _⟩
  unfold call gains
  cases hrec : s.received with
  | some => exact hstay
  | none =>
    cases he : s.environment with
    | none => exact hstay
    | some owner =>
      cases hsett : s.settlements with
      | none => exact hstay
      | some =>
        cases hguard : s.coexist owner with
        | true =>
          simp only [isSome_none, Bool.false_eq_true, if_false, hguard, if_true, Bool.true_or]
          exact hstay
        | false =>
          have hapart := apart_of_coexist hguard
          have hfits := h.environment owner he
          have hclosed : (s.receive a.fencePanics owner).Closed := ⟨rfl, inbox_of_drain hfits.inbox⟩
          have hsurrendered := surrendered_of_apart hapart hrec
          have hlane : CapabilityRetirement.lane owner.retirement =
              LocalRetire.lane (.active s) := by
            rw [LocalRetire.lane, he]
            rfl
          have howned : true = LocalRetire.owned (.active s) := by
            show true = s.environment.isSome
            rw [he]
            rfl
          simp only [isSome_none, Bool.false_eq_true, if_false, hguard, Bool.false_or]
          split
          · rename_i hd
            refine ⟨⟨?_, nofun⟩, fun hn => absurd rfl hn, ?_, fun _ => ⟨hrec, howned⟩,
              fun hsome => by simp [LocalRetire.received, surrendered, hrec] at hsome⟩
            · rintro _ ⟨⟩
              exact hclosed.fits
            · rw [← hlane]
              exact .refl _
          · rename_i hd
            obtain ⟨hfits', hadv⟩ := resume_advances (s := s.surrendered owner) a
              (s.receive a.fencePanics owner) hclosed hsurrendered hsett
            refine ⟨hfits', hadv.from ?_ hlane howned hrec hrec⟩
            show (s.surrendered owner).caller ++ (s.receive a.fencePanics owner).holdings ++ _ =
              s.caller ++ _ ++ _
            rw [admit_holdings hapart hfits (by simpa using hd), LocalRetire.environment, he]
            rfl

end ActiveRetire

/-! ## Whole retirements -/

namespace LocalRetire

/-- The slots that calls find and leave. -/
def Fits : LocalRetire P → Prop
  | prepared s => s.Fits
  | active s => s.Fits

/-- What an operation brings from the children.  A call or a poll that does not reach them brings
nothing. -/
def gains : LocalRetire P → RetireOp P → List (Gains P)
  | prepared s, .call a => s.gains a
  | prepared s, .poll a => s.environment.elim [] fun e => e.gains false a s.channel
  | active s, .call a => s.gains a
  | active s, .poll a => s.environment.elim [] fun e =>
    Capabilities.gains a (ActionInterpreter.inside e.interpreter) e.retirement s.channel
  | _, .drop => []

variable {s u : LocalRetire P} {op : RetireOp P}

theorem step_advances (h : s.Fits) (hstep : s.step op = some u) :
    u.Fits ∧ Advances (s.gains op) s u := by
  cases op with
  | call a =>
    cases s with
    | prepared s | active s =>
      rw [step] at hstep
      split at hstep
      · cases hstep
      · cases hstep
        let t := { s with status := .returned }
        have ht : t.Fits := ⟨h.environment, nofun⟩
        obtain ⟨hfits, hadv⟩ := ht.call_advances a
        exact ⟨hfits, hadv.holdings, hadv.lane, hadv.unfinished, hadv.finished⟩
  | poll a =>
    cases s with
    | prepared s =>
      rw [step] at hstep
      split at hstep
      · rename_i owner hwaiting he
        cases hstep
        obtain ⟨hactions, hrec, _, he', hclosed⟩ := h.suspended hwaiting
        obtain rfl := some.inj (he.symm.trans he')
        have hadv := PreparedRetire.resume_advances (s := s) false a owner
          (h.environment owner he) (fun _ => hclosed) hactions hrec
        rw [show { s with environment := some owner } = s by rw [← he]] at hadv
        rw [gains, he]
        exact hadv
      · cases hstep
    | active s =>
      rw [step] at hstep
      split at hstep
      · rename_i owner settlements hwaiting he hsett
        cases hstep
        obtain ⟨hsurrendered, _, he', hclosed⟩ := h.suspended hwaiting
        obtain rfl := some.inj (he.symm.trans he')
        have hadv := ActiveRetire.resume_advances a owner hclosed hsurrendered hsett
        rw [show { s with environment := some owner } = s by rw [← he]] at hadv
        rw [gains, he]
        exact hadv
      · cases hstep
  | drop =>
    cases s with
    | prepared | active =>
      rw [step] at hstep
      split at hstep
      · cases hstep
        exact ⟨⟨h.environment, nofun⟩, fun _ => rfl, .refl _, fun hs => ⟨hs, rfl⟩,
          fun _ => .inl ⟨rfl, rfl, rfl⟩⟩
      · cases hstep

abbrev History (P : ActorPort) := List (Transition (LocalRetire P) (RetireOp P))

/-- **The custody of a retirement.**  It came from `s₀` to `s` by the calls, polls and drops of
`tr`. -/
structure Custody (s₀ : LocalRetire P) (tr : History P) (s : LocalRetire P) : Prop where
  /-- No value is lost, overwritten or doubled, in whichever slot it is. -/
  conserves : s.holdings = s₀.holdings
  /-- The results of the children and the failures go to the end of their lanes, exactly those that
  the calls and polls brought, in their order, and what is there stays. -/
  lanes : Grown (tr.flatMap fun x => x.source.gains x.input) s₀.lane s.lane
  /-- Without a residual everything is in the caller's slots or in the environment, which is
  there. -/
  unfinished : s.received = none → s.owned = true ∧ s.holdings = s.caller ++ s.environment
  /-- A residual holds everything, and the environment and the caller's slots are empty. -/
  finished : ∀ r, s.received = some r →
    s.owned = false ∧ s.caller = .none ∧ s.holdings = r.holdings ∧ s.lane = r.capability

theorem lane_of_received {r} (hr : s.received = some r)
    (ho : s.owned = false) : s.lane = r.capability := by
  cases s with
  | prepared s | active s =>
    have he : s.environment = none := by simpa [owned] using ho
    have hr : s.received = some r := hr
    simp [lane, he, hr, CapabilityRetirement.lane]

theorem environment_of_not_owned (ho : s.owned = false) : s.environment = .none := by
  cases s with
  | prepared s | active s =>
    have he : s.environment = none := by simpa [owned] using ho
    simp [environment, he]

variable {s₀ : LocalRetire P} {tr : History P}

theorem custody_run (h : s₀.Fits) (ho : s₀.owned = true) (hr : s₀.received = none)
    (hrun : Run step s₀ tr s) (hcalm : ∀ x ∈ tr, x.target.status ≠ .unwound) :
    s.Fits ∧ s.holdings = s₀.holdings ∧
      Grown (tr.flatMap fun x => x.source.gains x.input) s₀.lane s.lane ∧
      (s.received = none → s.owned = true) ∧
      (s.received.isSome → s.owned = false ∧ s.caller = .none) := by
  refine hrun.historyOn hcalm ⟨h, rfl, .refl _, fun _ => ho, fun hsome => by simp [hr] at hsome⟩ ?_
  rintro tr t op u _ ⟨ht, hheld, hgrown, hun, hfin⟩ hcalm hstep
  obtain ⟨hu, hadv⟩ := step_advances ht hstep
  refine ⟨hu, (hadv.holdings hcalm).trans hheld, ?_, ?_, ?_⟩
  · rw [List.flatMap_append, List.flatMap_singleton]
    exact hgrown.trans hadv.lane
  · intro hnone
    obtain ⟨htnone, howned⟩ := hadv.unfinished hnone
    exact howned.trans (hun htnone)
  · intro hsome
    rcases hadv.finished hsome with ⟨hrec, howned, hcaller⟩ | hdone
    · rw [howned, hcaller]
      exact hfin (hrec ▸ hsome)
    · exact hdone

/-- **The custody of a retirement, over any number of calls, polls and drops**, as long as no waker
of a fence panics while the mailbox is drained. -/
theorem retirement_custody {s₀ s : LocalRetire P} {tr : History P} (h : s₀.Fits)
    (ho : s₀.owned = true) (hr : s₀.received = none) (hrun : Run step s₀ tr s)
    (hcalm : ∀ x ∈ tr, x.target.status ≠ .unwound) : Custody s₀ tr s := by
  obtain ⟨_, hheld, hlanes, hun, hfin⟩ := custody_run h ho hr hrun hcalm
  refine ⟨hheld, hlanes, fun hnone => ⟨hun hnone, ?_⟩, fun r hsome => ?_⟩
  · rw [holdings, hnone]
    exact Holdings.append_none _
  · obtain ⟨howned, hcaller⟩ := hfin (by rw [hsome]; rfl)
    refine ⟨howned, hcaller, ?_, lane_of_received hsome howned⟩
    rw [holdings, hcaller, environment_of_not_owned howned, hsome]
    rfl

end LocalRetire

/-! ## Retirements of three environments -/

/-- A live environment whose slots are occupied, but for those of the caller: two tasks run, the
mailbox is not empty, and the owner's request was not read. -/
def published : ActiveLocalEnvironment numberActor where
  inbox := some ⟨[7], [8, 9]⟩
  admission := true
  controlLiveness := true
  interpreter := some ⟨some ⟨some [1, 2], .noFailuresFound, some 0, .new⟩⟩
  ownerCancellation := some true
  publication := some .published
  lease := true
  interpretation := none
  source := some (.original 10)
  receivedInterpretation := none
  receivedSource := none
  sourceIndex := none
  acquiredIngress := none
  retirement := none
  retiredIngress := none
  unreadOwnerCancellation := none

/-- Its retirement, with originals of every kind in the caller's slots. -/
def publishedRetire : ActiveRetire numberActor where
  environment := some published
  actions := some 3
  interpretation := some (.complete 4)
  source := some (.retained 5)
  sourceIndex := some 6
  ingress := some (.cont (some 12))
  settlements := some [13, 14]
  received := none
  channel := .new
  status := .returned

/-- The registry of the children is still there, and a root was received. -/
def childrenPending : RetirementAnswer numberActor :=
  ⟨false, some 1, [20], [], .clear, 0, [], false⟩

/-- All children are gone. -/
def childrenGone : RetirementAnswer numberActor := ⟨true, none, [21], [22], .clear, 0, [], false⟩

/-- The first call is dropped where it waits for the children; the second one ends. -/
theorem retirement_custody_published :
    ∃ tr s r, Run LocalRetire.step (.active publishedRetire) tr s ∧ s.received = some r ∧
      r.descendants.roots = [20, 21] ∧ LocalRetire.Custody (.active publishedRetire) tr s := by
  have h : ((exec LocalRetire.step (.active publishedRetire)
      [.call childrenPending, .drop, .call childrenGone]).map fun p =>
        (p.2.received.map fun r => r.descendants.roots,
          p.1.all fun x => decide (x.target.status ≠ .unwound))) = some (some [20, 21], true) := rfl
  obtain ⟨⟨tr, s⟩, hexec, heq⟩ := map_eq_some_iff.mp h
  obtain ⟨heq, hcalm⟩ := Prod.mk.inj heq
  obtain ⟨r, hr, hroots⟩ := map_eq_some_iff.mp heq
  refine ⟨tr, s, r, exec_run hexec, hr, hroots, LocalRetire.retirement_custody ⟨?_, nofun⟩ rfl rfl
    (exec_run hexec) fun x hx => of_decide_eq_true (List.all_eq_true.mp hcalm x hx)⟩
  rintro _ ⟨⟩
  exact ⟨fun _ => rfl, nofun⟩

/-- A prepared environment that has reserved its address and was refused by its creator. -/
def refusedRetire : PreparedRetire numberActor where
  environment := some { prepare false with
    reservation := true
    activationRejection := some .bindingAbandoned }
  actions := some 3
  received := none
  channel := .new
  status := .returned

/-- A number that is zero is a fence. -/
abbrev fencedActor : ActorPort :=
  { numberActor with retainAtRetirement := fun n => if n = 0 then none else some n }

/-- A prepared environment with a fence and a message in its mailbox. -/
def fencedRetire : PreparedRetire fencedActor where
  environment := some { prepare false with consumer := some ⟨[7], [0, 8]⟩ }
  actions := none
  received := none
  channel := .new
  status := .returned

/-- The lease of a live environment, the reservation of a prepared one and the refusal of its
activation have no place in a residual: the call that produces it drops them.  If the waker of a
fence panics, what was unread in the mailbox is lost, and no residual is produced. -/
theorem standard_owners_are_dropped :
    (∃ tr s, Run LocalRetire.step (.active publishedRetire) tr s ∧
      publishedRetire.environment.map ActiveLocalEnvironment.lease = some true ∧
      s.owned = false ∧ s.received.isSome = true) ∧
    (∃ tr s, Run LocalRetire.step (.prepared refusedRetire) tr s ∧
      refusedRetire.environment.map reservation = some true ∧
      refusedRetire.environment.map (fun e => e.activationRejection.isSome) = some true ∧
      s.owned = false ∧ s.received.isSome = true) ∧
    ∃ tr s, Run LocalRetire.step (.prepared fencedRetire) tr s ∧
      (LocalRetire.holdings (.prepared fencedRetire)).user = [8] ∧ s.holdings.user = [] ∧
      s.received.isSome = false := by
  have hactive : ((exec LocalRetire.step (.active publishedRetire) [.call childrenGone]).map
      fun p => (p.2.owned, p.2.received.isSome)) = some (false, true) := rfl
  have hprepared : ((exec LocalRetire.step (.prepared refusedRetire) [.call childrenGone]).map
      fun p => (p.2.owned, p.2.received.isSome)) = some (false, true) := rfl
  have hfenced : ((exec LocalRetire.step (.prepared fencedRetire)
      [.call ⟨true, none, [], [], .clear, 0, [], true⟩]).map fun p =>
        (p.2.holdings.user, p.2.received.isSome)) = some ([], false) := rfl
  obtain ⟨⟨tr, s⟩, hexec, heq⟩ := map_eq_some_iff.mp hactive
  obtain ⟨⟨tr', s'⟩, hexec', heq'⟩ := map_eq_some_iff.mp hprepared
  obtain ⟨⟨tr'', s''⟩, hexec'', heq''⟩ := map_eq_some_iff.mp hfenced
  simp only [Prod.mk.injEq] at heq heq' heq''
  exact ⟨⟨tr, s, exec_run hexec, rfl, heq⟩, ⟨tr', s', exec_run hexec', rfl, rfl, heq'⟩,
    tr'', s'', exec_run hexec'', rfl, heq''⟩

end Local
