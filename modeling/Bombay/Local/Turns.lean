import Bombay.Engine.Shape
import Bombay.Local.Execution

/-!
# The turns of an actor and its driver

A turn begins when the environment is given the actions of a fold, and it is over when the driver
has classified what came of them.  `lastTurn` reads the turn that was begun last, with what was
reported in it, off the history of an actor.  The driver knows nothing of reports: it keeps the
decision of the turn, the product, and in the end the reason for which it retires.  `Rests` says how
these go with the outcome that is selected, and `Rests.drives` that the driver's own steps, which
`drives_of_moves` sums up, keep it that way.
-/

set_option autoImplicit false

namespace Local

open Machine Engine Option Driver

variable {P : ActorPort}

/-! ## The driver between the operations -/

/-- What a step of the driver does to its verdict, to the product of a turn and to the decision that
came with it, while the environment is in its slot. -/
inductive Drives (d d' : Driver P.port) : Prop
  | same (hd : d'.disposition = d.disposition) (hi : d'.interpretation = d.interpretation)
      (hc : d'.decision = d.decision) (ha : d'.actions = d.actions)
  /-- The driver ends, but not because it was told to stop. -/
  | ends (hd : d'.disposition = d.disposition ∧ d.disposition.isSome ∨
      ∃ e, d'.disposition = some e ∧ e ≠ .ok .stopped)
  /-- The product is classified, and the turn continues. -/
  | continued (hi : d.interpretation.isSome) (hc : d.decision = some .cont)
      (hd : d'.disposition = d.disposition) (hi' : d'.interpretation = none)
      (ha : d'.actions = d.actions)
  /-- The product is classified, and the turn stops the actor. -/
  | stopped (hi : d.interpretation.isSome) (hc : d.decision = some .stop)
      (hd : d'.disposition = if d.disposition.isNone then some (.ok .stopped) else d.disposition)
  /-- A turn has decided. -/
  | decided (a : P.Actions) (hd : d'.disposition = d.disposition) (hi : d.interpretation = none)
      (hi' : d'.interpretation = none) (ha : d'.actions = some a)
      (hc : d'.decision = some (P.port.decision a))

variable {d : Driver P.port}

theorem verdict_ok {status} {decision}
    (h : d.verdict status = .ok decision) : d.decision = some decision := by
  have hof : verdict.ofDecision (P := P.port) d.decision = .ok decision →
      d.decision = some decision := by
    intro ho
    cases hd : d.decision with
    | none => rw [hd] at ho; cases ho
    | some => rw [hd] at ho; cases ho; rfl
  unfold verdict at h
  split at h
  · cases h
  · split at h
    · cases h
    · exact hof h
  · exact hof h

variable {d' : Driver P.port}

theorem Drives.rejectAll (es : List (DriverError P.port))
    (hd : d'.disposition = d.disposition) (hi : d'.interpretation = d.interpretation)
    (hc : d'.decision = d.decision) (ha : d'.actions = d.actions) : Drives d (d'.rejectAll es) := by
  rw [rejectAll_eq]
  cases es with
  | nil =>
    refine .same ?_ hi hc ha
    rw [← hd]
    cases d'.disposition <;> rfl
  | cons e =>
    refine .ends ?_
    cases hn : d'.disposition with
    | some => exact .inl ⟨hn.symm.trans hd, by rw [← hd, hn]; rfl⟩
    | none => exact .inr ⟨.error e, rfl, nofun⟩

theorem Drives.reject (d : Driver P.port) (e : DriverError P.port)
    (hd : d'.disposition = d.disposition) : Drives d (d'.reject e) := by
  refine .ends ?_
  rw [Driver.reject]
  cases hn : d'.disposition with
  | some => exact .inl ⟨hn.symm.trans hd, by rw [← hd, hn]; rfl⟩
  | none => exact .inr ⟨.error e, rfl, by simp⟩

theorem Drives.complete (d : Driver P.port) (e : Completion (LocalRetirementRequest P))
    (he : e ≠ .stopped) (hd : d'.disposition = d.disposition) : Drives d (d'.complete e) := by
  refine .ends ?_
  rw [Driver.complete]
  cases hn : d'.disposition with
  | some => exact .inl ⟨hn.symm.trans hd, by rw [← hd, hn]; rfl⟩
  | none => exact .inr ⟨.ok e, rfl, fun heq => he (Except.ok.inj heq)⟩

theorem gather_slots (d : Driver P.port) :
    d.gather.disposition = d.disposition ∧ d.gather.interpretation = d.interpretation ∧
      d.gather.decision = d.decision ∧ d.gather.actions = d.actions ∧
      d.gather.residual = d.residual := by
  unfold gather
  split <;> exact ⟨rfl, rfl, rfl, rfl, rfl⟩

/-- **What the driver does between the operations of its environment.** -/
theorem drives_of_moves {c c' : Config P.port} {i : Input P.port} (hs : Shape c.driver c.point)
    (h : Moves c i c') (hown : isOwn i c.point = true) :
    Drives c.driver c'.driver ∧ c'.driver.residual = c.driver.residual := by
  have hres : ∀ (d : Driver P.port) (es : List (DriverError P.port)),
      (d.rejectAll es).residual = d.residual := fun d es => by rw [rejectAll_eq]
  cases h with
  | again | malformedActivation | activated | unactivated | applied | malformedApply
  | dropRetire | dropActivate | dropOffer | dropNextSource | dropNext | dropApply => cases hown
  | retired hp hl =>
    rename_i loan _
    rcases hp with rfl | rfl <;> cases loan <;> first | cases hown; done | cases hl
  | start | initialization | activate | classify | settle | surrender | retirePrepared | attempted
  | offerNext | answered | take | nextSource | sourceHeld | publish | next | ingressHeld
      | offerEnded
  | sourceEnded | sourceReady | published | nextEnded | nextReady | fold | deliver =>
    exact ⟨.same rfl rfl rfl rfl, rfl⟩
  | @retireActive d | @abandon d =>
    obtain ⟨hd, hi, hc, ha, hr⟩ := gather_slots d
    exact ⟨.same hd hi hc ha, hr⟩
  | malformedOffer | exhausted | retained | admitted | closed | disposed | sourceClosed
      | sourceFailed
  | nextFailed => exact ⟨.rejectAll _ rfl rfl rfl rfl, hres _ _⟩
  | uninitialized | condemned | inactive | sourceMissing | publishFailed | missing | unapplied
  | unfolded | unreadable => exact ⟨.reject _ _ rfl, rfl⟩
  | unpublished | ended | requested => exact ⟨.complete _ _ nofun rfl, rfl⟩
  | initialized _ a =>
    have hi := (hs.fresh hs.admits).interpretation
    exact ⟨.decided a rfl hi hi rfl rfl, rfl⟩
  | apply _ a =>
    have hi := (hs.live hs.admits).holds.2.1
    exact ⟨.decided a rfl hi hi rfl rfl, rfl⟩
  | stopped hi hv => exact ⟨.stopped (by rw [hi]; rfl) (verdict_ok hv) rfl, rfl⟩
  | continued hi hv => exact ⟨.continued (by rw [hi]; rfl) (verdict_ok hv) rfl rfl rfl, rfl⟩

/-! ## Turns -/

/-- The turn that was begun last: its actions, and what was reported in it so far. -/
abbrev Turn (P : ActorPort) : Type := Option (P.Actions × List P.Termination)

abbrev ExecutionHistory (P : ActorPort) := List (Transition (Execution P) (ExecutionOp P))

def nextTurn (turn : Turn P) (x : Transition (Execution P) (ExecutionOp P)) : Turn P :=
  match x.input with
  | .activate | .apply => x.source.config.driver.actions.map fun a => (a, [])
  | .commit answer => turn.map fun t => (t.1, t.2 ++ answer.reports)
  | _ => turn

def lastTurn (tr : ExecutionHistory P) : Turn P := tr.foldl nextTurn none

theorem lastTurn_snoc (tr : ExecutionHistory P) (x : Transition (Execution P) (ExecutionOp P)) :
    lastTurn (tr ++ [x]) = nextTurn (lastTurn tr) x := by
  rw [lastTurn, List.foldl_append]
  rfl

section Turn

variable {turn : Turn P} {d d' : Driver P.port} {sel : TerminationSelection P}

/-- What the decision of a turn makes of its reports. -/
def dispositionOf (a : P.Actions) : TerminalReportDisposition :=
  terminalDisposition.ofStep (P.become_ a)

/-- The turn is being committed: what was reported is selected. -/
def Committing (turn : Turn P) (d : Driver P.port) (sel : TerminationSelection P)
    (disposition : TerminalReportDisposition) : Prop :=
  ∃ a reports, turn = some (a, reports) ∧ d.decision = some (P.port.decision a) ∧
    disposition = dispositionOf a ∧ sel = .ofReports reports

/-- The turn was committed: its reports are kept if it stops the actor. -/
def Committed (turn : Turn P) (d : Driver P.port) (sel : TerminationSelection P) : Prop :=
  ∃ a reports, turn = some (a, reports) ∧ d.decision = some (P.port.decision a) ∧
    sel = (TerminationSelection.ofReports reports).finish (dispositionOf a)

/-- What is known of the selection while the driver works. -/
structure Rests (turn : Turn P) (d : Driver P.port) (sel : TerminationSelection P) : Prop where
  /-- The actor was stopped by its last turn, whose reports were kept. -/
  stopped : d.disposition = some (.ok .stopped) →
    ∃ a reports, turn = some (a, reports) ∧ P.become_ a = .stop ∧ sel = .ofReports reports
  /-- The product of the last turn is not classified yet. -/
  committed : d.disposition = none → d.interpretation.isSome → Committed turn d sel
  /-- Between turns nothing is selected. -/
  idle : d.disposition = none → d.interpretation = none → sel = .unselected
  actions : d.disposition = none → ∀ a, d.actions = some a →
    d.decision = some (P.port.decision a) ∧ d.interpretation = none

theorem Rests.of_ended {v} (hd : d.disposition = some v)
    (hv : v ≠ .ok .stopped) : Rests turn d sel where
  stopped h := absurd (some.inj (hd.symm.trans h)) hv
  committed h := by simp [hd] at h
  idle h := by simp [hd] at h
  actions h := by simp [hd] at h

theorem Rests.of_same (h : Rests turn d sel) (hsome : d.disposition.isSome)
    (hd : d'.disposition = d.disposition) : Rests turn d' sel where
  stopped hs := h.stopped (hd.symm.trans hs)
  committed hn := by simp [hd ▸ hn] at hsome
  idle hn := by simp [hd ▸ hn] at hsome
  actions hn := by simp [hd ▸ hn] at hsome

/-- The decision that a turn has as a step. -/
def stepOf : ActionDecision → Step
  | .cont => .cont
  | .stop => .stop

theorem become_of_decision {a : P.Actions} {x}
    (h : d.decision = some (P.port.decision a)) (hx : d.decision = some x) :
    P.become_ a = stepOf x := by
  obtain rfl : P.port.decision a = x := some.inj (h.symm.trans hx)
  change P.become_ a = stepOf (ActionDecision.fromStep (P.become_ a))
  cases P.become_ a <;> rfl

theorem Drives.open (h : Drives d d') (hn : d'.disposition = none) : d.disposition = none := by
  cases h with
  | same hd | continued _ _ hd | decided _ hd => exact hd.symm.trans hn
  | ends hd =>
    rcases hd with ⟨hd, _⟩ | ⟨e, he, _⟩
    · exact hd.symm.trans hn
    · cases he.symm.trans hn
  | stopped _ _ hd =>
    cases h : d.disposition with
    | none => rfl
    | some =>
      rw [h] at hd
      cases hd.symm.trans hn

/-- **What is known of the selection survives the driver's own steps.** -/
theorem Rests.drives (h : Rests turn d sel) (hd : Drives d d') : Rests turn d' sel := by
  cases hd with
  | same hd hi hc ha =>
    refine ⟨fun hs => h.stopped (hd.symm.trans hs), fun hn hsome => ?_,
      fun hn hnone => h.idle (hd.symm.trans hn) (hi.symm.trans hnone), fun hn a haa => ?_⟩
    · obtain ⟨a, reports, ht, hdec, hsel⟩ := h.committed (hd.symm.trans hn) (hi ▸ hsome)
      exact ⟨a, reports, ht, hc.trans hdec, hsel⟩
    · obtain ⟨hdec, hnone⟩ := h.actions (hd.symm.trans hn) a (ha.symm.trans haa)
      exact ⟨hc.trans hdec, hi.trans hnone⟩
  | ends hd =>
    rcases hd with ⟨hd, hsome⟩ | ⟨e, he, hne⟩
    · exact h.of_same hsome hd
    · exact .of_ended he hne
  | continued hi hc hd hi' ha =>
    refine ⟨fun hs => h.stopped (hd.symm.trans hs), fun _ hsome => ?_, fun hn _ => ?_,
      fun hn a haa => ?_⟩
    · simp [hi'] at hsome
    · obtain ⟨a, reports, _, hdec, hsel⟩ := h.committed (hd.symm.trans hn) hi
      have hcont := become_of_decision hdec hc
      rw [hsel, dispositionOf, hcont]
      rfl
    · obtain ⟨_, hnone⟩ := h.actions (hd.symm.trans hn) a (ha.symm.trans haa)
      simp [hnone] at hi
  | stopped hi hc hd =>
    cases hn : d.disposition with
    | some =>
      rw [hn] at hd
      exact h.of_same (by rw [hn]; rfl) (hd.trans hn.symm)
    | none =>
      rw [hn] at hd
      obtain ⟨a, reports, ht, hdec, hsel⟩ := h.committed hn hi
      have hstop := become_of_decision hdec hc
      refine ⟨fun _ => ⟨a, reports, ht, hstop, ?_⟩, ?_, ?_, ?_⟩
      · rw [hsel, dispositionOf, hstop]
        rfl
      all_goals
        intro hnone
        rw [hd] at hnone
        cases hnone
  | decided _ hd hi hi' ha hc =>
    refine ⟨fun hs => h.stopped (hd.symm.trans hs), fun _ hsome => ?_,
      fun hn _ => h.idle (hd.symm.trans hn) hi, fun _ b hb => ?_⟩
    · simp [hi'] at hsome
    · obtain rfl := some.inj (ha.symm.trans hb)
      exact ⟨hc, hi'⟩

/-! ## Operations that end -/

/-- The driver has received the product of its turn. -/
structure Interprets (d d' : Driver P.port) : Prop where
  disposition : d'.disposition = none
  interpretation : d'.interpretation.isSome
  decision : d'.decision = d.decision
  actions : d'.actions = none
  residual : d'.residual = d.residual

theorem Rests.of_interprets (h : Committed turn d sel) (hd : Interprets d d') :
    Rests turn d' sel where
  stopped hs := by rw [hd.disposition] at hs; cases hs
  committed _ _ := by
    obtain ⟨a, reports, hturn, hdec, hsel⟩ := h
    exact ⟨a, reports, hturn, hd.decision.trans hdec, hsel⟩
  idle _ hi := by
    have := hd.interpretation
    rw [hi] at this
    cases this
  actions _ a ha := by rw [hd.actions] at ha; cases ha

/-- The driver ends with an error. -/
def Fails (d' : Driver P.port) : Prop := ∃ e, d'.disposition = some (.error e)

theorem Rests.of_fails (h : Fails d') : Rests turn d' sel := by
  obtain ⟨e, he⟩ := h
  exact .of_ended he nofun

theorem fails_rejectAll {es} (hd : d.disposition = none) (he : es ≠ []) :
    Fails (d.rejectAll es) := by
  obtain ⟨e, es, rfl⟩ := List.exists_cons_of_ne_nil he
  rw [rejectAll_eq, hd]
  exact ⟨e, rfl⟩

variable {c c' : Config P.port} {reply : Received P.Payload Unit}

theorem ended_activate {call : ActivateCall P}
    (hs : Shape c.driver c.point) (hm : Moves c (.completed call.loan reply) c') :
    (∃ e i, call.environment = none ∧ call.received = some (.ok (e, i)) ∧
        Interprets c.driver c'.driver) ∨
      Fails c'.driver ∧ (c'.driver.residual.isSome → c.driver.residual.isSome ∨
        call.environment = none ∧ ∃ x, call.received = some (.error x)) := by
  generalize hl : call.loan = loan at hm
  unfold ActivateCall.loan at hl
  cases hm with
  | @malformedActivation d environment actions received reply hm =>
    have hphase : d.phase = .activating := hs.admits
    have hnone := (hs.unselected (by rw [hphase]; rfl)).1
    refine .inr ⟨fails_rejectAll hnone (blame_ne_nil (by rw [hphase]; decide) _), fun hr => ?_⟩
    rw [rejectAll_eq] at hr
    exact .inl hr
  | @activated d active i reply =>
    have hphase : d.phase = .activating := hs.admits
    have hnone : d.disposition = none := (hs.unselected (by rw [hphase]; rfl)).1
    simp only [Loan.activation.injEq, map_eq_none_iff] at hl
    obtain ⟨henv, _, hrec⟩ := hl
    obtain ⟨x, hx, hmap⟩ := map_eq_some_iff.mp hrec
    obtain ⟨e, i', rfl⟩ : ∃ e i', x = .ok (e, i') := by
      cases x with
      | ok p => exact ⟨p.1, p.2, rfl⟩
      | error => cases hmap
    cases reply.failures.map (DriverError.activationPanicked (P := P.port)) with
    | nil => exact .inl ⟨e, i', henv, hx, hnone, rfl, rfl, rfl, rfl⟩
    | cons =>
      refine .inr ⟨fails_rejectAll hnone nofun, fun hr => .inl ?_⟩
      rw [rejectAll_eq] at hr
      exact hr
  | @unactivated d error residual reply =>
    have hphase : d.phase = .activating := hs.admits
    have hnone : d.disposition = none := (hs.unselected (by rw [hphase]; rfl)).1
    simp only [Loan.activation.injEq, map_eq_none_iff] at hl
    obtain ⟨henv, _, hrec⟩ := hl
    obtain ⟨x, hx, hmap⟩ := map_eq_some_iff.mp hrec
    obtain ⟨y, rfl⟩ : ∃ y, x = .error y := by
      cases x with
      | ok => cases hmap
      | error y => exact ⟨y, rfl⟩
    exact .inr ⟨fails_rejectAll hnone nofun, fun _ => .inr ⟨henv, y, hx⟩⟩
  | offerEnded | applied | malformedApply => cases hl
  | retired hp hl' =>
    subst hl
    rcases hp with rfl | rfl <;> cases hl'

theorem ended_apply {call : ApplyCall P}
    (hs : Shape c.driver c.point) (hm : Moves c (.completed call.loan reply) c') :
    ((∃ i, call.received = some i ∧ Interprets c.driver c'.driver) ∨ Fails c'.driver) ∧
      c'.driver.residual = c.driver.residual := by
  generalize hl : call.loan = loan at hm
  unfold ApplyCall.loan at hl
  have hres : ∀ (d : Driver P.port) (es : List (DriverError P.port)),
      (d.rejectAll es).residual = d.residual := fun d es => by rw [rejectAll_eq]
  cases hm with
  | @malformedApply d actions received reply hm =>
    have hrunning : d.phase.running = true := hs.admits
    have hphase : d.phase.terminal = false ∧ d.phase ≠ .retiring := by
      revert hrunning
      cases d.phase <;> decide
    have hnone := (hs.unselected hphase.1).1
    exact ⟨.inr (fails_rejectAll hnone (blame_ne_nil hphase.2 _)), hres _ _⟩
  | @applied d i reply =>
    have hrunning : d.phase.running = true := hs.admits
    have hphase : d.phase.terminal = false := by
      revert hrunning
      cases d.phase <;> decide
    have hnone : d.disposition = none := (hs.unselected hphase).1
    refine ⟨?_, hres _ _⟩
    cases reply.failures.map (DriverError.hostExecutionPanicked (P := P.port)) with
    | nil => exact .inl ⟨i, (Loan.application.inj hl).2, hnone, rfl, rfl, rfl, rfl⟩
    | cons => exact .inr (fails_rejectAll hnone nofun)
  | offerEnded | activated | malformedActivation | unactivated => cases hl
  | retired hp hl' =>
    subst hl
    rcases hp with rfl | rfl <;> cases hl'

/-- A retirement ends: the disposition stays, and the residual is what the call left. -/
theorem ended_retirement {loan} {received}
    (hs : Shape c.driver c.point) (hm : Moves c (.completed loan reply) c')
    (hl : (∃ call : PreparedRetire P, loan = call.loan ∧ received = call.received) ∨
      ∃ call : ActiveRetire P, loan = call.loan ∧ received = call.received) :
    c.driver.disposition.isSome ∧ c'.driver.disposition = c.driver.disposition ∧
      c'.driver.residual = received := by
  rcases hl with ⟨call, rfl, rfl⟩ | ⟨call, rfl, rfl⟩
  all_goals
    cases hm with
    | @retired d _ _ hp _ hl' =>
      rcases hp with rfl | rfl <;> cases hl'
      have hphase : d.phase = .retirementAttempted := hs.admits
      exact ⟨by rw [hs.selected, hphase]; rfl, rfl, rfl⟩

end Turn

end Local
