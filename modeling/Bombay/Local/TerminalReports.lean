import Bombay.Local.Execution

/-!
# The terminal report on its way

The selected outcome is in the interpreter's capabilities as long as they are there, and in the
channel of the terminal report afterwards: `selectionOf` reads it in either place.  The capabilities
own the sender while they are there, and the sender is gone when they are: `Reporting`.  Every stage
of a retirement keeps both.
-/

set_option autoImplicit false

namespace Local

open Machine Engine ActionInterpreter

variable {P : ActorPort}

/-- The selected outcome, in the capabilities or in the channel. -/
def selectionOf (reports : Option (LocalTerminalReports P)) (channel : Oneshot P.Termination) :
    TerminationSelection P :=
  match reports with
  | some r => r.selection
  | none => channel.value.elim .unselected .selected

/-- The sender of the terminal report and the capabilities are there together, and nothing was sent
by then.  The receiver is there. -/
structure Reporting (reports : Option (LocalTerminalReports P)) (channel : Oneshot P.Termination) :
    Prop where
  receiver : channel.receiver = true
  live : ∀ r, reports = some r → r.report = true ∧ channel.sender = true ∧ channel.value = none
  retired : reports = none → channel.sender = false

/-- A step keeps the selection on its way. -/
structure Carries (reports : Option (LocalTerminalReports P)) (channel : Oneshot P.Termination)
    (reports' : Option (LocalTerminalReports P)) (channel' : Oneshot P.Termination) : Prop where
  reporting : Reporting reports channel → Reporting reports' channel'
  selection : Reporting reports channel →
    selectionOf reports' channel' = selectionOf reports channel
  /-- Capabilities that are gone do not come back. -/
  gone : reports = none → reports' = none

theorem Carries.refl (reports : Option (LocalTerminalReports P)) (channel : Oneshot P.Termination) :
    Carries reports channel reports channel := ⟨id, fun _ => rfl, id⟩

theorem LocalTerminalReports.not_refused (r : LocalTerminalReports P) {channel}
    (h : channel.receiver = true) (publication : Option (Except P.Termination Unit)) :
    (r.receiveRetirement channel publication).refused = false := by
  obtain ⟨selection, report⟩ := r
  cases publication with
  | some => rfl
  | none =>
    cases selection <;> cases report <;> simp [receiveRetirement, Oneshot.send, h]

/-- The reports are retired: the sender goes, with the selection if there is one. -/
theorem LocalTerminalReports.retire_carries (r : LocalTerminalReports P)
    (channel : Oneshot P.Termination) :
    Carries (some r) channel
      (if (r.receiveRetirement channel none).reports.retirementComplete then none
        else some (r.receiveRetirement channel none).reports)
      (r.receiveRetirement channel none).channel := by
  obtain ⟨selection, report⟩ := r
  refine ⟨fun h => ?_, fun h => ?_, nofun⟩
  all_goals
    obtain ⟨hreport, hsender, hvalue⟩ := h.live _ rfl
    cases hreport
    have hreceiver := h.receiver
  · cases selection with
    | unselected => exact ⟨hreceiver, nofun, fun _ => rfl⟩
    | selected =>
      simp only [receiveRetirement, Oneshot.send, hreceiver]
      exact ⟨rfl, nofun, fun _ => rfl⟩
  · cases selection with
    | unselected =>
      simp [receiveRetirement, retirementComplete, selectionOf, Oneshot.dropSender, hvalue]
    | selected =>
      simp [receiveRetirement, retirementComplete, selectionOf, Oneshot.send, hreceiver]

def Capabilities.reports (owner : Option (Capabilities P)) : Option (LocalTerminalReports P) :=
  owner.map Capabilities.terminalReports

def ActionInterpreter.reports (interpreter : Option (ActionInterpreter P)) :
    Option (LocalTerminalReports P) :=
  Capabilities.reports (inside interpreter)

theorem Capabilities.receiveChildren_carries (owner : Capabilities P) (a : RetirementAnswer P)
    (c : CapabilityRetirement P) (channel : Oneshot P.Termination) :
    Carries (some owner.terminalReports) channel
      (Capabilities.reports (owner.receiveChildren a c channel).owner)
      (owner.receiveChildren a c channel).channel := by
  unfold receiveChildren
  simp only
  split
  · exact .refl _ _
  · split
    · exact .refl _ _
    · cases hp : c.terminalReport with
      | some publication =>
        have hkeep : owner.terminalReports.receiveRetirement channel (some publication) =
            ⟨owner.terminalReports, channel, some publication, false⟩ := rfl
        rw [hkeep]
        split
        · exact .refl _ _
        · rename_i hdone
          -- the sender is there, so the reports are not complete
          have hnot : Reporting (some owner.terminalReports) channel → False := fun h => by
            have hreport := (h.live _ rfl).1
            simp [LocalTerminalReports.retirementComplete, hreport] at hdone
          exact ⟨fun h => (hnot h).elim, fun h => (hnot h).elim, nofun⟩
      | none =>
        have h := owner.terminalReports.retire_carries channel
        split
        · rename_i hincomplete
          rw [if_neg (by simpa using hincomplete)] at h
          exact h
        · rename_i hdone
          rw [if_pos (by simpa using hdone)] at h
          exact h

theorem Capabilities.receiveRetirement_carries (owner : Option (Capabilities P))
    (a : RetirementAnswer P) (received : Option (CapabilityRetirement P))
    (channel : Oneshot P.Termination) :
    Carries (Capabilities.reports owner) channel
      (Capabilities.reports (Capabilities.receiveRetirement a owner received channel).owner)
      (Capabilities.receiveRetirement a owner received channel).channel := by
  rcases owner with _ | ⟨tasks, failures, bindings, reports⟩
  · exact .refl _ _
  · cases tasks with
    | none =>
      cases received with
      | none => exact .refl _ _
      | some c => exact receiveChildren_carries ⟨none, failures, bindings, reports⟩ a c channel
    | some =>
      cases received with
      | none => exact receiveChildren_carries ⟨none, failures, bindings, reports⟩ a _ channel
      | some => exact .refl _ _

theorem ActionInterpreter.receiveRetirement_carries (owner : Option (ActionInterpreter P))
    (a : RetirementAnswer P) (received : Option (CapabilityRetirement P))
    (channel : Oneshot P.Termination) :
    Carries (reports owner) channel
      (reports (receiveRetirement a owner received channel).owner)
      (receiveRetirement a owner received channel).channel := by
  cases owner with
  | none => exact .refl _ _
  | some owner =>
    have h := Capabilities.receiveRetirement_carries owner.capabilities a received channel
    unfold receiveRetirement
    simp only
    split
    · rename_i hgone
      simp only [Bool.and_eq_true, Option.isNone_iff_eq_none] at hgone
      rw [hgone.1.2] at h
      exact h
    · exact h

theorem LocalEnvironment.concludeRetirement_interpreter (e : LocalEnvironment P) :
    e.concludeRetirement.interpreter = e.interpreter := by
  unfold concludeRetirement
  simp only
  split <;> rfl

theorem LocalEnvironment.poll_carries (e : LocalEnvironment P) (a : RetirementAnswer P)
    (channel : Oneshot P.Termination) :
    Carries (ActionInterpreter.reports e.interpreter) channel
      (ActionInterpreter.reports (e.pollRetirement a channel).1.interpreter)
      (e.pollRetirement a channel).2.1 := by
  have h := receiveRetirement_carries e.interpreter a e.retirement channel
  unfold pollRetirement
  simp only
  split
  · exact h
  · split
    · exact h
    · rw [concludeRetirement_interpreter]
      exact h

theorem LocalEnvironment.receiveRetirement_carries (e : LocalEnvironment P) (entering : Bool)
    (a : RetirementAnswer P) (channel : Oneshot P.Termination) :
    Carries (ActionInterpreter.reports e.interpreter) channel
      (ActionInterpreter.reports (e.receiveRetirement entering a channel).1.interpreter)
      (e.receiveRetirement entering a channel).2.1 := by
  unfold receiveRetirement
  split
  · exact e.poll_carries a channel
  · split
    · exact .refl _ _
    · split
      · exact .refl _ _
      · exact (e.beginRetirement a.fencePanics).poll_carries a channel

/-! ## The operations -/

/-- The terminal reports of a prepared environment in its slot. -/
def LocalEnvironment.reports (e : Option (LocalEnvironment P)) : Option (LocalTerminalReports P) :=
  ActionInterpreter.reports (e.bind LocalEnvironment.interpreter)

/-- The terminal reports of a live environment in its slot. -/
def ActiveLocalEnvironment.reports (e : Option (ActiveLocalEnvironment P)) :
    Option (LocalTerminalReports P) :=
  ActionInterpreter.reports (e.bind ActiveLocalEnvironment.interpreter)

theorem LocalEnvironment.reports_of_retired {e : LocalEnvironment P} (h : e.retired = true) :
    ActionInterpreter.reports e.interpreter = none := by
  simp only [retired, Bool.and_eq_true, Option.isNone_iff_eq_none] at h
  rw [h.1.1.2]
  rfl

/-- An operation of retirement: the selection is carried on, and a residual comes only from an
environment that has no capabilities any more. -/
structure Hands (before : Option (LocalTerminalReports P)) (channel : Oneshot P.Termination)
    (received : Bool) (after : Option (LocalTerminalReports P)) (channel' : Oneshot P.Termination)
    (received' : Bool) : Prop where
  carries : Carries before channel after channel'
  handed : (received = true → before = none) → received' = true → after = none

theorem Hands.refl (before : Option (LocalTerminalReports P)) (channel : Oneshot P.Termination)
    (received : Bool) : Hands before channel received before channel received :=
  ⟨.refl _ _, fun h hr => h hr⟩

theorem PreparedRetire.resume_hands (s : PreparedRetire P) (entering : Bool)
    (a : RetirementAnswer P) (owner : LocalEnvironment P) :
    Hands (ActionInterpreter.reports owner.interpreter) s.channel s.received.isSome
      (LocalEnvironment.reports (s.resume entering a owner).environment)
      (s.resume entering a owner).channel (s.resume entering a owner).received.isSome := by
  have h := owner.receiveRetirement_carries entering a s.channel
  rw [resume]
  generalize owner.receiveRetirement entering a s.channel = r at h ⊢
  obtain ⟨e, channel, status⟩ := r
  have hkept : Hands (ActionInterpreter.reports owner.interpreter) s.channel s.received.isSome
      (ActionInterpreter.reports e.interpreter) channel s.received.isSome :=
    ⟨h, fun hs hr => h.gone (hs hr)⟩
  simp only
  split
  · rename_i hret
    rw [LocalEnvironment.reports_of_retired hret] at h
    exact ⟨h, fun _ _ => rfl⟩
  · exact hkept

theorem PreparedRetire.call_hands (s : PreparedRetire P) (a : RetirementAnswer P) :
    Hands (LocalEnvironment.reports s.environment) s.channel s.received.isSome
      (LocalEnvironment.reports (s.call a).environment) (s.call a).channel
      (s.call a).received.isSome := by
  have hstay := Hands.refl (LocalEnvironment.reports s.environment) s.channel s.received.isSome
  unfold call
  split
  · exact hstay
  · split
    · exact hstay
    · rename_i owner he
      split
      · rename_i actions _
        split
        · exact hstay
        · rw [he]
          exact resume_hands { s with actions := none } true a
            { owner with initialization := some (.original actions) }
      · rw [he]
        exact s.resume_hands true a owner

theorem ActiveRetire.resume_hands (s : ActiveRetire P) (a : RetirementAnswer P)
    (owner : ActiveLocalEnvironment P) (settlements : List P.Settlement) :
    Hands (ActionInterpreter.reports owner.interpreter) s.channel s.received.isSome
      (ActiveLocalEnvironment.reports (s.resume a owner settlements).environment)
      (s.resume a owner settlements).channel (s.resume a owner settlements).received.isSome := by
  have h := receiveRetirement_carries owner.interpreter a owner.retirement s.channel
  rw [resume]
  generalize receiveRetirement a owner.interpreter owner.retirement s.channel = r
    at h ⊢
  have hkept : Hands (ActionInterpreter.reports owner.interpreter) s.channel s.received.isSome
      (ActionInterpreter.reports r.owner) r.channel s.received.isSome :=
    ⟨h, fun hs hr => h.gone (hs hr)⟩
  simp only
  split
  · exact hkept
  · split
    · exact hkept
    · rename_i hgone
      have hnone : r.owner = none := by simpa using hgone
      split
      · rw [hnone] at h
        exact ⟨h, fun _ _ => rfl⟩
      · exact hkept

theorem ActiveRetire.call_hands (s : ActiveRetire P) (a : RetirementAnswer P) :
    Hands (ActiveLocalEnvironment.reports s.environment) s.channel s.received.isSome
      (ActiveLocalEnvironment.reports (s.call a).environment) (s.call a).channel
      (s.call a).received.isSome := by
  have hstay :=
    Hands.refl (ActiveLocalEnvironment.reports s.environment) s.channel s.received.isSome
  unfold call
  split
  · exact hstay
  · split
    · rename_i owner settlements he _
      split
      · exact hstay
      · rw [he] at hstay ⊢
        split
        · exact hstay
        · exact (s.surrendered owner).resume_hands a (s.receive a.fencePanics owner) settlements
    · exact hstay

end Local
