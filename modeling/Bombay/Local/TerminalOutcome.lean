import Bombay.Engine.Retirement
import Bombay.Local.TerminalReports
import Bombay.Local.Turns

/-!
# Which outcome is published

The outcome that a turn reports is selected in the interpreter, kept or dropped when the turn is
committed, sent through a channel when the capabilities retire, and read by the guard of the
execution when the driver is done.  `Tracks` follows it through these places, and `Published`
follows the guard.
-/

set_option autoImplicit false

namespace Local

open Machine Engine Option ActivateCall Capabilities Place TerminationSelection

variable {P : ActorPort} {turn : Turn P} {s s' : Execution P}

/-! ## Where the selection is -/

def ActivateCall.reports (call : ActivateCall P) : Option (LocalTerminalReports P) :=
  match call.environment, call.received with
  | some e, _ => ActionInterpreter.reports e.interpreter
  | none, some (.ok (e, _)) => ActionInterpreter.reports e.interpreter
  | none, _ => none

/-- The terminal reports, wherever the environment is. -/
def Place.reports : Place P → Option (LocalTerminalReports P)
  | .prepared e => ActionInterpreter.reports e.interpreter
  | .activating call _ => call.reports
  | .active e => ActionInterpreter.reports e.interpreter
  | .applying call _ => ActionInterpreter.reports call.environment.interpreter
  | .retiringPrepared call => LocalEnvironment.reports call.environment
  | .retiringActive call => ActiveLocalEnvironment.reports call.environment
  | .gone => none

theorem Place.reports_ofPrepared (call : PreparedRetire P) :
    (ofPrepared call).reports = LocalEnvironment.reports call.environment := by
  unfold ofPrepared
  cases call.environment <;> rfl

theorem Place.reports_ofActive (call : ActiveRetire P) :
    (ofActive call).reports = ActiveLocalEnvironment.reports call.environment := by
  unfold ofActive
  cases call.environment <;> rfl

theorem Place.reports_ofActivate (call : ActivateCall P) :
    (ofActivate call).reports = call.reports := by
  obtain ⟨environment, actions, received⟩ := call
  rcases environment with _ | e
  · rcases received with _ | _ | _ <;> rfl
  · rfl

/-- A retirement works on the channel of the actor, and its residual comes only from an environment
without capabilities. -/
def Place.Handed (channel : Oneshot P.Termination) : Place P → Prop
  | .retiringPrepared call => call.channel = channel ∧
    (call.received.isSome → LocalEnvironment.reports call.environment = none)
  | .retiringActive call => call.channel = channel ∧
    (call.received.isSome → ActiveLocalEnvironment.reports call.environment = none)
  | _ => True

/-- What is known of the selection where an activation waits. -/
def ActivatePoint.Fits (turn : Turn P) (d : Driver P.port) (sel : TerminationSelection P)
    (environment : Option (LocalEnvironment P)) : ActivatePoint → Prop
  | .initializing | .acknowledge =>
    ∃ a, turn = some (a, []) ∧ d.decision = some (P.port.decision a) ∧ sel = .unselected ∧
      ∀ owner, environment = some owner → owner.initialization = some (.original a)
  | .commit disposition => Committing turn d sel disposition
  | .retire _ | .returned | .unwound => True

/-- What is known of the selection in an activation. -/
structure ActivateCall.Fits (turn : Turn P) (d : Driver P.port) (sel : TerminationSelection P)
    (call : ActivateCall P) (point : ActivatePoint) : Prop where
  received : ∀ e i, call.received = some (.ok (e, i)) →
    Committed turn d sel ∧ e.interpretation = none
  waiting : point ≠ .returned → call.received = none
  atPoint : point.Fits turn d sel call.environment

variable {d : Driver P.port} {sel : TerminationSelection P} {actions : Option P.Actions}
    {point : ActivatePoint}

theorem ActivateCall.Fits.entered {environment}
    (h : point.Fits turn d sel environment) : Fits turn d sel ⟨environment, actions, none⟩ point :=
  ⟨fun _ _ hr => absurd hr.symm (some_ne_none _), fun _ => rfl, h⟩

variable {f : LocalEnvironment P → LocalEnvironment P}

theorem ActivateCall.reports_map (call : ActivateCall P)
    (hf : ∀ e, (f e).interpreter = e.interpreter) :
    ActivateCall.reports { call with environment := call.environment.map f } = call.reports := by
  obtain ⟨environment, actions, received⟩ := call
  cases environment with
  | none => rfl
  | some e => exact congrArg ActionInterpreter.reports (hf e)

theorem ActivateCall.Fits.map {call : ActivateCall P} (h : call.Fits turn d sel point)
    (hf : ∀ e, (f e).initialization = e.initialization) :
    ActivateCall.Fits turn d sel { call with environment := call.environment.map f } point := by
  refine ⟨h.received, h.waiting, ?_⟩
  have hpoint := h.atPoint
  cases point with
  | initializing | acknowledge =>
    obtain ⟨a, hturn, hdec, hsel, horig⟩ := hpoint
    refine ⟨a, hturn, hdec, hsel, fun owner ho => ?_⟩
    obtain ⟨e, he, rfl⟩ := map_eq_some_iff.mp ho
    rw [hf]
    exact horig e he
  | retire | commit | returned | unwound => exact hpoint

/-- What is known of the selection where an application waits. -/
def ApplyPoint.Fits (turn : Turn P) (d : Driver P.port) (sel : TerminationSelection P) :
    ApplyPoint → Prop
  | .commit disposition => Committing turn d sel disposition
  | .returned => True

/-- What is known of the selection in an application. -/
structure ApplyCall.Fits (turn : Turn P) (d : Driver P.port) (sel : TerminationSelection P)
    (call : ApplyCall P) (point : ApplyPoint) : Prop where
  received : ∀ i, call.received = some i →
    Committed turn d sel ∧ call.environment.interpretation = none
  waiting : point ≠ .returned → call.received = none
  atPoint : point.Fits turn d sel

theorem ApplyCall.Fits.entered {e} {point}
    (h : point.Fits turn d sel) : Fits turn d sel ⟨e, actions, none⟩ point :=
  ⟨fun _ hr => absurd hr.symm (some_ne_none _), fun _ => rfl, h⟩

/-- What is known of the selection in a place. -/
def Place.Fits (turn : Turn P) (d : Driver P.port) (sel : TerminationSelection P) : Place P → Prop
  | .prepared e => Rests turn d sel ∧ (d.disposition = none → e.initialization = none)
  | .active e => Rests turn d sel ∧ (d.disposition = none → e.interpretation = none)
  | .activating call point => call.Fits turn d sel point
  | .applying call point => call.Fits turn d sel point
  | .retiringPrepared _ | .retiringActive _ | .gone => Rests turn d sel

theorem Place.isSettled_ofActivate (call : ActivateCall P) :
    (ofActivate call).isSettled = true := by
  unfold ofActivate
  split <;> rfl

theorem Place.isSettled_ofPrepared (call : PreparedRetire P) :
    (ofPrepared call).isSettled = true := by
  unfold ofPrepared
  cases call.environment <;> rfl

theorem Place.isSettled_ofActive (call : ActiveRetire P) : (ofActive call).isSettled = true := by
  unfold ofActive
  cases call.environment <;> rfl

variable {place : Place P}

theorem Place.Fits.of_rests
    (hp : place.isSettled = true) (h : Rests turn d sel) (hd : d.disposition.isSome) :
    place.Fits turn d sel := by
  cases place with
  | prepared | active => exact ⟨h, fun hn => by rw [hn] at hd; cases hd⟩
  | gone => exact h
  | activating | applying | retiringPrepared | retiringActive => cases hp

theorem Place.Fits.of_fails
    (hp : place.isSettled = true) (h : Fails d) : place.Fits turn d sel := by
  obtain ⟨e, he⟩ := h
  exact .of_rests hp (.of_fails ⟨e, he⟩) (by rw [he]; rfl)

theorem Place.Fits.drives {d'}
    (h : place.Fits turn d sel) (hp : place.isSettled = true) (hd : Drives d d') :
    place.Fits turn d' sel := by
  cases place with
  | prepared | active => exact ⟨h.1.drives hd, fun hn => h.2 (hd.open hn)⟩
  | gone => exact Rests.drives h hd
  | activating | applying | retiringPrepared | retiringActive => cases hp

/-- The point at which the driver waits for an operation. -/
def Place.At (point : Point P.port) : Place P → Prop
  | .activating _ _ => point = .activate
  | .applying _ _ => point = .apply
  | _ => True

/-- The selected outcome of an actor. -/
def Execution.selection (s : Execution P) : TerminationSelection P :=
  selectionOf s.place.reports s.channel

/-- The selection is where it should be. -/
structure Tracks (turn : Turn P) (s : Execution P) : Prop where
  shape : Shape s.config.driver s.config.point
  reporting : Reporting s.place.reports s.channel
  residual : s.config.driver.residual.isSome → s.place.reports = none
  handed : s.place.Handed s.channel
  point : s.place.At s.config.point
  fits : s.place.Fits turn s.config.driver s.selection

namespace Tracks

theorem start (b : P.Behavior) (commitment : Bool) :
    Tracks none (Execution.start b commitment) where
  shape := Shape.new (P := P.port) b ()
  reporting := ⟨rfl, fun r hr => by cases hr; exact ⟨rfl, rfl, rfl⟩, nofun⟩
  residual := nofun
  handed := trivial
  point := trivial
  fits := ⟨⟨nofun, fun _ => nofun, fun _ _ => rfl, fun _ => nofun⟩, fun _ => rfl⟩

variable {turn' : Turn P} {place : Place P}

theorem of_place (h : Tracks turn s) (hs' : s' = s.at_ place)
    (hr : place.reports = s.place.reports) (hh : place.Handed s.channel)
    (hp : place.At s.config.point) (hf : place.Fits turn' s.config.driver s.selection) :
    Tracks turn' s' := by
  subst hs'
  refine ⟨h.shape, ?_, ?_, hh, hp, ?_⟩
  · rw [Execution.at_, hr]
    exact h.reporting
  · rw [Execution.at_, hr]
    exact h.residual
  · rw [Execution.selection, Execution.at_, hr]
    exact hf

theorem of_same (h : Tracks turn s) {old : Place P} (hold : s.place = old)
    (hs : some (s.at_ place) = some s') (hr : place.reports = old.reports)
    (hh : place.Handed s.channel) (hp : old.At s.config.point → place.At s.config.point)
    (hf : old.Fits turn s.config.driver s.selection → place.Fits turn s.config.driver s.selection) :
    Tracks turn s' := by
  subst hold
  exact h.of_place (some.inj hs).symm hr hh (hp h.point) (hf h.fits)

variable {i : Input P.port}

theorem of_ended (h : Tracks turn s) {c} (hm : Moves s.config i c)
    (hr : s.place.reports = place.reports) (hres : c.driver.residual.isSome → place.reports = none)
    (hp : place.isSettled = true) (hf : place.Fits turn c.driver s.selection) :
    Tracks turn { s with config := c, place := place } := by
  refine ⟨h.shape.step hm, hr ▸ h.reporting, hres, ?_, ?_, ?_⟩
  · cases place <;> trivial
  · cases place <;> trivial
  · change place.Fits turn c.driver (selectionOf place.reports s.channel)
    rw [← hr]
    exact hf

theorem at_of_place (h : Tracks turn s) (hp : s.place = place) :
    place.At s.config.point := hp ▸ h.point

theorem withBound (h : Tracks turn s) {bound : Bool} : Tracks turn { s with bound := bound } :=
  ⟨h.shape, h.reporting, h.residual, h.handed, h.point, h.fits⟩

theorem drive (h : Tracks turn s) (hs : s.advance (.drive i) = some s') :
    Tracks turn s' := by
  simp only [Execution.advance] at hs
  split at hs
  · rename_i hown
    simp only [Bool.and_eq_true] at hown
    obtain ⟨c, hc, rfl⟩ := map_eq_some_iff.mp hs
    have hm := step_moves hc
    obtain ⟨hd, hres⟩ := drives_of_moves h.shape hm hown.2
    exact h.of_ended hm rfl (fun hr => h.residual (hres ▸ hr)) hown.1 (h.fits.drives hown.1 hd)
  · cases hs

/-! ### Activation -/

theorem fresh (h : Tracks turn s) (hp : s.config.point = .activate) :
    s.config.driver.disposition = none ∧ s.config.driver.interpretation = none := by
  have hphase : s.config.driver.phase = .activating := h.shape.admits_of hp
  exact ⟨(h.shape.unselected (by rw [hphase]; rfl)).1, (h.shape.fresh hphase).interpretation⟩

theorem activate (h : Tracks turn s) (hs : s.activate = some s') :
    Tracks (s.config.driver.actions.map fun a => (a, [])) s' := by
  unfold Execution.activate at hs
  split at hs
  · rename_i e hplace hpoint _
    have hfits := h.fits
    have hreports : s.place.reports = ActionInterpreter.reports e.interpreter := by rw [hplace]; rfl
    obtain ⟨hd, hi⟩ := h.fresh hpoint
    rw [hplace] at hfits
    have hidle := hfits.1.idle hd hi
    have hfresh := hfits.2 hd
    cases ha : s.config.driver.actions with
    | none =>
      rw [ha, enter_none hfresh] at hs
      exact h.of_place (some.inj hs).symm hreports.symm trivial hpoint (.entered trivial)
    | some a =>
      have hdec := (hfits.1.actions hd a ha).1
      rw [ha, enter_some a hfresh] at hs
      refine h.of_place (some.inj hs).symm hreports.symm trivial hpoint (.entered ?_)
      split
      · trivial
      · refine ⟨a, rfl, hdec, hidle, fun owner ho => ?_⟩
        rw [← some.inj ho]
  · cases hs

/-- The turn has begun, and its actions are in the environment. -/
def Begun (turn : Turn P) (d : Driver P.port) (sel : TerminationSelection P)
    (a : P.Actions) : Prop :=
  turn = some (a, []) ∧ d.decision = some (P.port.decision a) ∧ sel = .unselected

variable {d : Driver P.port} {owner : LocalEnvironment P} {point : ActivatePoint}

theorem Begun.fits {sel} {a : P.Actions} (h : Begun turn d sel a)
    (ho : owner.initialization = some (.original a))
    (hp : point = .acknowledge ∨ point = .retire false ∨ point = .returned ∨
      point = .commit (terminalDisposition.ofStep (P.become_ a))) :
    point.Fits turn d sel (some owner) := by
  obtain ⟨hturn, hdec, hsel⟩ := h
  rcases hp with rfl | rfl | rfl | rfl
  · exact ⟨a, hturn, hdec, hsel, fun _ h => some.inj h ▸ ho⟩
  · trivial
  · trivial
  · exact ⟨a, [], hturn, hdec, rfl, hsel⟩

theorem initialized (h : Tracks turn s) {a} (hs : s.initialized a = some s') :
    Tracks turn s' := by
  unfold Execution.initialized at hs
  split at hs
  · rename_i call hplace
    obtain ⟨owner, howner, rfl⟩ := map_eq_some_iff.mp hs
    have hat := h.at_of_place hplace
    have hfits := h.fits
    rw [hplace] at hfits
    obtain ⟨b, hturn, hdec, hsel, horig⟩ := hfits.atPoint
    obtain ⟨environment, actions, received⟩ := call
    obtain rfl : received = none := hfits.waiting nofun
    cases howner
    obtain ⟨owner', point, heq, hinit, hint, hpoint⟩ :=
      initialized_original ⟨some owner, actions, none⟩ a (horig owner rfl)
    have hreports : s.place.reports = ActionInterpreter.reports owner.interpreter := by
      rw [hplace]; rfl
    have hfits' : Place.Fits turn s.config.driver s.selection
        (.activating ⟨some owner', actions, none⟩ point) :=
      .entered (Begun.fits ⟨hturn, hdec, hsel⟩ hinit hpoint)
    rw [heq]
    have hsame : (activating ⟨some owner', actions, none⟩ point).reports = s.place.reports := by
      rw [hreports, ← hint]
      rfl
    exact (h.of_place rfl hsame trivial hat hfits').withBound
  · cases hs

theorem acknowledged (h : Tracks turn s) {r}
    (hs : s.acknowledged r = some s') : Tracks turn s' := by
  unfold Execution.acknowledged at hs
  split at hs
  · rename_i call hplace
    obtain ⟨owner, howner, rfl⟩ := map_eq_some_iff.mp hs
    have hat := h.at_of_place hplace
    have hfits := h.fits
    rw [hplace] at hfits
    obtain ⟨b, hturn, hdec, hsel, horig⟩ := hfits.atPoint
    obtain ⟨environment, actions, received⟩ := call
    obtain rfl : received = none := hfits.waiting nofun
    cases howner
    have hinit : (owner.acknowledge r).initialization = some (.original b) := horig owner rfl
    obtain ⟨point, heq, hpoint⟩ := bound_original ⟨some owner, actions, none⟩ hinit
    rw [heq]
    refine h.of_place rfl (by rw [hplace]; rfl) trivial hat (.entered ?_)
    exact Begun.fits ⟨hturn, hdec, hsel⟩ hinit (.inr hpoint)
  · cases hs

/-! ### Application -/

theorem running (h : Tracks turn s) (hp : s.config.point = .apply) :
    s.config.driver.disposition = none := by
  have hrunning : s.config.driver.phase.running = true := h.shape.admits_of hp
  exact (h.shape.unselected (by revert hrunning; cases s.config.driver.phase <;> decide)).1

theorem apply (h : Tracks turn s) (hs : s.apply = some s') :
    Tracks (s.config.driver.actions.map fun a => (a, [])) s' := by
  unfold Execution.apply at hs
  split at hs
  · rename_i e hplace hpoint hi
    have hfits := h.fits
    have hreports : s.place.reports = ActionInterpreter.reports e.interpreter := by rw [hplace]; rfl
    have hd := h.running hpoint
    rw [hplace] at hfits
    have hidle := hfits.1.idle hd hi
    have hfresh := hfits.2 hd
    cases ha : s.config.driver.actions with
    | none =>
      rw [ha, ApplyCall.enter_none hfresh] at hs
      exact h.of_place (some.inj hs).symm hreports.symm trivial hpoint (.entered trivial)
    | some a =>
      have hdec := (hfits.1.actions hd a ha).1
      rw [ha, ApplyCall.enter_some a hfresh] at hs
      refine h.of_place (some.inj hs).symm hreports.symm trivial hpoint (.entered ?_)
      split
      · trivial
      · exact ⟨a, [], rfl, hdec, rfl, hidle⟩
  · cases hs

/-! ### Commits -/

theorem of_commit (h : Tracks turn s) {r r'} (hr : s.place.reports = some r)
    (hr' : place.reports = some r') (hreport : r'.report = r.report) (hh : place.Handed s.channel)
    (hp : place.At s.config.point) (hf : place.Fits turn' s.config.driver r'.selection) :
    Tracks turn' (s.at_ place) := by
  obtain ⟨hlive, hsender, hvalue⟩ := h.reporting.live r hr
  refine ⟨h.shape, ?_, ?_, hh, hp, ?_⟩
  · rw [Execution.at_, hr']
    refine ⟨h.reporting.receiver, fun x hx => ?_, fun hx => absurd hx (some_ne_none _)⟩
    obtain rfl := some.inj hx
    exact ⟨hreport.trans hlive, hsender, hvalue⟩
  · intro hres
    exact absurd (hr.symm.trans (h.residual hres)) (some_ne_none _)
  · rw [Execution.selection, Execution.at_, hr']
    exact hf

variable {c : Capabilities P} {a : CommitAnswer P} {disposition : TerminalReportDisposition}

theorem commit_committing
    (h : Committing turn d c.terminalReports.selection disposition) (hs : a.status = none) :
    Committing (turn.map fun t => (t.1, t.2 ++ a.reports)) d
      (c.commit disposition a).terminalReports.selection disposition := by
  obtain ⟨b, reports, hturn, hdec, hdisp, hsel⟩ := h
  refine ⟨b, reports ++ a.reports, by rw [hturn]; rfl, hdec, hdisp, ?_⟩
  rw [commit_terminalReports, hs, hsel]
  exact ofReports_append reports a.reports

theorem commit_committed
    (h : Committing turn d c.terminalReports.selection disposition) (hs : a.status.isSome) :
    Committed (turn.map fun t => (t.1, t.2 ++ a.reports)) d
      (c.commit disposition a).terminalReports.selection := by
  obtain ⟨b, reports, hturn, hdec, rfl, hsel⟩ := h
  obtain ⟨status, hstatus⟩ := isSome_iff_exists.mp hs
  refine ⟨b, reports ++ a.reports, by rw [hturn]; rfl, hdec, ?_⟩
  rw [commit_terminalReports, hstatus, hsel, ← ofReports_append]
  rfl

theorem commit (h : Tracks turn s) (hs : s.commit a = some s') :
    Tracks (turn.map fun t => (t.1, t.2 ++ a.reports)) s' := by
  unfold Execution.commit at hs
  split at hs
  · rename_i call disposition hplace
    obtain ⟨owner, howner, hs⟩ := bind_eq_some_iff.mp hs
    obtain ⟨c, hc, rfl⟩ := map_eq_some_iff.mp hs
    have hfits := h.fits
    have hreports : s.place.reports = some c.terminalReports := by
      rw [hplace, Place.reports, ActivateCall.reports, howner]
      exact congrArg Capabilities.reports hc
    have hpoint := h.at_of_place hplace
    rw [hplace, Execution.selection, hreports] at hfits
    obtain ⟨environment, actions, received⟩ := call
    obtain rfl : received = none := hfits.waiting nofun
    cases howner
    rw [ActivateCall.commit]
    simp only
    split
    · rename_i hstatus
      have hcomm := commit_committed hfits.atPoint hstatus
      rcases finish_eq ⟨some owner, actions, none⟩
        { owner.withCapabilities (c.commit disposition a) with initialization := some a.progress }
        with ⟨e, i, heq, hint, hnone⟩ | heq
      · rw [heq]
        refine h.of_commit hreports ?_ (commit_report c disposition a) trivial hpoint
          ⟨fun e' i' he => ?_, fun hn => absurd rfl hn, trivial⟩
        · change ActionInterpreter.reports e.interpreter = _
          rw [hint]
          rfl
        · cases he
          exact ⟨hcomm, hnone⟩
      · rw [heq]
        exact h.of_commit hreports rfl (commit_report c disposition a) trivial hpoint
          (.entered trivial)
    · rename_i hstatus
      exact h.of_commit hreports rfl (commit_report c disposition a) trivial hpoint
        (.entered (commit_committing hfits.atPoint (by simpa using hstatus)))
  · rename_i call disposition hplace
    obtain ⟨c, hc, rfl⟩ := map_eq_some_iff.mp hs
    have hfits := h.fits
    have hreports : s.place.reports = some c.terminalReports := by
      rw [hplace]
      exact congrArg Capabilities.reports hc
    have hpoint := h.at_of_place hplace
    rw [hplace, Execution.selection, hreports] at hfits
    obtain ⟨e, actions, received⟩ := call
    obtain rfl : received = none := hfits.waiting nofun
    rw [ApplyCall.commit]
    simp only
    split
    · rename_i hstatus
      have hcomm := commit_committed hfits.atPoint hstatus
      rw [ApplyCall.finish]
      split
      · exact h.of_commit hreports rfl (commit_report c disposition a) trivial hpoint
          ⟨fun i _ => ⟨hcomm, rfl⟩, fun hn => absurd rfl hn, trivial⟩
      · exact h.of_commit hreports rfl (commit_report c disposition a) trivial hpoint
          (.entered trivial)
    · rename_i hstatus
      exact h.of_commit hreports rfl (commit_report c disposition a) trivial hpoint
        (.entered (commit_committing hfits.atPoint (by simpa using hstatus)))
  · cases hs

/-! ### Retirement -/

theorem of_carries (h : Tracks turn s) {channel}
    (hc : Carries s.place.reports s.channel place.reports channel) (hh : place.Handed channel)
    (hp : place.At s.config.point) (hf : place.Fits turn s.config.driver s.selection) :
    Tracks turn { s with place := place, channel := channel } := by
  refine ⟨h.shape, hc.reporting h.reporting, fun hr => hc.gone (h.residual hr), hh, hp, ?_⟩
  change place.Fits turn s.config.driver (selectionOf place.reports channel)
  rw [hc.selection h.reporting]
  exact hf

theorem refuse (h : Tracks turn s) {actions}
    (hplace : s.place = .activating ⟨some owner, actions, none⟩ point)
    (begun : Bool) (a : RetirementAnswer P) :
    Tracks turn { s with
      place :=
        .activating (ActivateCall.refuse ⟨some owner, actions, none⟩ begun a s.channel owner).1.1
        (ActivateCall.refuse ⟨some owner, actions, none⟩ begun a s.channel owner).1.2
      channel := (ActivateCall.refuse ⟨some owner, actions, none⟩ begun a s.channel owner).2 } := by
  have hcarries := owner.receiveRetirement_carries (!begun) a s.channel
  have hreports : s.place.reports = ActionInterpreter.reports owner.interpreter := by
    rw [hplace]; rfl
  have hpoint := h.at_of_place hplace
  rw [← hreports] at hcarries
  unfold ActivateCall.refuse
  generalize owner.receiveRetirement (!begun) a s.channel = r at hcarries ⊢
  obtain ⟨e, channel, status⟩ := r
  cases status with
  | waiting | unwound => exact h.of_carries hcarries trivial hpoint (.entered trivial)
  | returned =>
    simp only
    split
    · rename_i hret
      rw [LocalEnvironment.reports_of_retired hret] at hcarries
      refine h.of_carries hcarries trivial hpoint
        ⟨fun _ _ he => ?_, fun hn => absurd rfl hn, trivial⟩
      cases he
    · exact h.of_carries hcarries trivial hpoint (.entered trivial)

theorem of_hands (h : Tracks turn s) {reports : Option (LocalTerminalReports P)}
    {channel channel' : Oneshot P.Termination} {received received' : Bool}
    (hh : Hands reports channel received place.reports channel' received')
    (hreports : s.place.reports = reports) (hc : channel = s.channel)
    (hr : received = true → s.place.reports = none)
    (hhanded : (received' = true → place.reports = none) → place.Handed channel')
    (hp : place.At s.config.point) (hf : place.Fits turn s.config.driver s.selection) :
    Tracks turn { s with place := place, channel := channel' } := by
  subst hreports hc
  exact h.of_carries hh.carries (hhanded (hh.handed hr)) hp hf

theorem retire (h : Tracks turn s) {a} (hs : s.retire a = some s') : Tracks turn s' := by
  have hfits := h.fits
  have hhanded := h.handed
  unfold Execution.retire at hs
  simp only at hs
  split at hs
  · rename_i call begun hplace
    obtain ⟨owner, howner, rfl⟩ := map_eq_some_iff.mp hs
    rw [hplace] at hfits
    obtain ⟨environment, actions, received⟩ := call
    obtain rfl : received = none := hfits.waiting nofun
    cases howner
    exact h.refuse hplace begun a
  · rename_i e hplace _
    cases hs
    rw [hplace] at hfits
    exact h.of_hands (PreparedRetire.call_hands _ a) (by rw [hplace]; rfl) rfl h.residual
      (fun hr => ⟨rfl, hr⟩) trivial hfits.1
  · rename_i e hplace _
    cases hs
    rw [hplace] at hfits
    exact h.of_hands (ActiveRetire.call_hands _ a) (by rw [hplace]; rfl) rfl h.residual
      (fun hr => ⟨rfl, hr⟩) trivial hfits.1
  · rename_i call hplace
    split at hs
    · rename_i owner _ howner
      cases hs
      rw [hplace] at hfits hhanded
      exact h.of_hands (call.resume_hands false a owner)
        (by rw [hplace, Place.reports, howner]; rfl) hhanded.1 (by rw [hplace]; exact hhanded.2)
        (fun hr => ⟨rfl, hr⟩) trivial hfits
    · cases hs
  · rename_i call hplace
    split at hs
    · rename_i owner settlements _ howner _
      cases hs
      rw [hplace] at hfits hhanded
      exact h.of_hands (call.resume_hands a owner settlements)
        (by rw [hplace, Place.reports, howner]; rfl) hhanded.1 (by rw [hplace]; exact hhanded.2)
        (fun hr => ⟨rfl, hr⟩) trivial hfits
    · cases hs
  · cases hs

/-! ### The end of an operation -/

theorem ended (h : Tracks turn s) {reply} (hs : s.ended reply = some s') :
    Tracks turn s' := by
  have hfits := h.fits
  have hhanded := h.handed
  unfold Execution.ended at hs
  split at hs
  · rename_i call point hplace
    split at hs
    · obtain ⟨c, hc, rfl⟩ := map_eq_some_iff.mp hs
      have hm := step_moves hc
      rw [hplace] at hfits
      have hreports : s.place.reports = (ofActivate call).reports := by
        rw [hplace, reports_ofActivate]
        rfl
      refine h.of_ended hm hreports ?_ (isSettled_ofActivate call) ?_
      · rcases ended_activate h.shape hm with ⟨e, i, _, _, hd⟩ | ⟨_, hres⟩
        · intro hr
          rw [← hreports]
          exact h.residual (hd.residual ▸ hr)
        · intro hr
          rcases hres hr with hr | ⟨henv, x, hrec⟩
          · rw [← hreports]
            exact h.residual hr
          · rw [ofActivate, henv, hrec]
            rfl
      · rcases ended_activate h.shape hm with ⟨e, i, henv, hrec, hd⟩ | ⟨hfails, _⟩
        · obtain ⟨hcomm, hnone⟩ := hfits.received e i hrec
          rw [ofActivate, henv, hrec]
          exact ⟨.of_interprets hcomm hd, fun _ => hnone⟩
        · exact .of_fails (isSettled_ofActivate call) hfails
    · cases hs
  · rename_i call point hplace
    split at hs
    · obtain ⟨c, hc, rfl⟩ := map_eq_some_iff.mp hs
      have hm := step_moves hc
      rw [hplace] at hfits
      have hreports : s.place.reports = (active call.environment).reports := by
        rw [hplace]
        rfl
      obtain ⟨hverdict, hres⟩ := ended_apply h.shape hm
      refine h.of_ended hm hreports (fun hr => hreports ▸ h.residual (hres ▸ hr)) rfl ?_
      rcases hverdict with ⟨i, hrec, hd⟩ | hfails
      · obtain ⟨hcomm, hnone⟩ := hfits.received i hrec
        exact ⟨.of_interprets hcomm hd, fun _ => hnone⟩
      · exact .of_fails rfl hfails
    · cases hs
  · rename_i call hplace
    split at hs
    · obtain ⟨c, hc, rfl⟩ := map_eq_some_iff.mp hs
      have hm := step_moves hc
      rw [hplace] at hfits hhanded
      have hreports : s.place.reports = (ofPrepared call).reports := by
        rw [hplace, reports_ofPrepared]
        rfl
      obtain ⟨hsome, hd, hres⟩ := ended_retirement h.shape hm (.inl ⟨call, rfl, rfl⟩)
      refine h.of_ended hm hreports (fun hr => ?_) (isSettled_ofPrepared call)
        (.of_rests (isSettled_ofPrepared call) (hfits.of_same hsome hd) (hd ▸ hsome))
      rw [reports_ofPrepared]
      exact hhanded.2 (hres ▸ hr)
    · cases hs
  · rename_i call hplace
    split at hs
    · obtain ⟨c, hc, rfl⟩ := map_eq_some_iff.mp hs
      have hm := step_moves hc
      rw [hplace] at hfits hhanded
      have hreports : s.place.reports = (ofActive call).reports := by
        rw [hplace, reports_ofActive]
        rfl
      obtain ⟨hsome, hd, hres⟩ := ended_retirement h.shape hm (.inr ⟨call, rfl, rfl⟩)
      refine h.of_ended hm hreports (fun hr => ?_) (isSettled_ofActive call)
        (.of_rests (isSettled_ofActive call) (hfits.of_same hsome hd) (hd ▸ hsome))
      rw [reports_ofActive]
      exact hhanded.2 (hres ▸ hr)
    · cases hs
  · cases hs

/-! ### What comes from outside -/

theorem arrive (h : Tracks turn s) {lanes : Lanes P} (hs : s.arrive lanes = some s') :
    Tracks turn s' := by
  unfold Execution.arrive at hs
  split at hs
  · next hplace => exact h.of_same hplace hs rfl trivial id fun hf => hf
  · next hplace =>
    exact h.of_same hplace hs rfl trivial id fun hf => ⟨hf.received, hf.waiting, hf.atPoint⟩
  · next call point hplace =>
    split at hs
    · exact h.of_same hplace hs (call.reports_map fun _ => rfl) trivial id (·.map fun _ => rfl)
    · cases hs
  · cases hs

theorem cancel (h : Tracks turn s) (hs : s.cancel = some s') : Tracks turn s' := by
  unfold Execution.cancel at hs
  split at hs
  · next hplace => exact h.of_same hplace hs rfl trivial id fun hf => hf
  · next call point hplace =>
    exact h.of_same hplace hs (call.reports_map fun _ => rfl) trivial id (·.map fun _ => rfl)
  · next hplace => exact h.of_same hplace hs rfl trivial id fun hf => hf
  · next hplace =>
    exact h.of_same hplace hs rfl trivial id fun hf => ⟨hf.received, hf.waiting, hf.atPoint⟩
  · cases hs

/-! ### Runs -/

theorem of_guard (h : Tracks turn s) (hc : s'.config = s.config) (hp : s'.place = s.place)
    (hch : s'.channel = s.channel) : Tracks turn s' := by
  obtain ⟨config, place, _, channel, _, _, _⟩ := s'
  subst hc hp hch
  exact ⟨h.shape, h.reporting, h.residual, h.handed, h.point, h.fits⟩

theorem dropTerminal (h : Tracks turn s) (panicking : Bool) :
    Tracks turn (s.dropTerminal panicking) := by
  unfold Execution.dropTerminal
  split
  all_goals exact h.of_guard rfl rfl rfl

/-- **A step keeps track of the selection.** -/
theorem step {op} (h : Tracks turn s) (hs : Execution.step s op = some s') :
    Tracks (nextTurn turn ⟨s, op, s'⟩) s' := by
  unfold Execution.step at hs
  split at hs
  · cases hs
  · cases op with
    | drive => exact h.drive hs
    | activate => exact h.activate hs
    | initialized => exact h.initialized hs
    | acknowledged => exact h.acknowledged hs
    | apply => exact h.apply hs
    | commit => exact h.commit hs
    | retire => exact h.retire hs
    | ended => exact h.ended hs
    | arrive => exact h.arrive hs
    | cancel => exact h.cancel hs
    | serve =>
      simp only [Execution.advance] at hs
      split at hs
      · next hplace => exact h.of_same hplace hs rfl trivial id fun hf => hf
      · cases hs
    | complete =>
      simp only [Execution.advance] at hs
      split at hs
      · cases hs
        exact (h.of_guard rfl rfl rfl : Tracks turn (s.takeTerminal _)).dropTerminal false
      · cases hs
    | cut panicking =>
      simp only [Execution.advance] at hs
      split at hs
      · cases hs
      · cases hs
        exact h.dropTerminal panicking

theorem run {b} {commitment : Bool} {tr}
    (h : Run Execution.step (.start b commitment) tr s) : Tracks (lastTurn tr) s := by
  refine h.history (start b commitment) ?_
  intro tr t op u _ ih hstep
  rw [lastTurn_snoc]
  exact ih.step hstep

/-- What a retired driver leaves behind: its disposition, and the selection in the channel. -/
theorem rests_of_received (h : Tracks turn s) {r} (hp : s.config.point = .received (.ok r)) :
    Rests turn s.config.driver (s.channel.value.elim .unselected .selected) ∧
      s.channel.sender = false ∧ s.config.driver.disposition = some r.disposition := by
  obtain ⟨_, hres, hdisp, _⟩ := deliver_ok (h.shape.reply _ hp).symm
  have hnone := h.residual (by rw [hres]; rfl)
  have hfits := h.fits
  have hpoint := h.point
  rw [Execution.selection, hnone] at hfits
  refine ⟨?_, h.reporting.retired hnone, hdisp⟩
  cases hplace : s.place with
  | prepared | active =>
    rw [hplace] at hfits
    exact hfits.1
  | retiringPrepared | retiringActive | gone =>
    rw [hplace] at hfits
    exact hfits
  | activating | applying =>
    rw [hplace] at hpoint
    cases hp.symm.trans hpoint

end Tracks

/-! ## The guard -/

/-- The guard is there until the future is over, and publishes when it goes. -/
structure Published (s : Execution P) : Prop where
  guard : s.terminal = !s.finished
  before : s.finished = false → s.published = []
  after : s.finished = true → ∃ outcome,
    s.published = [(outcome, LocalRetirement.retire s.channel outcome)] ∧
      ∀ r, outcome = .retired r → s.config.point = .received (.ok r)

theorem guard_of_map {α : Type} {o : Option α} {f : α → Execution P} (hs : o.map f = some s')
    (hf : ∀ x, (f x).terminal = s.terminal ∧ (f x).finished = s.finished ∧
      (f x).published = s.published) :
    s'.terminal = s.terminal ∧ s'.finished = s.finished ∧ s'.published = s.published := by
  obtain ⟨x, _, rfl⟩ := map_eq_some_iff.mp hs
  exact hf x

variable {op : ExecutionOp P}

theorem advance_guard (hs : s.advance op = some s') (hc : op ≠ .complete)
    (hcut : ∀ panicking, op ≠ .cut panicking) :
    s'.terminal = s.terminal ∧ s'.finished = s.finished ∧ s'.published = s.published := by
  cases op with
  | complete => exact absurd rfl hc
  | cut panicking => exact absurd rfl (hcut panicking)
  | commit =>
    simp only [Execution.advance, Execution.commit] at hs
    split at hs
    · obtain ⟨_, _, hs⟩ := bind_eq_some_iff.mp hs
      exact guard_of_map hs fun _ => ⟨rfl, rfl, rfl⟩
    · exact guard_of_map hs fun _ => ⟨rfl, rfl, rfl⟩
    · cases hs
  | _ =>
    simp only [Execution.advance, Execution.activate, Execution.apply, Execution.initialized,
      Execution.acknowledged, Execution.retire, Execution.ended, Execution.arrive,
      Execution.cancel] at hs
    (repeat' split at hs) <;> first
      | exact guard_of_map hs fun _ => ⟨rfl, rfl, rfl⟩
      | cases hs <;> exact ⟨rfl, rfl, rfl⟩

theorem Published.step (h : Published s) (hs : Execution.step s op = some s') :
    Published s' := by
  unfold Execution.step at hs
  split at hs
  · cases hs
  · rename_i hrunning
    have hrunning : s.finished = false := by simpa using hrunning
    have hguard : s.terminal = true := by rw [h.guard, hrunning]; rfl
    have hempty := h.before hrunning
    cases op with
    | complete =>
      simp only [Execution.advance] at hs
      split at hs
      · rename_i r hpoint
        cases hs
        refine ⟨rfl, fun hn => absurd hn.symm Bool.false_ne_true, fun _ =>
          ⟨.retired r, ?_, fun r' hr => ?_⟩⟩
        · change s.published ++ _ = _
          rw [hempty]
          rfl
        · cases hr
          exact hpoint
      · cases hs
    | cut panicking =>
      simp only [Execution.advance] at hs
      split at hs
      · cases hs
      · cases hs
        rw [Execution.dropTerminal, hguard]
        refine ⟨rfl, fun hn => absurd hn.symm Bool.false_ne_true, fun _ =>
          ⟨if panicking then .panicked else .cancelled, ?_, fun r hr => ?_⟩⟩
        · change s.published ++ _ = _
          rw [hempty]
          rfl
        · cases panicking <;> cases hr
    | _ =>
      obtain ⟨hterm, hfinished, hpub⟩ := advance_guard hs nofun nofun
      refine ⟨by rw [hterm, hfinished]; exact h.guard, fun _ => hpub.trans hempty, fun hf => ?_⟩
      rw [hfinished, hrunning] at hf
      cases hf

variable {b : P.Behavior} {commitment : Bool} {tr : ExecutionHistory P}

theorem published_run (h : Run Execution.step (.start b commitment) tr s) : Published s :=
  h.invariant (P := Published) ⟨rfl, fun _ => rfl, nofun⟩ fun _ _ _ ht hstep => ht.step hstep

variable {outcome : ActorExecutionOutcome P}

theorem Published.of_mem (h : Published s) {p} (hp : (outcome, p) ∈ s.published) :
    p = LocalRetirement.retire s.channel outcome ∧
      ∀ r, outcome = .retired r → s.config.point = .received (.ok r) := by
  cases hf : s.finished with
  | false =>
    rw [h.before hf] at hp
    cases hp
  | true =>
    obtain ⟨outcome', heq, hpoint⟩ := h.after hf
    rw [heq] at hp
    cases List.mem_singleton.mp hp
    exact ⟨rfl, hpoint⟩

/-! ## The law -/

/-- The termination that belongs to a disposition, when the actor did not stop by itself. -/
def dispositionTermination : Disposition P.port → P.Termination
  | .ok .stopped => .ok P.normal
  | .ok .exhausted => .ok P.collected
  | .ok (.retirementRequested .ownerCancellation) => .error P.cancelled
  | .ok (.retirementRequested (.capabilityFailed _)) => .error P.capabilityFailed
  | .error (.behavior _) => .error P.failed
  | .error (.activation (.hostCommitPanicked _)) => .error P.panicked
  | .error (.activation _) | .error .interpreterContractFailed | .error (.settlement _) =>
    .error P.environmentFailed
  | .error (.initializationPanicked _) | .error (.transitionPanicked _)
  | .error (.hostExecutionPanicked _) | .error (.activationPanicked _)
  | .error (.retirementPanicked _) => .error P.panicked

/-- The termination of an outcome, when the actor did not stop by itself. -/
def outcomeTermination : ActorExecutionOutcome P → P.Termination
  | .retired r => dispositionTermination r.disposition
  | .panicked => .error P.panicked
  | .cancelled => .error P.cancelled

/-- Every outcome but an own stop is published without a look at the channel. -/
theorem retire_of_not_stopped (channel : Oneshot P.Termination)
    (h : ∀ r, outcome = .retired r → r.disposition ≠ .ok .stopped) :
    LocalRetirement.retire channel outcome = some (outcomeTermination outcome) := by
  cases outcome with
  | panicked | cancelled => rfl
  | retired r =>
    obtain ⟨behavior, residual, disposition, failures⟩ := r
    have hne := h _ rfl
    cases disposition with
    | ok completion =>
      cases completion with
      | stopped => exact absurd rfl hne
      | exhausted => rfl
      | retirementRequested request => cases request <;> rfl
    | error e =>
      cases e with
      | activation rejection => cases rejection <;> rfl
      | _ => rfl

theorem retire_of_stopped {channel} {r}
    (hr : r.disposition = .ok .stopped) (hsender : channel.sender = false) :
    LocalRetirement.retire channel (.retired r) = some (channel.value.getD (.ok P.normal)) := by
  obtain ⟨behavior, residual, disposition, failures⟩ := r
  cases hr
  obtain ⟨sender, receiver, value⟩ := channel
  cases hsender
  cases value <;> rfl

/-- The law of the published outcome, for a run of an actor that led to `s`. -/
structure OutcomeLaw (tr : ExecutionHistory P) (s : Execution P) : Prop where
  /-- One publication for one future, and none before it is over. -/
  once : s.published.length = if s.finished then 1 else 0
  /-- The guard finds its capability. -/
  guarded : ∀ x ∈ tr, x.source.terminal = true
  /-- An actor that stopped by itself ends with the first report of its stopping turn. -/
  stopped : ∀ r p, (.retired r, p) ∈ s.published → r.disposition = .ok .stopped →
    ∃ a reports, lastTurn tr = some (a, reports) ∧ P.become_ a = .stop ∧
      p = some (reports.head?.getD (.ok P.normal))
  /-- Every other end is published as its disposition has it. -/
  other : ∀ outcome p, (outcome, p) ∈ s.published →
    (∀ r, outcome = .retired r → r.disposition ≠ .ok .stopped) →
      p = some (outcomeTermination outcome)
  /-- A report that is sent is received. -/
  accepted : ∀ x ∈ tr, ∀ (r : LocalTerminalReports P) publication,
    (r.receiveRetirement x.source.channel publication).refused = false

theorem value_eq_head? {reports : List P.Termination} {value : Option P.Termination}
    (h : value.elim unselected .selected = .ofReports reports) :
    value = reports.head? := by
  rw [ofReports_eq] at h
  cases value with
  | none =>
    cases hr : reports.head? with
    | none => rfl
    | some => rw [hr] at h; cases h
  | some =>
    cases hr : reports.head? with
    | none => rw [hr] at h; cases h
    | some => rw [hr] at h; cases h; rfl

/-- **Which outcome an actor publishes.** -/
theorem published_outcome {b : P.Behavior} {commitment : Bool} {tr : ExecutionHistory P}
    (h : Run Execution.step (.start b commitment) tr s) : OutcomeLaw tr s := by
  have htracks := Tracks.run h
  have hpub := published_run h
  refine ⟨?_, fun x hx => ?_, fun r p hp hr => ?_, fun outcome p hp hne => ?_,
    fun x hx r publication => ?_⟩
  · cases hf : s.finished with
    | false => rw [hpub.before hf]; rfl
    | true =>
      obtain ⟨_, heq, _⟩ := hpub.after hf
      rw [heq]
      rfl
  · obtain ⟨pre, post, rfl, hpre, hstep⟩ := h.of_mem hx
    have hsource := published_run hpre
    cases hf : x.source.finished with
    | false => rw [hsource.guard, hf]; rfl
    | true =>
      rw [Execution.step, hf] at hstep
      cases hstep
  · obtain ⟨hp', hpoint⟩ := hpub.of_mem hp
    obtain ⟨hrests, hsender, hdisp⟩ := htracks.rests_of_received (hpoint r rfl)
    obtain ⟨a, reports, hturn, hstop, hsel⟩ := hrests.stopped (hdisp.trans (congrArg some hr))
    refine ⟨a, reports, hturn, hstop, ?_⟩
    rw [hp', retire_of_stopped hr hsender, value_eq_head? hsel]
  · rw [(hpub.of_mem hp).1]
    exact retire_of_not_stopped s.channel hne
  · obtain ⟨pre, post, rfl, hpre, _⟩ := h.of_mem hx
    exact r.not_refused (Tracks.run hpre).reporting.receiver publication

/-- An actor that continues after its first turn, which reports `5`, and stops in its second one,
which reports `7` and then `8` before and after a pending poll. -/
def twoTurns : List (ExecutionOp numberActor) :=
  [.drive .receiveRun, .drive .advance, .drive (.folded 0 (.ok 1)), .drive .advance, .activate,
    .initialized ⟨.ok (), true⟩, .commit ⟨[.ok 5], .completed (.complete 1), [], 0, some .accepted⟩,
    .ended (.reply () none), .drive .advance, .drive (.classified (.ok .accepted)), .drive .advance,
    .drive .advance, .drive .advance, .drive
      (.completed (.source none (some (.retained 1))) (.reply () none)),
    .drive .advance, .drive .advance, .drive .advance, .drive (.published (.ok (.cont ()))),
    .drive .advance, .drive .advance, .drive (.acquired (.reply (.cont (some 6)) none)),
      .drive .advance,
    .drive .advance, .drive (.folded 0 (.ok 0)), .apply,
      .commit ⟨[.ok 7], .interpreting 0, [], 0, none⟩,
    .commit ⟨[.ok 8], .completed (.complete 2), [], 0, some .accepted⟩, .ended (.reply () none),
    .drive .advance, .drive (.classified (.ok .accepted)), .drive .advance,
    .retire ⟨true, none, [], [], .clear, 0, [], false⟩, .ended (.reply () none),
      .drive .advance, .complete]

theorem published_outcome_of_two_turns :
    ∃ tr s, Run Execution.step (Execution.start (P := numberActor) 0 false) tr s ∧ OutcomeLaw tr s ∧
      s.published.map Prod.snd = [some (.ok 7)] := by
  have h : ((exec Execution.step (Execution.start (P := numberActor) 0 false) twoTurns).map fun p =>
      p.2.published.map Prod.snd) = some [some (.ok 7)] := rfl
  obtain ⟨⟨tr, s⟩, hexec, heq⟩ := map_eq_some_iff.mp h
  exact ⟨tr, s, exec_run hexec, published_outcome (exec_run hexec), heq⟩

end Local
