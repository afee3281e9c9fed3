import Bombay.Local.Outcome

/-!
# The termination of an actor

While the actions of a turn are interpreted they may report how the actor is to end.  The
interpreter selects the first report of a turn, forgets it when the turn continues, and keeps it
when the turn stops the actor.  At retirement the selection goes through a oneshot channel to the
owner of the publication, which reads it when the actor stopped by its own decision; every other end
has a termination of its own.
-/

set_option autoImplicit false

namespace Local

open Engine

/-! ## A oneshot channel -/

/-- A oneshot channel: whether its ends are there, and the value that was sent. -/
structure Oneshot (T : Type) where
  sender : Bool
  receiver : Bool
  value : Option T
  deriving DecidableEq, Repr

/-- What `try_recv` answers. -/
inductive TryRecv (T : Type)
  | value (t : T)
  | empty
  | closed
  deriving DecidableEq, Repr

namespace Oneshot

variable {T : Type} (c : Oneshot T)

/-- A channel that has just been made. -/
def new : Oneshot T := ⟨true, true, none⟩

/-- `Sender::send`: without a receiver the value comes back. -/
def send (t : T) : Oneshot T × Except T Unit :=
  if c.receiver then (⟨false, true, some t⟩, .ok ()) else (⟨false, false, c.value⟩, .error t)

/-- The sender is dropped. -/
def dropSender : Oneshot T := { c with sender := false }

/-- `try_recv`. -/
def tryRecv : TryRecv T :=
  match c.value with
  | some t => .value t
  | none => if c.sender then .empty else .closed

end Oneshot

variable {P : ActorPort}

/-! ## The selection -/

/-- What `finish` does to a selection. -/
inductive TerminalReportDisposition
  | retain
  | discard
  deriving DecidableEq, Repr

/-- The outcome selected in a turn. -/
inductive TerminationSelection (P : ActorPort)
  | unselected
  | selected (outcome : P.Termination)

namespace TerminationSelection

/-- The first outcome is selected. -/
def select (s : TerminationSelection P) (outcome : P.Termination) : TerminationSelection P :=
  match s with
  | unselected => selected outcome
  | selected first => selected first

/-- A selection that is not retained is dropped. -/
def finish (s : TerminationSelection P) : TerminalReportDisposition → TerminationSelection P
  | .retain => s
  | .discard => unselected

/-- The selection after the given reports of a turn. -/
def ofReports (reports : List P.Termination) : TerminationSelection P :=
  reports.foldl select unselected

theorem foldl_selected (reports : List P.Termination) (first : P.Termination) :
    reports.foldl select (selected first) = selected first := by
  induction reports with
  | nil => rfl
  | cons _ _ ih => exact ih

theorem ofReports_eq (reports : List P.Termination) :
    ofReports reports = reports.head?.elim unselected selected := by
  cases reports with
  | nil => rfl
  | cons first rest => exact foldl_selected rest first

theorem ofReports_append (reports more : List P.Termination) :
    more.foldl select (ofReports reports) = ofReports (reports ++ more) :=
  List.foldl_append.symm

end TerminationSelection

/-- `LocalTerminalReports`: the selection, and whether the sender of the channel is still there. -/
structure LocalTerminalReports (P : ActorPort) where
  selection : TerminationSelection P
  report : Bool

namespace LocalTerminalReports

variable (r : LocalTerminalReports P)

/-- Nothing is selected. -/
def new : LocalTerminalReports P := ⟨.unselected, true⟩

/-- An outcome is reported. -/
def reportOutcome (outcome : P.Termination) : LocalTerminalReports P :=
  { r with selection := r.selection.select outcome }

theorem foldl_selection (reports : List P.Termination) :
    (reports.foldl reportOutcome r).selection = reports.foldl .select r.selection := by
  induction reports generalizing r with
  | nil => rfl
  | cons outcome _ ih => exact ih (r.reportOutcome outcome)

theorem foldl_report (reports : List P.Termination) :
    (reports.foldl reportOutcome r).report = r.report := by
  induction reports generalizing r with
  | nil => rfl
  | cons outcome _ ih => exact ih (r.reportOutcome outcome)

/-- The selection of a turn is retained or dropped. -/
def finish (disposition : TerminalReportDisposition) : LocalTerminalReports P :=
  { r with selection := r.selection.finish disposition }

/-- What `receive_retirement` leaves: the reports, the channel, the result of sending, and whether
it came to its `unreachable!`. -/
structure Retired (P : ActorPort) where
  reports : LocalTerminalReports P
  channel : Oneshot P.Termination
  publication : Option (Except P.Termination Unit)
  refused : Bool

/-- The report is sent, once. -/
def receiveRetirement (channel : Oneshot P.Termination)
    (publication : Option (Except P.Termination Unit)) : Retired P :=
  if publication.isSome then ⟨r, channel, publication, false⟩
  else
    match r.selection, r.report with
    | .selected _, false => ⟨r, channel, publication, false⟩
    | .unselected, report =>
      ⟨⟨.unselected, false⟩, if report then channel.dropSender else channel, publication, false⟩
    | .selected outcome, true =>
      match channel.send outcome with
      | (channel, .ok ()) => ⟨⟨.unselected, false⟩, channel, some (.ok ()), false⟩
      | (channel, .error outcome) => ⟨⟨.unselected, false⟩, channel, some (.error outcome), true⟩

/-- Nothing is left to report. -/
def retirementComplete : Bool :=
  match r.selection, r.report with
  | .unselected, false => true
  | _, _ => false

end LocalTerminalReports

/-! ## The publication -/

/-- The termination of every end but an actor's own stop, as `publish` has it; the owner's request
is published elsewhere. -/
def terminationOf : ActorExecutionOutcome P → Option P.Termination
  | .retired r =>
    match r.disposition with
    | .ok .stopped => some (.ok P.normal)
    | .ok .exhausted => some (.ok P.collected)
    | .ok (.retirementRequested _) => none
    | .error (.behavior _) => some (.error P.failed)
    | .error (.initializationPanicked _) | .error (.transitionPanicked _)
    | .error (.hostExecutionPanicked _) | .error (.activationPanicked _)
    | .error (.retirementPanicked _) => some (.error P.panicked)
    | .error (.activation _) | .error .interpreterContractFailed | .error (.settlement _) =>
      some (.error P.environmentFailed)
  | .panicked => some (.error P.panicked)
  | .cancelled => some (.error P.cancelled)

/-- `TerminationPublication::publish`.  `none` stands for its two `unreachable!`. -/
def publish (selectedReport : Oneshot P.Termination) (outcome : ActorExecutionOutcome P) :
    Option P.Termination :=
  match outcome with
  | .retired ⟨_, _, .ok .stopped, _⟩ =>
    match selectedReport.tryRecv with
    | .value selected => some selected
    | .closed => terminationOf outcome
    | .empty => none
  | outcome => terminationOf outcome

/-- `LocalRetirement::retire`, as far as the publication goes. -/
def LocalRetirement.retire (selectedReport : Oneshot P.Termination)
    (outcome : ActorExecutionOutcome P) : Option P.Termination :=
  match outcome with
  | .retired ⟨_, _, .ok (.retirementRequested .ownerCancellation), _⟩ => some (.error P.cancelled)
  | .retired ⟨_, _, .ok (.retirementRequested (.capabilityFailed _)), _⟩ =>
    some (.error P.capabilityFailed)
  | .retired ⟨_, _, .error (.activation (.hostCommitPanicked _)), _⟩ => some (.error P.panicked)
  | outcome => publish selectedReport outcome

end Local
