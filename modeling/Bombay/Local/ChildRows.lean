import Bombay.Local.Children

/-!
# One row in retirement

The future that receives a row can be dropped whenever it is pending, and the row is then taken up
again by another one.  `Slots.Stage` lists the shapes its slots can have in between, and `Held` the
shapes of a row that owns something.  A row that is held is received without a panic: it is
suspended, only because a poll was pending, or it hands out one result (`Held.receive`).
-/

set_option autoImplicit false

namespace Local

open Engine CreationBinding

/-! ## Slots -/

section Slots

variable {R N : Type} {s : Slots R N} {join : Option R} {note : Option N}

/-- The task runs; it was joined and its notification is awaited; both were received. -/
inductive Slots.Stage : Slots R N → Prop
  | running (c : OwnerCancellationAuthority) : Stage ⟨some ⟨true, c⟩, none, none⟩
  | joined (c : OwnerCancellationAuthority) (r : R) : Stage ⟨some ⟨false, c⟩, some r, none⟩
  | complete (r : R) (n : N) : Stage ⟨none, some r, some n⟩

/-- A poll leads from stage to stage.  It is ready with both facts received, and if the handle and
the receiver are ready it is. -/
structure Slots.Polled (join : Option R) (note : Option N) (polled : Slots R N × Bool) : Prop where
  stage : polled.1.Stage
  complete : polled.2 = true → polled.1.complete = true
  ready : join.isSome → note.isSome → polled.2 = true

theorem Slots.Stage.poll (h : s.Stage) : Slots.Polled join note (s.poll join note) := by
  cases h with
  | running c =>
    cases join with
    | none => exact ⟨.running c, by simp [Slots.poll], by simp⟩
    | some r =>
      cases note with
      | none => exact ⟨.joined _ r, by simp [Slots.poll, pollNotice], by simp⟩
      | some n => exact ⟨.complete r n, fun _ => rfl, fun _ _ => rfl⟩
  | joined c r =>
    cases note with
    | none => exact ⟨.joined c r, by simp [Slots.poll, pollNotice], by simp⟩
    | some n => exact ⟨.complete r n, fun _ => rfl, fun _ _ => rfl⟩
  | complete r n => exact ⟨.complete r n, fun _ => rfl, fun _ _ => rfl⟩

theorem Slots.Stage.request (h : s.Stage) : s.request.Stage := by
  cases h with
  | running => exact .running _
  | joined _ r => exact .joined _ r
  | complete r n => exact .complete r n

theorem Slots.Stage.receiveFinish (h : s.Stage) :
    Slots.Polled join note (s.receiveFinish join note) := by
  rw [Slots.receiveFinish]
  split
  · cases h with
    | running | joined => contradiction
    | complete r n => exact (Slots.Stage.complete r n).poll
  · exact h.poll

theorem Slots.Stage.ownedRetirement (h : s.Stage) :
    Slots.Polled join note (s.ownedRetirement join note) := by
  cases h with
  | running c => exact (Slots.Stage.running c).request.receiveFinish
  | joined c r => exact (Slots.Stage.joined c r).receiveFinish
  | complete r n => exact (Slots.Stage.complete r n).receiveFinish

theorem Slots.Stage.projectedRetirement (h : s.Stage) :
    Slots.Polled join note (s.projectedRetirement join note) := by
  cases h with
  | running c => exact (Slots.Stage.running c).request.poll
  | joined c r => exact (Slots.Stage.joined c r).poll
  | complete r n => exact (Slots.Stage.complete r n).poll

theorem Slots.Stage.of_complete (h : s.Stage) (hc : s.complete = true) :
    ∃ r n, s = ⟨none, some r, some n⟩ := by
  cases h with
  | running | joined => contradiction
  | complete r n => exact ⟨r, n, rfl⟩

end Slots

/-! ## Rows -/

variable {P : ChildPort}

/-- The rows that own something. -/
inductive CreationBinding.Held : CreationBinding P → Prop
  | starting (site : Site P) (c : OwnerCancellationAuthority) :
      Held (.starting site (some ⟨true, c⟩))
  | raw (site : Site P) {slots : Slots (Joined P) (Notification P.child)} (h : slots.Stage) :
      Held (.retiringStartup site (.raw slots))
  | projection (site : Site P) (n : Notification P.child) (report : ActorRetirementReport) :
      Held (.retiringStartup site (.projection true none n report))
  | established (site : Site P) (installed : P.Installed)
      {slots : Slots (Projected P) (Receipts P)} (h : slots.Stage) :
      Held (.established site installed slots)
  | startupRejected (site : Site P) {evidence : StartupEvidence P} (h : evidence.retained = true) :
      Held (.startupRejected site evidence)

/-- The child's private commitment is awaited. -/
def CreationBinding.isStarting : CreationBinding P → Bool
  | starting .. => true
  | _ => false

/-- Every poll is answered with a value. -/
def Answer.ready (a : Answer P) : Bool :=
  a.projected.isSome && a.receipts.isSome && a.joined.isSome && a.notification.isSome &&
    a.projection.isSome

/-- **What a row may hand out**: one root, or one root and after it one failure of a notification
about the same creation, or one other failure of that creation. -/
inductive Emission.Exact (id : P.Id) : Emission P → Prop
  | root (r : P.Root) : Exact id ⟨some r, none⟩
  | notified (r : P.Root) (f : ChildFailure P) (hf : f.isNotification = true)
      (hid : f.origin.id = id) :
      Exact id ⟨some r, some f⟩
  | failure (f : ChildFailure P) (hf : f.isNotification = false) (hid : f.origin.id = id) :
      Exact id ⟨none, some f⟩

/-- How a row that is held leaves the loop. -/
def RowPoll.Fine (id : P.Id) (a : Answer P) : RowPoll P → Prop
  | .suspended row _ => row.Held ∧ row.isStarting = false ∧ a.ready = false
  | .extracted row _ => ∃ e, row.emit id = some e ∧ e.Exact id
  | .returned .. | .panicked => False

variable {row : CreationBinding P}

theorem CreationBinding.Held.requestRetirement (h : row.Held) : row.requestRetirement.Held := by
  cases h with
  | starting site => exact .starting site _
  | raw site h => exact .raw site h.request
  | projection site n report => exact .projection site n report
  | established site installed h => exact .established site installed h.request
  | startupRejected site h => exact .startupRejected site h

namespace RowPoll

variable {id : P.Id} {a : Answer P} {report : ActorRetirementReport}

variable {site : Site P} {installed : P.Installed} {slots : Slots (Projected P) (Receipts P)}

theorem fine_established {report'} (h : slots.Stage) (hc : slots.complete = true) :
    Fine id a (.extracted (.established site installed slots) report') := by
  obtain ⟨joined, notifications, rfl⟩ := h.of_complete hc
  rcases joined with error | (error | terminal)
  · exact ⟨_, rfl, .failure _ rfl rfl⟩
  · exact ⟨_, rfl, .failure _ rfl rfl⟩
  · rcases notifications with error | receipts
    · exact ⟨_, rfl, .notified terminal _ rfl rfl⟩
    · cases hr : receipts.hasFailures with
      | false => exact ⟨⟨some terminal, none⟩, by simp [emit, hr], .root terminal⟩
      | true =>
        exact ⟨⟨some terminal, some (.notificationsFailed ⟨site, id⟩ installed (.ok receipts))⟩,
          by simp [emit, hr], .notified terminal _ rfl rfl⟩

theorem fine_projection {task : Bool} {received} {n} {retirementReport}
    (h : task = true ∧ received = none) :
    Fine id a (receiveProjection a report site task received n retirementReport) := by
  obtain ⟨rfl, rfl⟩ := h
  cases hp : a.projection with
  | none =>
    simp only [receiveProjection, hp]
    exact ⟨.projection site n retirementReport, rfl, by simp [Answer.ready, hp]⟩
  | some joined =>
    simp only [receiveProjection, hp]
    rcases joined with error | terminal
    · exact ⟨_, rfl, .failure _ rfl rfl⟩
    · rcases n with error | ⟨⟩
      · exact ⟨_, rfl, .notified terminal _ rfl rfl⟩
      · exact ⟨_, rfl, .root terminal⟩

variable {entering : Bool}

theorem fine_startup {slots} (h : slots.Stage) :
    Fine id a (receiveStartup entering a report site (.raw slots)) := by
  have hp : Slots.Polled a.joined (a.notification.map unwrapNotification)
      (if entering then slots.ownedRetirement a.joined (a.notification.map unwrapNotification)
        else slots.poll a.joined (a.notification.map unwrapNotification)) := by
    split
    · exact h.ownedRetirement
    · exact h.poll
  simp only [receiveStartup]
  generalize (if entering then slots.ownedRetirement a.joined
    (a.notification.map unwrapNotification)
    else slots.poll a.joined (a.notification.map unwrapNotification)) = polled at hp
  obtain ⟨slots, ready⟩ := polled
  cases ready with
  | false =>
    refine ⟨.raw site hp.stage, rfl, ?_⟩
    -- a ready answer would have been a ready poll
    have hready := hp.ready
    cases hj : a.joined <;> cases hn : a.notification <;> simp_all [Answer.ready]
  | true =>
    obtain ⟨joined, n, rfl⟩ := hp.stage.of_complete (hp.complete rfl)
    cases joined with
    | error => exact ⟨_, rfl, .failure _ rfl rfl⟩
    | ok => exact fine_projection ⟨rfl, rfl⟩

theorem fine_live (h : slots.Stage) :
    Fine id a (receiveEstablished entering a report site installed slots) := by
  have hp : Slots.Polled a.projected a.receipts
      (if entering then slots.projectedRetirement a.projected a.receipts
        else slots.poll a.projected a.receipts) := by
    split
    · exact h.projectedRetirement
    · exact h.poll
  simp only [receiveEstablished]
  generalize (if entering then slots.projectedRetirement a.projected a.receipts
    else slots.poll a.projected a.receipts) = polled at hp
  obtain ⟨slots, ready⟩ := polled
  cases ready with
  | false =>
    refine ⟨.established site installed hp.stage, rfl, ?_⟩
    have hready := hp.ready
    cases hj : a.projected <;> cases hn : a.receipts <;> simp_all [Answer.ready]
  | true =>
    have hc : slots.complete = true := hp.complete rfl
    simp only [hc]
    exact fine_established hp.stage hc

theorem fine_startupRejected {evidence} :
    Fine id a (.extracted (.startupRejected site evidence) report) := by
  show ∃ e, emit id (.startupRejected site evidence) = some e ∧ e.Exact id
  rw [emit]
  split
  all_goals exact ⟨_, rfl, .failure _ rfl rfl⟩

end RowPoll

/-- **A row that is held is received**: it is suspended, only because a poll was pending, or it is
taken out and hands out exactly one result. -/
theorem CreationBinding.Held.receive {id : P.Id} {a : Answer P} {report}
    (h : row.Held) {entering : Bool} (hs : entering = false → row.isStarting = false) :
    (row.receive entering a report).Fine id a := by
  cases h with
  | starting site c =>
    cases entering with
    | false => exact absurd (hs rfl) (by simp [isStarting])
    | true =>
      show RowPoll.Fine id a (receiveStartup true a report site (.raw (.fresh (some ⟨true, c⟩))))
      exact RowPoll.fine_startup (.running c)
  | raw _ h => exact RowPoll.fine_startup h
  | projection => exact RowPoll.fine_projection ⟨rfl, rfl⟩
  | established _ _ h => exact RowPoll.fine_live h
  | startupRejected => exact RowPoll.fine_startupRejected

end Local
