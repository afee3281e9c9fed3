import Mathlib.Data.List.Induction
import Bombay.Local.Children
import Bombay.Local.Environment

/-!
# What the report of an actor says about its subtree

Every actor of a tree leaves an outcome behind, and its creator reads a report from it.  In that
report the actor's own residual is summed up together with the reports of its children, as
`receive_retirement` found them row by row; of a child nothing but its report goes in.

`ActorTree` is a finished tree: each actor with the result of its task, the classes of the
settlements it committed, and what became of every creation that it recorded.  The reports are
computed by the functions of the code.  A good report then vouches for the whole subtree: that no
task of it is left behind (`AllJoined`), or that nothing in it failed (`Faultless`).
-/

set_option autoImplicit false

namespace Local

open Engine
open ActorFailureAssessment (combine_eq_noFailuresFound found_eq_noFailuresFound)
open ActorRetirementReport (combine_established)

/-! ## Finished trees -/

mutual

/-- An actor with its descendants. -/
inductive ActorTree : ActorPort → Type 1
  | actor {P : ActorPort} (joined : Except P.JoinError (ActorExecutionOutcome P))
      (notification : Notification P) (committed : List SettlementStatus) (children : ChildTrees) :
      ActorTree P

/-- The creations that an actor recorded, in their order. -/
inductive ChildTrees : Type 1
  | nil
  /-- Its address was not allocated. -/
  | rejected (rest : ChildTrees)
  /-- The startup failed, and the creation kept what was left of it. -/
  | refused {P : ChildPort} (child : ActorTree P.child) (rest : ChildTrees)
  /-- The startup was still awaited, or its task was not joined, when the parent retired. -/
  | starting {P : ChildPort} (site : Site P) (child : ActorTree P.child)
      (projection : Except P.child.JoinError P.Root) (rest : ChildTrees)
  /-- The task that joins the child and projects its outcome ended with `projected`; it may have
  ended before it published the child's report. -/
  | established {P : ChildPort} (site : Site P) (installed : P.Installed)
      (child : ActorTree P.child) (projected : Projected P) (receipts : Receipts P)
      (published : Bool) (rest : ChildTrees)

end

/-- The residual as capability retirement filled it in. -/
def ActorExecutionOutcome.reporting {P : ActorPort} (operations : ActorFailureAssessment)
    (descendants : ActorRetirementReport) : ActorExecutionOutcome P → ActorExecutionOutcome P
  | retired r =>
    let residual : LocalResidual P := r.residual
    retired { r with
      residual := { residual with
        operationFailures := operations
        descendantReport := descendants } }
  | other => other

/-- The failures that the commits of an actor found. -/
def assessed (committed : List SettlementStatus) : ActorFailureAssessment :=
  committed.foldl (fun f status => f.combine (Capabilities.failuresOf status)) .noFailuresFound

/-- The report once the loop of `receive_retirement` has gone through a row, with every poll
answered. -/
def receivedReport {P : ChildPort} (row : CreationBinding P) (a : Answer P)
    (report : ActorRetirementReport) : ActorRetirementReport :=
  match row.receive true a report with
  | .suspended _ r | .returned _ r | .extracted _ r => r
  | .panicked => report

/-- The answer to the polls of a startup's row. -/
def startupAnswer {C : ChildPort} (joined : Joined C) (notification : Notification C.child)
    (projection : Except C.child.JoinError C.Root) : Answer C :=
  ⟨none, none, none, some joined, some (.ok notification), some projection⟩

/-- The answer to the polls of an established child's row. -/
def establishedAnswer {C : ChildPort} (projected : Projected C) (receipts : Receipts C)
    (published : Bool) (own : ActorRetirementReport) : Answer C :=
  ⟨some projected, some receipts, if published then some own else none, none, none, none⟩

/-- The answer of an actor's termination notification. -/
def ActorTree.notification {P : ActorPort} : ActorTree P → Notification P
  | .actor _ notification _ _ => notification

mutual

/-- What joining the task of an actor gives. -/
def ActorTree.outcome {P : ActorPort} : ActorTree P → Except P.JoinError (ActorExecutionOutcome P)
  | .actor joined _ committed children =>
    joined.map (.reporting (assessed committed) (children.received (children.startups .clear)))

/-- The first loop of `receive_retirement`: the reports of refused startups. -/
def ChildTrees.startups : ChildTrees → ActorRetirementReport → ActorRetirementReport
  | .nil, report => report
  | .refused child rest, report =>
    rest.startups (report.combine (fromJoined child.outcome child.notification))
  | .rejected rest, report | .starting _ _ _ rest, report | .established _ _ _ _ _ _ rest, report =>
    rest.startups report

/-- The loop over the order. -/
def ChildTrees.received : ChildTrees → ActorRetirementReport → ActorRetirementReport
  | .nil, report => report
  | .rejected rest, report | .refused _ rest, report => rest.received report
  | .starting site child projection rest, report =>
    rest.received (receivedReport (.starting site (some ⟨true, .armed⟩))
      (startupAnswer child.outcome child.notification projection) report)
  | .established site installed child projected receipts published rest, report =>
    rest.received (receivedReport (.established site installed (.fresh (some ⟨true, .armed⟩)))
      (establishedAnswer projected receipts published (fromJoined child.outcome child.notification))
      report)

end

/-- The report of an actor. -/
def ActorTree.report {P : ActorPort} (t : ActorTree P) : ActorRetirementReport :=
  fromJoined t.outcome t.notification

/-! ## What a report should say -/

variable {P : ActorPort}

/-- The driver returned, and all activation tasks were joined. -/
def TasksJoined (joined : Except P.JoinError (ActorExecutionOutcome P)) : Prop :=
  ∃ r : DriverRetirement P.port, joined = .ok (.retired r) ∧
    LocalResidual.activationTasks (P := P) r.residual = []

/-- An interpretation that was begun and not finished, or came out corrupt. -/
def InterpretationProgress.Unfinished : InterpretationProgress P → Prop
  | original _ | interpreting _ | completed (.corrupt _) => True
  | completed (.complete _) => False

/-- An offer whose settlement was refused, or whose source still owes an event. -/
def Undelivered : SourceCustody P.Settlement → Prop
  | .closed _ | .admitted _ => True
  | .exhausted _ | .retained _ => False

/-- An offer that was begun and not finished, or not delivered. -/
def SourceProgress.Unfinished : SourceProgress P → Prop
  | original _ | offering _ => True
  | completed source => Undelivered source

/-- What a residual has against it. -/
inductive LocalResidual.Fault (r : LocalResidual P) : Prop
  | capability (h : r.capabilityFailures ≠ [])
  | disposal (h : r.retirementFailures ≠ [])
  | terminalReport (t : P.Termination) (h : r.terminalReport = some (.error t))
  | corrupt (s : P.Settlement) (h : r.receivedInterpretation = some (.corrupt s))
  | capabilityEvent (e : P.JoinError) (h : r.acquiredIngress = some (.brk (.capabilityFailed e)))
  | task (h : r.activationTasks ≠ [])
  | initialization (i : InterpretationProgress P) (h : r.phase = .uncommitted i) (hi : i.Unfinished)
  | interpretation (i : InterpretationProgress P) (source : Option (SourceProgress P))
      (settlements : List P.Settlement) (h : r.phase = .retired (some i) source settlements)
      (hi : i.Unfinished)
  | offer (interpretation : Option (InterpretationProgress P)) (i : SourceProgress P)
      (settlements : List P.Settlement) (h : r.phase = .retired interpretation (some i) settlements)
      (hi : i.Unfinished)
  | source (s : SourceCustody P.Settlement) (h : r.receivedSource = some s) (hs : Undelivered s)

/-- What can be wrong with an actor. -/
inductive Fault (joined : Except P.JoinError (ActorExecutionOutcome P))
    (notification : Notification P) (committed : List SettlementStatus) : Prop
  /-- The task did not join. -/
  | task (e : P.JoinError) (h : joined = .error e)
  | panicked (h : joined = .ok .panicked)
  | cancelled (h : joined = .ok .cancelled)
  /-- Behavior, activation, settlement, host: the driver ended with an error. -/
  | driver (r : DriverRetirement P.port) (e : DriverError P.port) (h : joined = .ok (.retired r))
      (he : r.disposition = .error e)
  | capability (r : DriverRetirement P.port) (e : P.JoinError) (h : joined = .ok (.retired r))
      (he : r.disposition = .ok (.retirementRequested (.capabilityFailed e)))
  | additional (r : DriverRetirement P.port) (h : joined = .ok (.retired r))
      (hr : r.additionalFailures ≠ [])
  | residual (r : DriverRetirement P.port) (h : joined = .ok (.retired r))
      (hr : LocalResidual.Fault (P := P) r.residual)
  | settlement (status : SettlementStatus) (h : status ∈ committed) (hs : status ≠ .accepted)
  | notification (e : RetirementNotificationError P) (h : notification = .error e)

mutual

/-- No task of the subtree is left behind. -/
def ActorTree.AllJoined {P : ActorPort} : ActorTree P → Prop
  | .actor joined _ _ children => TasksJoined joined ∧ children.AllJoined

def ChildTrees.AllJoined : ChildTrees → Prop
  | .nil => True
  | .rejected rest => rest.AllJoined
  | .refused child rest | .starting _ child _ rest | .established _ _ child _ _ _ rest =>
    child.AllJoined ∧ rest.AllJoined

end

mutual

/-- Nothing in the subtree failed. -/
def ActorTree.Faultless {P : ActorPort} : ActorTree P → Prop
  | .actor joined notification committed children =>
    ¬ Fault joined notification committed ∧ children.Faultless

/-- Neither the children failed, nor their projections and notifications. -/
def ChildTrees.Faultless : ChildTrees → Prop
  | .nil => True
  | .rejected rest => rest.Faultless
  | .refused child rest => child.Faultless ∧ rest.Faultless
  | .starting _ child projection rest =>
    (∃ root, projection = .ok root) ∧ child.Faultless ∧ rest.Faultless
  | .established _ _ child projected receipts published rest =>
    (∃ root, projected = .ok (.ok root)) ∧ (∃ r, receipts = .ok r ∧ r.hasFailures = false) ∧
      published = true ∧ child.Faultless ∧ rest.Faultless

end

/-! ## One actor -/

section Actor

theorem InterpretationProgress.not_unfinished {i : InterpretationProgress P}
    (h : i.assess = .noFailuresFound) : ¬ i.Unfinished := by
  cases i with
  | original | interpreting => cases h
  | completed i =>
    cases i with
    | complete => exact not_false
    | corrupt => cases h

theorem not_undelivered {s}
    (h : assessSource (P := P) s = .noFailuresFound) : ¬ Undelivered (P := P) s := by
  cases s with
  | closed | admitted => cases h
  | exhausted | retained => exact not_false

theorem SourceProgress.not_unfinished {i : SourceProgress P} (h : i.assess = .noFailuresFound) :
    ¬ i.Unfinished := by
  cases i with
  | original | offering => cases h
  | completed => exact not_undelivered h

theorem LocalResidual.not_fault {r : LocalResidual P} {operations : ActorFailureAssessment}
    {descendants : ActorRetirementReport}
    (h : { r with
      operationFailures := operations
      descendantReport := descendants : LocalResidual P }.retirementReport.failures =
        .noFailuresFound) :
    ¬ r.Fault ∧ operations = .noFailuresFound ∧ descendants.failures = .noFailuresFound := by
  obtain ⟨hown, hdesc⟩ := combine_eq_noFailuresFound.mp h
  obtain ⟨hown, hsource⟩ := combine_eq_noFailuresFound.mp hown
  obtain ⟨hown, hnative⟩ := combine_eq_noFailuresFound.mp hown
  obtain ⟨hoperations, hphase⟩ := combine_eq_noFailuresFound.mp hown
  replace hsource : r.receivedSource.elim .noFailuresFound assessSource =
    .noFailuresFound := hsource
  replace hphase : r.phase.assess = .noFailuresFound := hphase
  have hnative : r.nativeFailed = false ∧ r.activationTasks = [] := by
    split at hnative
    · cases hnative
    · next hfailed =>
      split at hnative
      · cases hnative
      · next htasks => exact ⟨Bool.eq_false_of_not_eq_true hfailed, by simpa using htasks⟩
  obtain ⟨hfailed, htasks⟩ := hnative
  simp only [nativeFailed, Bool.or_eq_false_iff, Bool.not_eq_false', List.isEmpty_iff] at hfailed
  obtain ⟨⟨⟨⟨hcapability, hdisposal⟩, hterm⟩, hcorrupt⟩, hevent⟩ := hfailed
  refine ⟨fun hfault => ?_, hoperations, hdesc⟩
  cases hfault with
  | capability h => exact h hcapability
  | disposal h => exact h hdisposal
  | task h => exact h htasks
  | terminalReport _ h =>
    rw [h] at hterm
    cases hterm
  | corrupt _ h =>
    rw [h] at hcorrupt
    cases hcorrupt
  | capabilityEvent _ h =>
    rw [h] at hevent
    cases hevent
  | source _ h hs =>
    rw [h] at hsource
    exact not_undelivered hsource hs
  | initialization _ h hi =>
    rw [h] at hphase
    exact InterpretationProgress.not_unfinished hphase hi
  | interpretation _ _ _ h hi =>
    rw [h] at hphase
    exact InterpretationProgress.not_unfinished (combine_eq_noFailuresFound.mp hphase).1 hi
  | offer _ _ _ h hi =>
    rw [h] at hphase
    exact SourceProgress.not_unfinished (combine_eq_noFailuresFound.mp hphase).2 hi

theorem assessed_clean {committed}
    (h : assessed committed = .noFailuresFound) : ∀ status ∈ committed, status = .accepted := by
  induction committed using List.reverseRecOn with
  | nil => nofun
  | append_singleton _ _ ih =>
    rw [assessed, List.foldl_append] at h
    obtain ⟨hbefore, hlast⟩ := combine_eq_noFailuresFound.mp h
    intro status' hmem
    rcases List.mem_append.mp hmem with hmem | hmem
    · exact ih hbefore status' hmem
    · obtain rfl := List.mem_singleton.mp hmem
      cases status' with
      | accepted => rfl
      | rejected | corrupt => cases hlast

theorem retirement_withFailures_ite (b : Bool) (r : ActorRetirementReport)
    (f : ActorFailureAssessment) :
    (if b then r.withFailures f else r).retirement = r.retirement := by
  split <;> rfl

theorem reportOf_retirement (r : DriverRetirement P.port) :
    (reportOf r).retirement = (LocalResidual.retirementReport (P := P) r.residual).retirement := by
  rw [reportOf]
  split <;> rfl

theorem withFailures_ite_clean {b : Bool} {r : ActorRetirementReport}
    (h : (if b then r.withFailures .failuresFound else r).failures = .noFailuresFound) :
    b = false ∧ r.failures = .noFailuresFound := by
  cases b with
  | true => cases (combine_eq_noFailuresFound.mp h).2
  | false => exact ⟨rfl, h⟩

variable {joined : Except P.JoinError (ActorExecutionOutcome P)} {notification : Notification P}
  {committed : List SettlementStatus} {descendants : ActorRetirementReport}

theorem actor_joined (h : (fromJoined (joined.map (.reporting (assessed committed) descendants))
      notification).retirement = .established) :
    TasksJoined joined ∧ descendants.retirement = .established := by
  replace h := (retirement_withFailures_ite _ _ _).symm.trans h
  rcases joined with e | r | _ | _
  · cases h
  · replace h := (reportOf_retirement _).symm.trans h
    obtain ⟨htasks, hdesc⟩ := combine_established.mp h
    refine ⟨⟨r, rfl, ?_⟩, hdesc⟩
    simp only at htasks
    split at htasks
    · next hempty => exact List.isEmpty_iff.mp hempty
    · cases htasks
  · cases h
  · cases h

theorem actor_faultless (h : (fromJoined (joined.map (.reporting (assessed committed) descendants))
      notification).failures = .noFailuresFound) :
    ¬ Fault joined notification committed ∧ descendants.failures = .noFailuresFound := by
  obtain ⟨hn, h⟩ := withFailures_ite_clean h
  rcases joined with e | r | _ | _
  · cases h
  · simp only [Except.map, ActorExecutionOutcome.reporting, reportOf] at h
    split at h
    · next c hc =>
      obtain ⟨hres, h⟩ := combine_eq_noFailuresFound.mp h
      obtain ⟨hcompletion, hfound⟩ := combine_eq_noFailuresFound.mp h
      have hadditional := found_eq_noFailuresFound.mp hfound
      obtain ⟨hfault, hoperations, hdesc⟩ := LocalResidual.not_fault hres
      refine ⟨fun hf => ?_, hdesc⟩
      cases hf with
      | task _ h | panicked h | cancelled h => cases h
      | driver _ _ h he =>
        cases h
        cases hc.symm.trans he
      | capability _ _ h he =>
        cases h
        cases hc.symm.trans he
        cases hcompletion
      | additional _ h hr' =>
        cases h
        exact hr' (by simpa using hadditional)
      | residual _ h hr' =>
        cases h
        exact hfault hr'
      | settlement status h hs => exact hs (assessed_clean hoperations status h)
      | notification _ h =>
        rw [h] at hn
        cases hn
    · cases (combine_eq_noFailuresFound.mp h).2
  · cases h
  · cases h

end Actor

/-! ## The rows -/

section Rows

variable {C : ChildPort} {site : Site C} {report own : ActorRetirementReport}

theorem combine_clean {r later : ActorRetirementReport} :
    (r.combine later).failures = .noFailuresFound ↔
      r.failures = .noFailuresFound ∧ later.failures = .noFailuresFound :=
  combine_eq_noFailuresFound

section Starting

variable {joined : Joined C} {notification : Notification C.child}
  {projection : Except C.child.JoinError C.Root}

theorem receivedReport_starting (outcome : ActorExecutionOutcome C.child) :
    receivedReport (.starting site (some ⟨true, .armed⟩))
        (startupAnswer (.ok outcome) notification projection) report =
      let own := fromJoined (.ok outcome) notification
      if isErr projection then ((report.combine own).combine own).withFailures .failuresFound
      else (report.combine own).combine own := by
  cases projection <;> rfl

theorem starting_established
    (h : (receivedReport (.starting site (some ⟨true, .armed⟩))
      (startupAnswer joined notification projection) report).retirement = .established) :
    report.retirement = .established ∧ (fromJoined joined notification).retirement =
    .established := by
  cases joined with
  | error => exact combine_established.mp h
  | ok =>
    rw [receivedReport_starting, retirement_withFailures_ite] at h
    exact combine_established.mp (combine_established.mp h).1

theorem starting_clean
    (h : (receivedReport (.starting site (some ⟨true, .armed⟩))
      (startupAnswer joined notification projection) report).failures = .noFailuresFound) :
    report.failures = .noFailuresFound ∧
      (fromJoined joined notification).failures = .noFailuresFound ∧
      ∃ root, projection = .ok root := by
  cases joined with
  | error => cases (withFailures_ite_clean (combine_clean.mp h).2).2
  | ok =>
    rw [receivedReport_starting] at h
    cases projection with
    | error => cases (combine_eq_noFailuresFound.mp h).2
    | ok root =>
      obtain ⟨hboth, hown⟩ := combine_clean.mp h
      exact ⟨(combine_clean.mp hboth).1, hown, root, rfl⟩

end Starting

section Established

variable {installed : C.Installed} {projected : Projected C} {receipts : Receipts C}
  {published : Bool}

theorem receivedReport_established :
    receivedReport (.established site installed (.fresh (some ⟨true, .armed⟩)))
        (establishedAnswer projected receipts published own) report =
      let total := report.combine ((if published then some own else none).getD
        ⟨.notEstablished, .incomplete⟩)
      if establishedFailed (some projected) (some receipts) then total.withFailures .failuresFound
      else total :=
  rfl

theorem established_established
    (h : (receivedReport (.established site installed (.fresh (some ⟨true, .armed⟩)))
      (establishedAnswer projected receipts published own) report).retirement = .established) :
    report.retirement = .established ∧ own.retirement = .established := by
  rw [receivedReport_established, retirement_withFailures_ite] at h
  obtain ⟨hreport, hown⟩ := combine_established.mp h
  cases published with
  | true => exact ⟨hreport, hown⟩
  | false => cases hown

theorem established_clean
    (h : (receivedReport (.established site installed (.fresh (some ⟨true, .armed⟩)))
      (establishedAnswer projected receipts published own) report).failures = .noFailuresFound) :
    report.failures = .noFailuresFound ∧ own.failures = .noFailuresFound ∧ published = true ∧
      (∃ root, projected = .ok (.ok root)) ∧ ∃ r, receipts = .ok r ∧ r.hasFailures = false := by
  rw [receivedReport_established] at h
  obtain ⟨hf, h⟩ := withFailures_ite_clean h
  obtain ⟨hreport, hown⟩ := combine_clean.mp h
  obtain ⟨hprojected, hreceipts⟩ := Bool.or_eq_false_iff.mp hf
  cases published with
  | false => cases hown
  | true =>
    refine ⟨hreport, hown, rfl, ?_, ?_⟩
    · rcases projected with e | e | root
      · cases hprojected
      · cases hprojected
      · exact ⟨root, rfl⟩
    · cases receipts with
      | error => cases hreceipts
      | ok r => exact ⟨r, rfl, hreceipts⟩

end Established

end Rows

/-! ## The whole tree -/

theorem ChildTrees.of_received : ∀ (children : ChildTrees) (report : ActorRetirementReport),
    ((children.received report).retirement = .established → report.retirement = .established) ∧
      ((children.received report).failures = .noFailuresFound → report.failures = .noFailuresFound)
  | .nil, _ => ⟨id, id⟩
  | .rejected rest, report | .refused _ rest, report => rest.of_received report
  | .starting _ _ _ rest, _ =>
    ⟨fun h => (starting_established ((rest.of_received _).1 h)).1,
      fun h => (starting_clean ((rest.of_received _).2 h)).1⟩
  | .established _ _ _ _ _ _ rest, _ =>
    ⟨fun h => (established_established ((rest.of_received _).1 h)).1,
      fun h => (established_clean ((rest.of_received _).2 h)).1⟩

theorem ChildTrees.of_startups : ∀ (children : ChildTrees) (report : ActorRetirementReport),
    ((children.startups report).retirement = .established → report.retirement = .established) ∧
      ((children.startups report).failures = .noFailuresFound → report.failures = .noFailuresFound)
  | .nil, _ => ⟨id, id⟩
  | .rejected rest, report | .starting _ _ _ rest, report
  | .established _ _ _ _ _ _ rest, report => rest.of_startups report
  | .refused _ rest, _ =>
    ⟨fun h => (combine_established.mp ((rest.of_startups _).1 h)).1,
      fun h => (combine_clean.mp ((rest.of_startups _).2 h)).1⟩

mutual

theorem ActorTree.vouched {P : ActorPort} : ∀ t : ActorTree P,
    (t.report.retirement = .established → t.AllJoined) ∧
      (t.report.failures = .noFailuresFound → t.Faultless)
  | .actor joined notification committed children => by
    constructor
    · intro h
      obtain ⟨htasks, hrows⟩ := actor_joined h
      exact ⟨htasks, (children.vouched .clear _).1 ((children.of_received _).1 hrows) hrows⟩
    · intro h
      obtain ⟨hfault, hrows⟩ := actor_faultless h
      exact ⟨hfault, (children.vouched .clear _).2 ((children.of_received _).2 hrows) hrows⟩

theorem ChildTrees.vouched : ∀ (children : ChildTrees) (report report' : ActorRetirementReport),
    ((children.startups report).retirement = .established →
        (children.received report').retirement = .established → children.AllJoined) ∧
      ((children.startups report).failures = .noFailuresFound →
        (children.received report').failures = .noFailuresFound → children.Faultless)
  | .nil, _, _ => ⟨fun _ _ => trivial, fun _ _ => trivial⟩
  | .rejected rest, report, report' => rest.vouched report report'
  | .refused child rest, report, report' => by
    have hchild := child.vouched
    have hrest := rest.vouched (report.combine child.report) report'
    refine ⟨fun hs hr => ⟨hchild.1 ?_, hrest.1 hs hr⟩, fun hs hr => ⟨hchild.2 ?_, hrest.2 hs hr⟩⟩
    · exact (combine_established.mp ((rest.of_startups _).1 hs)).2
    · exact (combine_clean.mp ((rest.of_startups _).2 hs)).2
  | .starting site child projection rest, report, report' => by
    have hchild := child.vouched
    have hrest := rest.vouched report
    refine ⟨fun hs hr => ⟨hchild.1 ?_, (hrest _).1 hs hr⟩, fun hs hr => ?_⟩
    · exact (starting_established ((rest.of_received _).1 hr)).2
    · obtain ⟨-, hown, hprojection⟩ := starting_clean ((rest.of_received _).2 hr)
      exact ⟨hprojection, hchild.2 hown, (hrest _).2 hs hr⟩
  | .established site installed child projected receipts published rest, report, report' => by
    have hchild := child.vouched
    have hrest := rest.vouched report
    refine ⟨fun hs hr => ⟨hchild.1 ?_, (hrest _).1 hs hr⟩, fun hs hr => ?_⟩
    · exact (established_established ((rest.of_received _).1 hr)).2
    · obtain ⟨-, hown, hpub, hprojected, hreceipts⟩ :=
        established_clean ((rest.of_received _).2 hr)
      exact ⟨hprojected, hreceipts, hpub, hchild.2 hown, (hrest _).2 hs hr⟩

end

/-- **Retirement reports are sound.**  A report that says that retirement is established vouches
that every task of the subtree was joined, and one that says that no failures were found, that
nothing in the subtree failed. -/
theorem retirement_report_sound {P : ActorPort} (t : ActorTree P) :
    (t.report.retirement = .established → t.AllJoined) ∧
      (t.report.failures = .noFailuresFound → t.Faultless) :=
  t.vouched

/-- What an actor that stopped in order leaves behind. -/
def stoppedActor : DriverRetirement numberActor.port where
  behavior := 0
  residual := ⟨.retired none none [3], none, none, none, none, ⟨[], []⟩, [], ⟨[], []⟩,
    .noFailuresFound, .clear, [], some (.ok ()), [], none⟩
  disposition := .ok .stopped
  additionalFailures := []

/-- Its child was established, and was joined and projected when it retired. -/
def stoppedFamily : ActorTree numberActor :=
  .actor (.ok (.retired stoppedActor)) (.ok ()) [.accepted]
    (.established (P := numberChildren) ⟨.birth, 10, 0⟩ 5
      (.actor (.ok (.retired stoppedActor)) (.ok ()) [] .nil) (.ok (.ok 1)) (.ok ⟨.ok (), .ok ()⟩)
      true .nil)

/-- Its report is good. -/
theorem retirement_report_sound_stopped :
    stoppedFamily.report = .clear ∧ stoppedFamily.AllJoined ∧ stoppedFamily.Faultless :=
  ⟨rfl, (retirement_report_sound _).1 rfl, (retirement_report_sound _).2 rfl⟩

end Local
