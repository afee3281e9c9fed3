import Bombay.Engine.Retirement

/-!
# The exact fused disposition

One operation can produce several terminal facts at once: a reply, a panicking poll and a panicking
destructor.  `facts` is the table of what each transition acquires, in which order; it reads only
the point, the reply and the slots, not what the driver makes of them.  The law is then one equation
(`verdicts_run`): the disposition followed by the additional failures *is* the concatenation of all
facts acquired so far.  So the first fact is the primary disposition, it never changes, and no later
error is dropped or reordered.

The second part goes back from a disposition to its cause: `Stopped` comes from a classification
under a `Stop` decision, `Exhausted` from `next`, `RetirementRequested` from the operation that
asked.
-/

set_option autoImplicit false

namespace Engine

open Machine List Driver

variable {P : Port} {c c' : Config P} {d : Driver P} {p : Point P} {i : Input P}
  {b : P.Behavior} {e : P.Environment} {tr : DriverHistory P} {u : Config P}

/-! ## The table of terminal facts -/

/-- The panics of an operation, as errors. -/
def panics (wrap : P.Payload → DriverError P) (failures : List P.Payload) : List (Disposition P) :=
  failures.map fun payload => .error (wrap payload)

/-- A reply that breaks the agreed form: its panics account for it, or else the breach does. -/
def breach (wrap : P.Payload → DriverError P) (failures : List P.Payload) : List (Disposition P) :=
  if failures = [] then [.error .interpreterContractFailed] else panics wrap failures

def Fold.facts (panicked : P.Payload → DriverError P) (r : Fold P) : List (Disposition P) :=
  (r.error? panicked).toList.map .error

/-- What a host leaves after `activate`. -/
def activationFacts (environment : Option P.Environment) (actions : Option P.Actions)
    (received : Option P.Activation) (failures : List P.Payload) : List (Disposition P) :=
  match environment, actions, received with
  | none, none, some (.ok _) => panics .activationPanicked failures
  | none, none, some (.error (error, _)) =>
    .error (.activation error) :: panics .activationPanicked failures
  | _, _, _ => breach .activationPanicked failures

/-- What a classified settlement means: a corrupt one, or a rejected one of the initialization, is
an error whatever was decided; otherwise the decision counts. -/
def settlementFacts (phase : ExecutionPhase) (decision : Option ActionDecision)
    (status : SettlementStatus) : List (Disposition P) :=
  if status = .corrupt then [.error (.settlement .corrupt)]
  else if status = .rejected ∧ phase = .initializing then [.error (.settlement .rejected)]
  else match decision with
    | some .stop => [.ok .stopped]
    | some .cont => []
    | none => [.error .interpreterContractFailed]

/-- What a source offer means, by the slots it left and its panics. -/
def sourceFacts (input : Option P.Settlement) (received : Option (SourceCustody P.Settlement))
    (failures : List P.Payload) : List (Disposition P) :=
  match input, received with
  | none, some (.closed _) =>
    .error (.settlement .sourceClosed) :: panics .hostExecutionPanicked failures
  | none, some _ => panics .hostExecutionPanicked failures
  | _, _ => breach .hostExecutionPanicked failures

/-- What a reply of `next_source` means. -/
def nextSourceFacts (ingress : Option P.Ingress) (failures : List P.Payload) :
    List (Disposition P) :=
  match ingress with
  | some (.cont none) =>
    .error (.settlement .sourceClosed) :: panics .hostExecutionPanicked failures
  | some _ => panics .hostExecutionPanicked failures
  | none => breach .hostExecutionPanicked failures

/-- What an acquired ingress means when it is used. -/
def ingressFacts : Option P.Ingress → List (Disposition P)
  | some (.cont (some _)) => []
  | some (.cont none) => [.ok .exhausted]
  | some (.brk request) => [.ok (.retirementRequested request)]
  | none => [.error .interpreterContractFailed]

/-- What `publish` means. -/
def publishFacts : Except P.Payload (ControlFlow P.RetirementRequest Unit) → List (Disposition P)
  | .ok (.cont _) => []
  | .ok (.brk request) => [.ok (.retirementRequested request)]
  | .error payload => [.error (.hostExecutionPanicked payload)]

/-- **The terminal facts a transition acquires**, in the order of acquisition. -/
def facts (x : Transition (Config P) (Input P)) : List (Disposition P) :=
  match x.source.point, x.input with
  | .initialization, .folded _ r => r.facts .initializationPanicked
  | .activate, .completed (.activation environment actions received) reply =>
    activationFacts environment actions received reply.failures
  | .classify, .classified (.ok status) =>
    settlementFacts x.source.driver.phase x.source.driver.decision status
  | .classify, .classified (.error payload) => [.error (.hostExecutionPanicked payload)]
  | .offered failures, .advance =>
    sourceFacts x.source.driver.sourceInput x.source.driver.sourceReceived failures
  | .dispose _, .disposed failure => panics .hostExecutionPanicked failure.toList
  | .sourceAcquired failures, .advance => nextSourceFacts x.source.driver.ingress failures
  | .publish, .published reply => publishFacts reply
  | .ingressAcquired failures, .advance => panics .hostExecutionPanicked failures
  | .consume, .advance => ingressFacts x.source.driver.ingress
  | .transition _, .folded _ r => r.facts .transitionPanicked
  | .apply, .completed (.application none (some _)) reply =>
    panics .hostExecutionPanicked reply.failures
  | .apply, .completed _ reply => breach .hostExecutionPanicked reply.failures
  | .retirePrepared, .completed _ reply | .retireActive, .completed _ reply =>
    panics .retirementPanicked reply.failures
  | _, _ => []

/-! ## Recording -/

/-- The disposition followed by the additional failures. -/
def verdicts (d : Driver P) : List (Disposition P) :=
  d.disposition.toList ++ d.additionalFailures.map .error

theorem verdicts_rejectAll {d' : Driver P} (hd : d'.disposition = d.disposition)
    (ha : d'.additionalFailures = d.additionalFailures)
    (hf : d.disposition = none → d.additionalFailures = []) {es} {vs} (hvs : es.map .error = vs) :
    verdicts (d'.rejectAll es) = verdicts d ++ vs := by
  rw [rejectAll_eq, ← hvs]
  cases hdisp : d.disposition with
  | none => cases es <;> simp [verdicts, hd, ha, hdisp, hf hdisp]
  | some => simp [verdicts, hd, ha, hdisp]

theorem verdicts_complete {d' : Driver P} (hd : d'.disposition = d.disposition)
    (ha : d'.additionalFailures = d.additionalFailures)
    (hnone : d.disposition = none ∧ d.additionalFailures = []) {completion} {vs}
    (hvs : [.ok completion] = vs) :
    verdicts (d'.complete completion) = verdicts d ++ vs := by
  simp [verdicts, complete, hd, ha, hnone, ← hvs]

theorem verdicts_reject {d' : Driver P} (hd : d'.disposition = d.disposition)
    (ha : d'.additionalFailures = d.additionalFailures)
    (hf : d.disposition = none → d.additionalFailures = []) {e} {vs} (hvs : [.error e] = vs) :
    verdicts (d'.reject e) = verdicts d ++ vs :=
  show verdicts (d'.rejectAll [e]) = _ from verdicts_rejectAll hd ha hf hvs

theorem panics_eq (wrap : P.Payload → DriverError P) (failures : List P.Payload) :
    (failures.map wrap).map .error = panics wrap failures := by
  simp [panics]

theorem blame_eq (hp : d.phase ≠ .retiring) (wrap : P.Payload → DriverError P)
    (failures : List P.Payload) :
    (d.blame (failures.map wrap)).map .error = breach wrap failures := by
  unfold blame breach
  by_cases hfs : failures = []
  · simp [hfs, hp]
  · simp [hfs, panics]

theorem settlementFacts_error {status} {e} (hv : d.verdict status = .error e) :
    settlementFacts d.phase d.decision status = [.error e] := by
  cases status <;> rcases hd : d.decision with _ | (_ | _) <;> by_cases hp : d.phase = .initializing
    <;> simp_all [verdict, verdict.ofDecision, settlementFacts]

theorem settlementFacts_ok {status} {decision} (hv : d.verdict status = .ok decision) :
    settlementFacts (P := P) d.phase d.decision status
      = if decision = .stop then [.ok .stopped] else [] := by
  cases status <;> rcases hd : d.decision with _ | (_ | _) <;> by_cases hp : d.phase = .initializing
    <;> simp_all [verdict, verdict.ofDecision, settlementFacts] <;> simp [← hv]

theorem verdicts_step (h : Shape c.driver c.point) (hm : Moves c i c') :
    verdicts c'.driver = verdicts c.driver ++ facts ⟨c, i, c'⟩ := by
  have hf := h.first
  have hnone (hp : c.driver.phase.running) :=
    h.unselected (ExecutionPhase.not_terminal_of_running hp)
  cases hm with
  | again => obtain rfl := h.same; simp [facts]
  | retireActive | abandon =>
    simp [facts, verdicts, (gather_verdict _).2.1, (gather_verdict _).2.2]
  | @uninitialized d b r e he | @unfolded d event b r e he =>
    exact verdicts_reject (by rfl) (by rfl) hf (by simp [facts, Fold.facts, he])
  | @malformedActivation d env acts received reply hmal =>
    have hp : d.phase ≠ .retiring := by rw [show d.phase = .activating from h.admits]; simp
    refine verdicts_rejectAll (by rfl) (by rfl) hf ?_
    rw [blame_eq hp]
    rcases env with _ | env <;> rcases acts with _ | acts <;>
      rcases received with _ | (_ | _) <;> simp_all [facts, activationFacts]
  | activated | disposed | nextFailed | applied =>
    refine verdicts_rejectAll (by rfl) (by rfl) hf ?_
    rw [panics_eq]
    rfl
  | unactivated =>
    refine verdicts_rejectAll (by rfl) (by rfl) hf ?_
    rw [map_cons, panics_eq]
    rfl
  | unreadable | publishFailed => exact verdicts_reject (by rfl) (by rfl) hf rfl
  | @condemned d i hi status e hv =>
    refine verdicts_reject (by rfl) (by rfl) hf ?_
    simp only [facts, settlementFacts_error hv]
  | @stopped d i hi status hv =>
    refine verdicts_complete (by rfl) (by rfl) (hnone h.admits) ?_
    simp only [facts, settlementFacts_ok hv, if_true]
  | @continued d i hi status hv =>
    simp only [facts, settlementFacts_ok hv, reduceCtorEq, if_false, append_nil]
    rfl
  | @inactive d ha | @unapplied d event b a ha =>
    have hl := (h.live h.admits).active
    rw [ha] at hl
    cases hl
  | @malformedOffer d fs hmal =>
    refine verdicts_rejectAll (by rfl) (by rfl) hf ?_
    rw [blame_eq (not_retiring h.admits)]
    have hx := (h.live h.admits).holds.2.2
    rcases hi : d.sourceInput with _ | s <;> rcases hr : d.sourceReceived with _ | (_ | _ | _ | _)
      <;> simp_all [facts, sourceFacts]
  | exhausted hi hr | retained hi hr | admitted hi hr =>
    refine verdicts_rejectAll (by rfl) (by rfl) hf ?_
    rw [panics_eq]
    simp only [facts, sourceFacts, hi, hr]
  | closed hi hr =>
    refine verdicts_rejectAll (by rfl) (by rfl) hf ?_
    rw [map_cons, panics_eq]
    simp only [facts, sourceFacts, hi, hr]
  | sourceClosed hg =>
    refine verdicts_rejectAll (by rfl) (by rfl) hf ?_
    rw [map_cons, panics_eq]
    simp only [facts, nextSourceFacts, hg]
  | @sourceFailed d fs hg hfail =>
    refine verdicts_rejectAll (by rfl) (by rfl) hf ?_
    have hfs : fs ≠ [] := hfail.resolve_right (not_retiring h.admits)
    rw [panics_eq]
    rcases hv : d.ingress with _ | ((_ | event) | request)
    · simp [facts, nextSourceFacts, hv, breach, hfs]
    · exact absurd hv hg
    all_goals simp [facts, nextSourceFacts, hv]
  | sourceMissing hg =>
    refine verdicts_reject (by rfl) (by rfl) hf ?_
    simp [facts, nextSourceFacts, hg, breach]
  | @sourceReady d v hg hv =>
    rcases v with (_ | event) | request
    · exact absurd rfl hv
    all_goals simp [facts, nextSourceFacts, hg, panics]
  | @unpublished d request =>
    have hp : d.phase.running := by
      rw [show d.phase = .settlingInitialization from h.admits]; rfl
    exact verdicts_complete (by rfl) (by rfl) (hnone hp) rfl
  | fold hg => simp [facts, ingressFacts, hg]; rfl
  | ended hg | requested hg =>
    refine verdicts_complete (by rfl) (by rfl) (hnone h.admits) ?_
    simp only [facts, ingressFacts, hg]
  | missing hg =>
    refine verdicts_reject (by rfl) (by rfl) hf ?_
    simp [facts, ingressFacts, hg]
  | @malformedApply d actions received reply hmal =>
    refine verdicts_rejectAll (by rfl) (by rfl) hf ?_
    rw [blame_eq (not_retiring h.admits)]
    rcases actions with _ | a <;> rcases received with _ | i <;> simp_all [facts]
  | @retired d d' p hp loan hl reply =>
    obtain ⟨-, hd, ha⟩ := lend_retire hp hl
    have hfacts (c' : Config P) : facts ⟨⟨d, p⟩, .completed loan reply, c'⟩
        = panics .retirementPanicked reply.failures := by
      rcases hp with rfl | rfl <;> rfl
    rw [hfacts]
    simp [verdicts, hd, ha, panics]
  | @dropRetire d d' p hp loan hl =>
    obtain ⟨-, hd, ha⟩ := lend_retire hp hl
    rcases hp with rfl | rfl <;> simp [verdicts, hd, ha, facts]
  | initialized | apply => simp [facts, Fold.facts, Fold.error?]; rfl
  | nextReady => simp [facts, panics]
  | _ => simp only [facts, publishFacts, append_nil]; try rfl

theorem terminal_of_facts (h : Shape c.driver c.point) (hm : Moves c i c')
    (hne : facts ⟨c, i, c'⟩ ≠ []) : c'.driver.phase.terminal := by
  have hshape := h.step hm
  have hfact := verdicts_step h hm
  cases hd : c'.driver.disposition with
  | some => rw [← hshape.selected, hd]; rfl
  | none =>
    rw [verdicts, hd, hshape.first hd] at hfact
    exact absurd (append_eq_nil_iff.mp hfact.symm).2 hne

/-- **Nothing acquired is lost**: the disposition and the additional failures are the facts
acquired, in order. -/
theorem verdicts_run (h : Run step (.start b e) tr u) : verdicts u.driver = tr.flatMap facts := by
  refine run_rule h rfl ?_
  intro tr c i c' _ ih hshape hm
  rw [verdicts_step hshape hm, ih, flatMap_append, flatMap_cons, flatMap_nil, append_nil]

/-! ## From a disposition back to its cause -/

/-- The first fact of a history belongs to a transition before which nothing was acquired. -/
theorem head?_flatMap {α β : Type*} {f : α → List β} {l : List α} {v : β}
    (h : (l.flatMap f).head? = some v) :
    ∃ pre x post, l = pre ++ x :: post ∧ (∀ y ∈ pre, f y = []) ∧ (f x).head? = some v := by
  induction l with
  | nil => simp at h
  | cons a l ih =>
    by_cases ha : f a = []
    · rw [flatMap_cons, ha, nil_append] at h
      obtain ⟨pre, x, post, rfl, hpre, hx⟩ := ih h
      exact ⟨a :: pre, x, post, rfl, forall_mem_cons.mpr ⟨ha, hpre⟩, hx⟩
    · refine ⟨[], a, l, rfl, by simp, ?_⟩
      rw [flatMap_cons, head?_append_of_ne_nil _ ha] at h
      exact h

theorem disposition_eq (d : Driver P) (hf : d.disposition = none → d.additionalFailures = []) :
    d.disposition = (verdicts d).head? ∧ d.additionalFailures.map .error = (verdicts d).tail := by
  cases hd : d.disposition with
  | none => simp [verdicts, hd, hf hd]
  | some => simp [verdicts, hd]

/-- What a driver acquires first, while it takes turns, stands as its disposition, and what the same
transition acquires after it stands at the head of the additional failures. -/
theorem fact_stands {x} {v} (es : List (DriverError P)) (h : Run step (.start b e) tr u)
    (hx : x ∈ tr) (hp : x.source.driver.phase.running) (hv : facts x = v :: es.map .error) :
    u.driver.disposition = some v ∧ es <+: u.driver.additionalFailures := by
  obtain ⟨pre, post, rfl, hpre, -⟩ := h.of_mem hx
  obtain ⟨hdisp, hadd⟩ := (run_shape hpre).unselected (ExecutionPhase.not_terminal_of_running hp)
  have hnothing : pre.flatMap facts = [] := by
    rw [← verdicts_run hpre, verdicts, hdisp, hadd]
    rfl
  have hall : (pre ++ x :: post).flatMap facts = v :: (es.map .error ++ post.flatMap facts) := by
    rw [flatMap_append, flatMap_cons, hnothing, hv]
    rfl
  obtain ⟨hd, ha⟩ := disposition_eq u.driver (run_shape h).first
  rw [verdicts_run h, hall] at hd ha
  obtain ⟨l₁, l₂, hsplit, hl₁, -⟩ := map_eq_append_iff.mp ha
  have hinj : Function.Injective (Except.error : DriverError P → Disposition P) :=
    fun _ _ h => Except.error.inj h
  obtain rfl := map_injective_iff.mpr hinj hl₁
  exact ⟨hd, ⟨l₂, hsplit.symm⟩⟩

/-- A disposition was acquired by a transition before which nothing had been. -/
theorem cause_run {v} (h : Run step (.start b e) tr u) (hv : u.driver.disposition = some v) :
    ∃ pre x post, tr = pre ++ x :: post ∧ (∀ y ∈ pre, facts y = []) ∧ (facts x).head? = some v := by
  have heq := (disposition_eq u.driver (run_shape h).first).1
  rw [verdicts_run h, hv] at heq
  exact head?_flatMap heq.symm

theorem ok_not_mem_panics (v : Completion P.RetirementRequest)
    (wrap : P.Payload → DriverError P) (fs : List P.Payload) : .ok v ∉ panics wrap fs := by
  simp [panics]

theorem ok_not_mem_breach (v : Completion P.RetirementRequest)
    (wrap : P.Payload → DriverError P) (fs : List P.Payload) : .ok v ∉ breach wrap fs := by
  unfold breach
  split
  · simp
  · exact ok_not_mem_panics v wrap fs

theorem completion_of_facts {x : Transition (Config P) (Input P)}
    {v : Completion P.RetirementRequest} (h : .ok v ∈ facts x) :
    (∃ status, x.source.point = .classify ∧ x.input = .classified (.ok status) ∧
      x.source.driver.decision = some .stop ∧ status ≠ .corrupt ∧
      (x.source.driver.phase = .initializing → status ≠ .rejected) ∧ v = .stopped) ∨
    (∃ r, x.source.point = .publish ∧ x.input = .published (.ok (.brk r)) ∧
      v = .retirementRequested r) ∨
    (x.source.point = .consume ∧
      ((x.source.driver.ingress = some (.cont none) ∧ v = .exhausted) ∨
        ∃ r, x.source.driver.ingress = some (.brk r) ∧ v = .retirementRequested r)) := by
  unfold facts at h
  split at h
  · simp [Fold.facts] at h
  · unfold activationFacts at h
    split at h
    · exact absurd h (ok_not_mem_panics _ _ _)
    · simp [ok_not_mem_panics] at h
    · exact absurd h (ok_not_mem_breach _ _ _)
  · next status hp hin =>
    unfold settlementFacts at h
    split at h
    · simp at h
    · next hcorrupt =>
      split at h
      · simp at h
      · next hrejected =>
        split at h
        · next hd =>
          obtain rfl : v = .stopped := by simpa using h
          exact .inl ⟨status, hp, hin, hd, hcorrupt, fun hphase hr => hrejected ⟨hr, hphase⟩, rfl⟩
        · simp at h
        · simp at h
  · simp at h
  · unfold sourceFacts at h
    split at h
    · simp [ok_not_mem_panics] at h
    · exact absurd h (ok_not_mem_panics _ _ _)
    · exact absurd h (ok_not_mem_breach _ _ _)
  · exact absurd h (ok_not_mem_panics _ _ _)
  · unfold nextSourceFacts at h
    split at h
    · simp [ok_not_mem_panics] at h
    · exact absurd h (ok_not_mem_panics _ _ _)
    · exact absurd h (ok_not_mem_breach _ _ _)
  · next reply hp hin =>
    rcases reply with payload | (_ | r)
    · simp [publishFacts] at h
    · simp [publishFacts] at h
    · obtain rfl : v = .retirementRequested r := by simpa [publishFacts] using h
      exact .inr (.inl ⟨r, hp, hin, rfl⟩)
  · exact absurd h (ok_not_mem_panics _ _ _)
  · next hp hin =>
    unfold ingressFacts at h
    split at h
    · simp at h
    · next hg =>
      obtain rfl : v = .exhausted := by simpa using h
      exact .inr (.inr ⟨hp, .inl ⟨hg, rfl⟩⟩)
    · next r hg =>
      obtain rfl : v = .retirementRequested r := by simpa using h
      exact .inr (.inr ⟨hp, .inr ⟨r, hg, rfl⟩⟩)
    · simp at h
  · simp [Fold.facts] at h
  · exact absurd h (ok_not_mem_panics _ _ _)
  · exact absurd h (ok_not_mem_breach _ _ _)
  · exact absurd h (ok_not_mem_panics _ _ _)
  · exact absurd h (ok_not_mem_panics _ _ _)
  · simp at h

/-! ### The last decision -/

def lastDecision (tr : DriverHistory P) : Option ActionDecision :=
  (tr.filterMap folded?).getLast?.map P.decision

theorem lastDecision_snoc (tr : DriverHistory P) (x : Transition (Config P) (Input P)) :
    lastDecision (tr ++ [x])
      = match folded? x with
        | some a => some (P.decision a)
        | none => lastDecision tr := by
  unfold lastDecision
  cases hx : folded? x <;> simp [filterMap_append, hx]

/-- A move writes the decision of its fold, takes the decision, or leaves it. -/
theorem decision_step (h : Shape c.driver c.point) (hm : Moves c i c') :
    (∃ a, folded? ⟨c, i, c'⟩ = some a ∧ c'.driver.decision = some (P.decision a)) ∨
    (folded? ⟨c, i, c'⟩ = none ∧
      (c'.driver.decision = none ∨ c'.driver.decision = c.driver.decision)) := by
  cases hm with
  | again => obtain rfl := h.same; exact .inr ⟨rfl, .inr rfl⟩
  | initialized _ a | apply _ a | unapplied _ a => exact .inl ⟨a, rfl, rfl⟩
  | @uninitialized d b r e he | @unfolded d event b r e he =>
    cases r with
    | ok => cases he
    | err | panicked => exact .inr ⟨rfl, .inr rfl⟩
  | condemned | stopped | continued => exact .inr ⟨rfl, .inl rfl⟩
  | retireActive | abandon =>
    refine .inr ⟨rfl, .inr ?_⟩
    unfold gather
    split <;> rfl
  | @retired d d' p hp loan hl | @dropRetire d d' p hp loan hl =>
    refine .inr ⟨?_, .inr ?_⟩
    · rcases hp with rfl | rfl <;> rfl
    · rcases hp with rfl | rfl <;> cases loan <;> simp only [lend, reduceCtorEq] at hl <;>
        cases hl <;> rfl
  | malformedActivation | activated | unactivated | malformedOffer | exhausted | retained | admitted
  | closed | disposed | sourceClosed | sourceFailed | nextFailed | applied | malformedApply =>
    refine .inr ⟨rfl, .inr ?_⟩
    rw [rejectAll_eq]
  | _ => exact .inr ⟨rfl, .inr rfl⟩

theorem decision_run (h : Run step (.start b e) tr u) :
    ∀ decision, u.driver.decision = some decision → lastDecision tr = some decision := by
  refine run_rule h (by rintro decision ⟨⟩) ?_
  intro tr c i c' _ ih hshape hm decision hd
  rw [lastDecision_snoc]
  rcases decision_step hshape hm with ⟨a, ha, hnew⟩ | ⟨ha, hnone | hsame⟩
  · rw [ha, ← hd, hnew]
  · rw [hnone] at hd; cases hd
  · rw [ha]
    exact ih decision (hsame ▸ hd)

theorem lastDecision_ending {pre post} {t : Config P}
    (hpre : Run step (.start b e) pre t) (ht : t.driver.phase.terminal)
    (hpost : Run step t post u) : lastDecision (pre ++ post) = lastDecision pre := by
  have hend : u.driver.phase.terminal ∧ Shape u.driver u.point ∧
      lastDecision (pre ++ post) = lastDecision pre := by
    induction hpost with
    | refl => exact ⟨ht, run_shape hpre, by rw [append_nil]⟩
    | @snoc post c c' i _ hstep ih =>
      obtain ⟨hterm, hshape, hlast⟩ := ih
      have hm := step_moves hstep
      have hfold : folded? ⟨c, i, c'⟩ = none := by
        have ha := hshape.admits
        unfold folded?
        split
        · next hp _ => rw [hp] at ha; rw [show _ = _ from ha] at hterm; cases hterm
        · next hp _ =>
          rw [hp] at ha
          rw [ExecutionPhase.not_terminal_of_running ha] at hterm
          cases hterm
        · rfl
      refine ⟨(hshape.ending_step hterm hm).1, hshape.step hm, ?_⟩
      rw [← append_assoc, lastDecision_snoc, hfold]
      exact hlast
  exact hend.2.2

/-! ### The origin of an ingress -/

/-- The operation called at `p` replied `v`. -/
def Replied (tr : DriverHistory P) (p : Point P) (v : P.Ingress) : Prop :=
  ∃ y ∈ tr, y.source.point = p ∧ ∃ r, y.input = .acquired r ∧ r.value? = some v

theorem Replied.mono {pre post} {v : P.Ingress} (h : Replied pre p v) :
    Replied (pre ++ post) p v := by
  obtain ⟨y, hy, hrest⟩ := h
  exact ⟨y, mem_append_left _ hy, hrest⟩

/-- What is known of an ingress at the points that may hold one: who replied it. -/
def Origin (tr : DriverHistory P) (c : Config P) : Prop :=
  ∀ v, c.driver.ingress = some v →
    match c.point with
    | .ingressAcquired _ => Replied tr .next v
    | .sourceAcquired _ => Replied tr .nextSource v
    | .consume => Replied tr .next v ∨ (Replied tr .nextSource v ∧ v ≠ .cont none)
    | _ => True

theorem origin_run (h : Run step (.start b e) tr u) : Origin tr u := by
  refine run_rule h (by rintro v ⟨⟩) ?_
  intro tr c i c' _ ih hshape hm v hv
  cases hm with
  | @sourceHeld d ha hx newer older s hq hn hg | @ingressHeld d ha hx hq hp hg =>
    rw [(hshape.live hshape.admits).holds.1] at hg
    cases hg
  | sourceEnded reply | nextEnded reply =>
    exact ⟨_, mem_append_right _ (mem_singleton_self _), rfl, reply, rfl, hv⟩
  | @sourceReady d w hg hw hp =>
    have hsame : w = v := Option.some.inj (hg.symm.trans hv)
    exact .inr ⟨(ih v hv).mono, hsame ▸ hw⟩
  | nextReady => exact .inl ((ih v hv).mono)
  | _ => trivial

theorem Moves.silent {failures} (hm : Moves c i c')
    (hp : c.point = .offered failures ∨ c.point = .sourceAcquired failures) : i = .advance := by
  cases hm with
  | retired hr | dropRetire hr => rcases hr with rfl | rfl <;> simp at hp
  | malformedOffer | exhausted | retained | admitted | closed | sourceClosed | sourceFailed
  | sourceMissing | sourceReady => rfl
  | _ => simp at hp

/-! ## The law -/

/-- **The fused disposition is exact**, for any hosts and any cancellations.

* The disposition and the additional failures are the facts acquired so far, in order.
* `Stopped` means that the last decision was `Stop` and that the settlement classified then was not
  corrupt and, for the initialization, not rejected.
* `Exhausted` means that `next` replied `Continue(None)`, and `RetirementRequested(r)` that `next`,
  `next_source` or `publish` replied `Break(r)`.
* A corrupt settlement, and a rejected one of the initialization, is the disposition, whatever was
  decided.
* Source closure, by a `Closed` reply acquired with the input slot empty or by `Continue(None)`
  from `next_source`, is the disposition, and the panics of the same operation follow it. -/
theorem fused_disposition (b : P.Behavior) (e : P.Environment) (tr : DriverHistory P)
    (u : Config P) (h : Run step (.start b e) tr u) :
    u.driver.disposition = (tr.flatMap facts).head? ∧
    u.driver.additionalFailures.map .error = (tr.flatMap facts).tail ∧
    (u.driver.disposition = some (.ok .stopped) →
      lastDecision tr = some .stop ∧
      ∃ x ∈ tr, ∃ status, x.source.point = .classify ∧ x.input = .classified (.ok status) ∧
        x.source.driver.decision = some .stop ∧ status ≠ .corrupt ∧
        (x.source.driver.phase = .initializing → status ≠ .rejected)) ∧
    (u.driver.disposition = some (.ok .exhausted) → Replied tr .next (.cont none)) ∧
    (∀ r, u.driver.disposition = some (.ok (.retirementRequested r)) →
      Replied tr .next (.brk r) ∨ Replied tr .nextSource (.brk r) ∨
      ∃ y ∈ tr, y.source.point = .publish ∧ y.input = .published (.ok (.brk r))) ∧
    (∀ x ∈ tr, x.source.point = .classify → x.input = .classified (.ok .corrupt) →
      u.driver.disposition = some (.error (.settlement .corrupt))) ∧
    (∀ x ∈ tr, x.source.point = .classify → x.input = .classified (.ok .rejected) →
      x.source.driver.phase = .initializing →
      u.driver.disposition = some (.error (.settlement .rejected))) ∧
    (∀ x ∈ tr, ∀ failures s, x.source.point = .offered failures →
      x.source.driver.sourceInput = none → x.source.driver.sourceReceived = some (.closed s) →
      u.driver.disposition = some (.error (.settlement .sourceClosed)) ∧
      (failures.map .hostExecutionPanicked).IsPrefix u.driver.additionalFailures) ∧
    (∀ x ∈ tr, ∀ failures, x.source.point = .sourceAcquired failures →
      x.source.driver.ingress = some (.cont none) →
      u.driver.disposition = some (.error (.settlement .sourceClosed)) ∧
      (failures.map .hostExecutionPanicked).IsPrefix u.driver.additionalFailures) := by
  have hshape := run_shape h
  obtain ⟨hd, ha⟩ := disposition_eq u.driver hshape.first
  rw [verdicts_run h] at hd ha
  refine ⟨hd, ha, ?_, ?_, ?_, ?_, ?_, ?_, ?_⟩
  · intro hstop
    obtain ⟨pre, x, post, rfl, -, hx⟩ := cause_run h hstop
    rcases completion_of_facts (mem_of_head? hx) with
      ⟨status, hp, hin, hdec, hcorrupt, hrejected, -⟩ | ⟨r, -, -, hne⟩ | ⟨-, ⟨-, hne⟩ | ⟨r, -, hne⟩⟩
    · obtain ⟨hpre, hstep, hpost⟩ := h.at
      refine ⟨?_, x, by simp, status, hp, hin, hdec, hcorrupt, hrejected⟩
      have hterm : x.target.driver.phase.terminal :=
        terminal_of_facts (run_shape hpre) (step_moves hstep) (ne_nil_of_mem (mem_of_head? hx))
      have hsplit : pre ++ x :: post = (pre ++ [⟨x.source, x.input, x.target⟩]) ++ post := by simp
      rw [hsplit, lastDecision_ending (hpre.snoc hstep) hterm hpost, lastDecision_snoc]
      have hnofold : folded? ⟨x.source, x.input, x.target⟩ = none := by
        simp [folded?, hp, hin]
      rw [hnofold]
      exact decision_run hpre _ hdec
    all_goals cases hne
  · intro hex
    obtain ⟨pre, x, post, rfl, -, hx⟩ := cause_run h hex
    rcases completion_of_facts (mem_of_head? hx) with
      ⟨status, -, -, -, -, -, hne⟩ | ⟨r, -, -, hne⟩ | ⟨hp, ⟨hg, -⟩ | ⟨r, -, hne⟩⟩
    · cases hne
    · cases hne
    · have horigin := origin_run h.at.1 _ hg
      rw [hp] at horigin
      rcases horigin with hnext | ⟨-, hne⟩
      · exact hnext.mono
      · exact absurd rfl hne
    · cases hne
  · intro r hreq
    obtain ⟨pre, x, post, rfl, -, hx⟩ := cause_run h hreq
    rcases completion_of_facts (mem_of_head? hx) with
      ⟨status, -, -, -, -, -, hne⟩ | ⟨r', hp, hin, hr⟩ | ⟨hp, ⟨-, hne⟩ | ⟨r', hg, hr⟩⟩
    · cases hne
    · obtain rfl := Completion.retirementRequested.inj hr
      exact .inr (.inr ⟨x, by simp, hp, hin⟩)
    · cases hne
    · obtain rfl := Completion.retirementRequested.inj hr
      have horigin := origin_run h.at.1 _ hg
      rw [hp] at horigin
      rcases horigin with hnext | ⟨hsource, -⟩
      · exact .inl hnext.mono
      · exact .inr (.inl hsource.mono)
  · intro x hx hp hin
    have hrun : x.source.driver.phase.running := (run_moves h hx).1.admits_of hp
    exact (fact_stands [] h hx hrun (by simp [facts, hp, hin, settlementFacts])).1
  · intro x hx hp hin hphase
    have hrun : x.source.driver.phase.running := by rw [hphase]; rfl
    exact (fact_stands [] h hx hrun (by simp [facts, hp, hin, settlementFacts, hphase])).1
  · intro x hx failures s hp hi hr
    obtain ⟨hsource, hm⟩ := run_moves h hx
    have hrun : x.source.driver.phase.running := hsource.admits_of hp
    have hin := hm.silent (.inl hp)
    exact fact_stands _ h hx hrun (by simp only [facts, hp, hin, sourceFacts, hi, hr, panics_eq])
  · intro x hx failures hp hg
    obtain ⟨hsource, hm⟩ := run_moves h hx
    have hrun : x.source.driver.phase.running := hsource.admits_of hp
    have hin := hm.silent (.inr hp)
    exact fact_stands _ h hx hrun (by simp only [facts, hp, hin, nextSourceFacts, hg, panics_eq])

/-- The source closes, and the destructor of the offering future panics: the closure is the
disposition and the panic follows it. -/
theorem fused_disposition_closing :
    let inputs := offering ++ [.completed (.source none (some (.closed 3))) (.reply () (some 8)),
      .advance]
    (play inputs).2.driver.disposition = some (.error (.settlement .sourceClosed)) ∧
      [.hostExecutionPanicked 8] <+: (play inputs).2.driver.additionalFailures := by
  intro inputs
  have hrun := play_run inputs rfl
  have hclosed := (fused_disposition _ _ _ _ hrun).2.2.2.2.2.2.2.1
  have hlast : (play inputs).1.getLast? = some ⟨⟨_, .offered [8]⟩, .advance, (play inputs).2⟩ := rfl
  exact hclosed _ (mem_of_getLast? hlast) [8] 3 rfl rfl rfl

/-- A host that answers `Closed` but leaves the offered settlement in the input slot has broken the
contract, and that is what the driver records. -/
theorem closed_reply_beside_its_input :
    let inputs := offering ++ [.completed (.source (some 3) (some (.closed 3))) (.reply () none),
      .advance]
    Run step numberStart (play inputs).1 (play inputs).2 ∧
      (∃ x ∈ (play inputs).1, x.source.point = .offerNext ∧
        x.target.driver.sourceReceived = some (.closed 3)) ∧
      (play inputs).2.driver.disposition = some (.error .interpreterContractFailed) ∧
      (play inputs).2.driver.additionalFailures = [] := by
  intro inputs
  refine ⟨play_run inputs rfl, ?_, rfl, rfl⟩
  have hoffer : (play inputs).1[10]? = some
      ⟨⟨_, .offerNext⟩, .completed (.source (some 3) (some (.closed 3))) (.reply () none), _⟩ := rfl
  exact ⟨_, mem_of_getElem? hoffer, rfl, rfl⟩

end Engine
