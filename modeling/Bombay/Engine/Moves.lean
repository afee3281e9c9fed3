import Bombay.Engine.Driver

/-!
# What one step of the driver can do

`drive` is one loop with some twenty exits, and the helpers it calls change the phase behind its
back.  This file says once what a step can do: `Moves` lists the moves, one rule for each way
through the code, with the guard that was passed and the slots that were written, and `step_moves`
is the only proof that opens the code.  Every law of the driver is derived from `Moves`.

All failures are recorded by `rejectAll`, whose list is spelled out in each rule in the order of
recording, so the rules are also the table of what is acquired when.
-/

set_option autoImplicit false

namespace Engine

open Machine List Option Driver

variable {P : Port}

/-! ## Recording several errors -/

namespace Driver

@[simp]
theorem rejectAll_nil (d : Driver P) : d.rejectAll [] = d := rfl

@[simp]
theorem rejectAll_cons (d : Driver P) (e : DriverError P) (es : List (DriverError P)) :
    d.rejectAll (e :: es) = (d.reject e).rejectAll es := rfl

/-- Recording errors touches the phase, the disposition and the additional failures only. -/
theorem rejectAll_eq (d : Driver P) (es : List (DriverError P)) : d.rejectAll es = { d with
      phase := if es = [] then d.phase else .retiring
      disposition := if d.disposition.isNone then es.head?.map .error else d.disposition
      additionalFailures :=
        d.additionalFailures ++ if d.disposition.isNone then es.tail else es } := by
  induction es generalizing d with
  | nil =>
    have hsame : (if d.disposition.isNone then none else d.disposition) = d.disposition := by
      cases d.disposition <;> rfl
    simp only [rejectAll_nil, if_pos, head?_nil, map_none, tail_nil, ite_self, append_nil, hsame]
  | cons _ _ ih =>
    rw [rejectAll_cons, ih]
    cases hd : d.disposition <;> simp [reject, hd]

/-- The errors recorded when a reply does not have the agreed form: the host's panics, or, when
there are none, the breach itself. -/
def blame (d : Driver P) (es : List (DriverError P)) : List (DriverError P) :=
  if es = [] ∧ d.phase ≠ .retiring then [.interpreterContractFailed] else es

theorem rejectContract_rejectAll (d : Driver P) (es : List (DriverError P)) :
    (d.rejectAll es).rejectContract = d.rejectAll (d.blame es) := by
  unfold rejectContract blame
  cases es with
  | nil =>
    by_cases hp : d.phase = .retiring
    · simp [hp]
    · simp [hp]
  | cons => simp [rejectAll_eq]

end Driver

/-- The error a fold ends in, with the given account of a panic. -/
def Fold.error? (panicked : P.Payload → DriverError P) : Fold P → Option (DriverError P)
  | .ok _ => none
  | .err error => some (.behavior error)
  | .panicked payload => some (panicked payload)

/-! ## The moves -/

inductive Moves : Config P → Input P → Config P → Prop
  | start {d} : Moves ⟨d, .idle⟩ .receiveRun ⟨d, .head⟩
  /-- The caller starts it again with the driver it got back. -/
  | again {d d'} : Moves ⟨d, .received (.error d')⟩ .receiveRun ⟨d', .head⟩
  | initialization {d} (hp : d.phase = .prepared) :
      Moves ⟨d, .head⟩ .advance ⟨{ d with phase := .activating }, .initialization⟩
  | activate {d} (hp : d.phase = .activating) : Moves ⟨d, .head⟩ .advance ⟨d, .activate⟩
  | classify {d} (hp : d.phase.running) (hi : d.interpretation.isSome) :
      Moves ⟨d, .head⟩ .advance ⟨d, .classify⟩
  | settle {d} (hp : d.phase.running) (hi : d.interpretation = none) :
      Moves ⟨d, .head⟩ .advance ⟨d, .settle⟩
  /-- `Retiring` with a malformed source reply. -/
  | surrender {d} (hp : d.phase = .retiring) (hi : d.sourceInput.isSome)
      (hr : d.sourceReceived.isSome) : Moves ⟨d, .head⟩ .advance ⟨d, .finish⟩
  | retirePrepared {d} (hp : d.phase = .retiring)
      (hs : ¬(d.sourceInput.isSome ∧ d.sourceReceived.isSome)) (he : d.environment.isSome)
      (ha : d.active = none) (hr : d.residual = none) :
      Moves ⟨d, .head⟩ .advance ⟨{ d with phase := .retirementAttempted }, .retirePrepared⟩
  | retireActive {d} (hp : d.phase = .retiring)
      (hs : ¬(d.sourceInput.isSome ∧ d.sourceReceived.isSome)) (he : d.environment = none)
      (ha : d.active.isSome) (hr : d.residual = none) :
      Moves ⟨d, .head⟩ .advance ⟨{ d.gather with phase := .retirementAttempted }, .retireActive⟩
  /-- `Retiring` with no retirement to start. -/
  | abandon {d} (hp : d.phase = .retiring) (hs : ¬(d.sourceInput.isSome ∧ d.sourceReceived.isSome))
      (hn : d.residual.isSome ∨ (d.environment.isSome ↔ d.active.isSome)) :
      Moves ⟨d, .head⟩ .advance ⟨d.gather, .finish⟩
  | attempted {d} (hp : d.phase = .retirementAttempted) : Moves ⟨d, .head⟩ .advance ⟨d, .finish⟩
  | initialized {d} (b a) :
      Moves ⟨d, .initialization⟩ (.folded b (.ok a))
        ⟨{ d with behavior := b, decision := some (P.decision a), actions := some a }, .head⟩
  | uninitialized {d} (b) {r e} (he : r.error? .initializationPanicked = some e) :
      Moves ⟨d, .initialization⟩ (.folded b r) ⟨{ d with behavior := b }.reject e, .head⟩
  /-- Activation returned without conserving what it was lent. -/
  | malformedActivation {d} (environment actions received reply)
      (hm : environment.isSome ∨ actions.isSome ∨ received = none) :
      Moves ⟨d, .activate⟩ (.completed (.activation environment actions received) reply)
        ⟨{ d with environment := environment, actions := actions, activation := received }.rejectAll
          (d.blame (reply.failures.map .activationPanicked)), .head⟩
  | activated {d} (active i reply) :
      Moves ⟨d, .activate⟩ (.completed (.activation none none (some (.ok (active, i)))) reply)
        ⟨{ d with
            environment := none
            actions := none
            activation := none
            active := some active
            interpretation := some i
            phase := if d.phase = ExecutionPhase.retiring then .retiring
              else .initializing }.rejectAll
          (reply.failures.map .activationPanicked), .head⟩
  /-- Activation was refused with a residual. -/
  | unactivated {d} (error residual reply) :
      Moves ⟨d, .activate⟩
        (.completed (.activation none none (some (.error (error, residual)))) reply)
        ⟨{ d with
            environment := none
            actions := none
            activation := none
            residual := some residual }.rejectAll
          (.activation error :: reply.failures.map .activationPanicked), .head⟩
  | unreadable {d} (hi : d.interpretation.isSome) (payload) :
      Moves ⟨d, .classify⟩ (.classified (.error payload))
        ⟨d.reject (.hostExecutionPanicked payload), .head⟩
  | condemned {d i} (hi : d.interpretation = some i) {status e} (hv : d.verdict status = .error e) :
      Moves ⟨d, .classify⟩ (.classified (.ok status)) ⟨(d.enqueue i).reject e, .head⟩
  | stopped {d i} (hi : d.interpretation = some i) {status} (hv : d.verdict status = .ok .stop) :
      Moves ⟨d, .classify⟩ (.classified (.ok status)) ⟨(d.enqueue i).complete .stopped, .head⟩
  | continued {d i} (hi : d.interpretation = some i) {status} (hv : d.verdict status = .ok .cont) :
      Moves ⟨d, .classify⟩ (.classified (.ok status))
        ⟨{ d.enqueue i with
            phase := if d.phase = .initializing then .settlingInitialization else d.phase },
          .settle⟩
  | inactive {d} (ha : d.active = none) :
      Moves ⟨d, .settle⟩ .advance ⟨d.reject .interpreterContractFailed, .head⟩
  | offerNext {d} (ha : d.active.isSome) (hx : d.sourceIndex.isSome)
      (hr : d.sourceReceived = none) : Moves ⟨d, .settle⟩ .advance ⟨d, .offerNext⟩
  /-- The row in flight was answered before a drop. -/
  | answered {d} (ha : d.active.isSome) (hx : d.sourceIndex.isSome)
      (hr : d.sourceReceived.isSome) : Moves ⟨d, .settle⟩ .advance ⟨d, .offered []⟩
  /-- The first row that is not retained is taken into flight. -/
  | take {d} (ha : d.active.isSome) (hx : d.sourceIndex = none) {newer older s}
      (hq : d.settlements = newer ++ .offer s :: older) (hn : ∀ row ∈ newer, row.isRetained) :
      Moves ⟨d, .settle⟩ .advance
        ⟨{ d with
            settlements := newer ++ older
            sourceIndex := some newer.length
            sourceInput := some s }, .head⟩
  | nextSource {d} (ha : d.active.isSome) (hx : d.sourceIndex = none) {newer older s}
      (hq : d.settlements = newer ++ .awaitSource s :: older) (hn : ∀ row ∈ newer, row.isRetained)
      (hg : d.ingress = none) :
      Moves ⟨d, .settle⟩ .advance
        ⟨{ d with settlements := newer ++ .offer s :: older }, .nextSource⟩
  /-- The same with an ingress already acquired. -/
  | sourceHeld {d} (ha : d.active.isSome) (hx : d.sourceIndex = none) {newer older s}
      (hq : d.settlements = newer ++ .awaitSource s :: older) (hn : ∀ row ∈ newer, row.isRetained)
      (hg : d.ingress.isSome) :
      Moves ⟨d, .settle⟩ .advance
        ⟨{ d with settlements := newer ++ .offer s :: older }, .sourceAcquired []⟩
  | publish {d} (ha : d.active.isSome) (hx : d.sourceIndex = none)
      (hq : ∀ row ∈ d.settlements, row.isRetained) (hp : d.phase = .settlingInitialization) :
      Moves ⟨d, .settle⟩ .advance ⟨d, .publish⟩
  | next {d} (ha : d.active.isSome) (hx : d.sourceIndex = none)
      (hq : ∀ row ∈ d.settlements, row.isRetained) (hp : d.phase ≠ .settlingInitialization)
      (hg : d.ingress = none) : Moves ⟨d, .settle⟩ .advance ⟨d, .next⟩
  /-- The same with an ingress already acquired. -/
  | ingressHeld {d} (ha : d.active.isSome) (hx : d.sourceIndex = none)
      (hq : ∀ row ∈ d.settlements, row.isRetained) (hp : d.phase ≠ .settlingInitialization)
      (hg : d.ingress.isSome) : Moves ⟨d, .settle⟩ .advance ⟨d, .ingressAcquired []⟩
  | offerEnded {d} (settlement received reply) :
      Moves ⟨d, .offerNext⟩ (.completed (.source settlement received) reply)
        ⟨{ d with sourceInput := settlement, sourceReceived := received }, .offered reply.failures⟩
  | malformedOffer {d fs}
      (hm : d.sourceInput.isSome ∨ d.sourceReceived = none ∨ d.sourceIndex = none) :
      Moves ⟨d, .offered fs⟩ .advance ⟨d.rejectAll (d.blame (fs.map .hostExecutionPanicked)), .head⟩
  | exhausted {d fs s index}
      (hi : d.sourceInput = none) (hr : d.sourceReceived = some (.exhausted s))
      (hx : d.sourceIndex = some index) :
      Moves ⟨d, .offered fs⟩ .advance
        ⟨{ d with sourceReceived := none, sourceIndex := none }.rejectAll
          (fs.map .hostExecutionPanicked), .dispose s⟩
  | retained {d fs s index} (hi : d.sourceInput = none) (hr : d.sourceReceived = some (.retained s))
      (hx : d.sourceIndex = some index) :
      Moves ⟨d, .offered fs⟩ .advance
        ⟨{ d with
            sourceReceived := none
            sourceIndex := none
            settlements := d.settlements.insertIdx index (.retained s) }.rejectAll
          (fs.map .hostExecutionPanicked), .head⟩
  | admitted {d fs s index} (hi : d.sourceInput = none) (hr : d.sourceReceived = some (.admitted s))
      (hx : d.sourceIndex = some index) :
      Moves ⟨d, .offered fs⟩ .advance
        ⟨{ d with
            sourceReceived := none
            sourceIndex := none
            settlements := d.settlements.insertIdx index (.awaitSource s) }.rejectAll
          (fs.map .hostExecutionPanicked), .head⟩
  | closed {d fs s index} (hi : d.sourceInput = none) (hr : d.sourceReceived = some (.closed s))
      (hx : d.sourceIndex = some index) :
      Moves ⟨d, .offered fs⟩ .advance
        ⟨{ d with
            sourceReceived := none
            sourceIndex := none
            settlements := d.settlements.insertIdx index (.offer s) }.rejectAll
          (.settlement .sourceClosed :: fs.map .hostExecutionPanicked), .head⟩
  | disposed {d s} (failure) :
      Moves ⟨d, .dispose s⟩ (.disposed failure)
        ⟨d.rejectAll (failure.toList.map .hostExecutionPanicked), .head⟩
  | sourceEnded {d} (reply) :
      Moves ⟨d, .nextSource⟩ (.acquired reply)
        ⟨{ d with ingress := reply.value? }, .sourceAcquired reply.failures⟩
  | sourceClosed {d fs} (hg : d.ingress = some (.cont none)) :
      Moves ⟨d, .sourceAcquired fs⟩ .advance
        ⟨{ d with ingress := none }.rejectAll
          (.settlement .sourceClosed :: fs.map .hostExecutionPanicked), .head⟩
  /-- `next_source` panicked, with or without a reply. -/
  | sourceFailed {d fs} (hg : d.ingress ≠ some (.cont none)) (hf : fs ≠ [] ∨ d.phase = .retiring) :
      Moves ⟨d, .sourceAcquired fs⟩ .advance ⟨d.rejectAll (fs.map .hostExecutionPanicked), .head⟩
  | sourceMissing {d} (hg : d.ingress = none) (hp : d.phase ≠ .retiring) :
      Moves ⟨d, .sourceAcquired []⟩ .advance ⟨d.reject .interpreterContractFailed, .head⟩
  | sourceReady {d v} (hg : d.ingress = some v) (hv : v ≠ .cont none) (hp : d.phase ≠ .retiring) :
      Moves ⟨d, .sourceAcquired []⟩ .advance ⟨d, .consume⟩
  | published {d} :
      Moves ⟨d, .publish⟩ (.published (.ok (.cont ()))) ⟨{ d with phase := .active }, .head⟩
  | unpublished {d} (request) :
      Moves ⟨d, .publish⟩ (.published (.ok (.brk request)))
        ⟨d.complete (.retirementRequested request), .head⟩
  | publishFailed {d} (payload) :
      Moves ⟨d, .publish⟩ (.published (.error payload))
        ⟨d.reject (.hostExecutionPanicked payload), .head⟩
  | nextEnded {d} (reply) :
      Moves ⟨d, .next⟩ (.acquired reply)
        ⟨{ d with ingress := reply.value? }, .ingressAcquired reply.failures⟩
  /-- `next` panicked, with or without a reply. -/
  | nextFailed {d fs} (hf : fs ≠ [] ∨ d.phase = .retiring) :
      Moves ⟨d, .ingressAcquired fs⟩ .advance ⟨d.rejectAll (fs.map .hostExecutionPanicked), .head⟩
  | nextReady {d} (hp : d.phase ≠ .retiring) : Moves ⟨d, .ingressAcquired []⟩ .advance ⟨d, .consume⟩
  | fold {d event} (hg : d.ingress = some (.cont (some event))) :
      Moves ⟨d, .consume⟩ .advance ⟨{ d with ingress := none }, .transition event⟩
  | ended {d} (hg : d.ingress = some (.cont none)) :
      Moves ⟨d, .consume⟩ .advance ⟨{ d with ingress := none }.complete .exhausted, .head⟩
  | requested {d request} (hg : d.ingress = some (.brk request)) :
      Moves ⟨d, .consume⟩ .advance
        ⟨{ d with ingress := none }.complete (.retirementRequested request), .head⟩
  | missing {d} (hg : d.ingress = none) :
      Moves ⟨d, .consume⟩ .advance ⟨d.reject .interpreterContractFailed, .head⟩
  | apply {d event} (b a) (ha : d.active.isSome) :
      Moves ⟨d, .transition event⟩ (.folded b (.ok a))
        ⟨{ d with behavior := b, decision := some (P.decision a), actions := some a }, .apply⟩
  /-- The event fold succeeded without a live environment. -/
  | unapplied {d event} (b a) (ha : d.active = none) :
      Moves ⟨d, .transition event⟩ (.folded b (.ok a))
        ⟨{ d with behavior := b, decision := some (P.decision a), actions := some a }.reject
          .interpreterContractFailed, .head⟩
  | unfolded {d event} (b) {r e} (he : r.error? .transitionPanicked = some e) :
      Moves ⟨d, .transition event⟩ (.folded b r) ⟨{ d with behavior := b }.reject e, .head⟩
  /-- `apply` consumed the actions and gave an interpretation. -/
  | applied {d} (i reply) :
      Moves ⟨d, .apply⟩ (.completed (.application none (some i)) reply)
        ⟨{ d with actions := none, interpretation := some i }.rejectAll
          (reply.failures.map .hostExecutionPanicked), .head⟩
  /-- `apply` kept the actions or gave no interpretation. -/
  | malformedApply {d} (actions received reply) (hm : actions.isSome ∨ received = none) :
      Moves ⟨d, .apply⟩ (.completed (.application actions received) reply)
        ⟨{ d with actions := actions, interpretation := received }.rejectAll
          (d.blame (reply.failures.map .hostExecutionPanicked)), .head⟩
  | retired {d d' p} (hp : p = .retirePrepared ∨ p = .retireActive)
      {loan} (hl : d.lend p loan = some d') (reply) :
      Moves ⟨d, p⟩ (.completed loan reply)
        ⟨{ d' with additionalFailures :=
            d'.additionalFailures ++ reply.failures.map .retirementPanicked }, .finish⟩
  | deliver {d} : Moves ⟨d, .finish⟩ .advance ⟨d, .received d.deliver⟩
  | dropActivate {d} (environment actions received) :
      Moves ⟨d, .activate⟩ (.dropped (.activation environment actions received))
        ⟨{ d with environment := environment, actions := actions, activation := received }, .idle⟩
  | dropOffer {d} (settlement received) :
      Moves ⟨d, .offerNext⟩ (.dropped (.source settlement received))
        ⟨{ d with sourceInput := settlement, sourceReceived := received }, .idle⟩
  | dropNextSource {d} : Moves ⟨d, .nextSource⟩ (.dropped .ingress) ⟨d, .idle⟩
  | dropNext {d} : Moves ⟨d, .next⟩ (.dropped .ingress) ⟨d, .idle⟩
  | dropApply {d} (actions received) :
      Moves ⟨d, .apply⟩ (.dropped (.application actions received))
        ⟨{ d with actions := actions, interpretation := received }, .idle⟩
  | dropRetire {d d' p} (hp : p = .retirePrepared ∨ p = .retireActive)
      {loan} (hl : d.lend p loan = some d') :
      Moves ⟨d, p⟩ (.dropped loan) ⟨d', .idle⟩

/-! ## The code makes only these moves -/

variable {d : Driver P} {p : Point P} {c : Config P}

theorem folded_moves (b : P.Behavior) (r : Fold P)
    (h : step ⟨d, p⟩ (.folded b r) = some c) : Moves ⟨d, p⟩ (.folded b r) c := by
  cases p <;> cases r <;> simp only [step, some.injEq, reduceCtorEq] at h <;> subst h
  case initialization.ok a => exact .initialized b a
  case initialization.err e => exact .uninitialized b rfl
  case initialization.panicked payload => exact .uninitialized b rfl
  case transition.ok event a =>
    unfold decided
    dsimp only
    split
    · next ha => exact .unapplied b a (by simpa using ha)
    · next ha => exact .apply b a (by simpa [isSome_iff_ne_none] using ha)
  case transition.err event e => exact .unfolded b rfl
  case transition.panicked event payload => exact .unfolded b rfl

theorem retire_moves (hp : d.phase = .retiring) : Moves ⟨d, .head⟩ .advance d.retire := by
  unfold retire
  by_cases hs : d.sourceInput.isSome ∧ d.sourceReceived.isSome
  · rw [if_pos (by simpa using hs)]
    exact .surrender hp hs.1 hs.2
  · rw [if_neg (by simpa using hs)]
    have henv : d.gather.environment = d.environment := by unfold gather; split <;> rfl
    have hact : d.gather.active = d.active := by unfold gather; split <;> rfl
    have hres : d.gather.residual = d.residual := by unfold gather; split <;> rfl
    simp only
    split
    · next he ha hr =>
      rw [henv] at he; rw [hact] at ha; rw [hres] at hr
      have hgather : d.gather = d := by simp [gather, ha]
      rw [hgather]
      exact .retirePrepared hp hs (by simp [he]) ha hr
    · next he ha hr =>
      rw [henv] at he; rw [hact] at ha; rw [hres] at hr
      exact .retireActive hp hs he (by simp [ha]) hr
    · rename_i h1 h2
      rw [henv, hact, hres] at h1 h2
      refine .abandon hp hs ?_
      cases he : d.environment <;> cases ha : d.active <;> cases hr : d.residual <;> simp_all

theorem head_moves (d : Driver P) : Moves ⟨d, .head⟩ .advance d.head := by
  unfold Driver.head
  have hrun (hp : d.phase.running) : Moves ⟨d, .head⟩ .advance
      (if d.interpretation.isSome then ⟨d, .classify⟩ else ⟨d, .settle⟩) := by
    split
    · next hi => exact .classify hp hi
    · next hi => exact .settle hp (by simpa using hi)
  split
  · next hp => exact .initialization hp
  · next hp => exact .activate hp
  iterate 3
    · next hp => exact hrun (by simp [hp])
  · next hp => exact retire_moves hp
  · next hp => exact .attempted hp

variable {α : Type*}

theorem insertIdx_append_length (l l' : List α) (a : α) :
    (l ++ l').insertIdx l.length a = l ++ a :: l' := by
  induction l with
  | nil => rfl
  | cons _ _ ih => simpa using ih

theorem insertIdx_of_le {l : List α} {n : ℕ} (h : n ≤ l.length) (a : α) :
    l.insertIdx n a = l.take n ++ a :: l.drop n := by
  have hinsert := insertIdx_append_length (l.take n) (l.drop n) a
  rwa [length_take_of_le h, take_append_drop] at hinsert

theorem findIdx?_split {S : Type} {q : List (SettlementTurn S)} {index : ℕ}
    (h : q.findIdx? (fun turn => !turn.isRetained) = some index) :
    ∃ newer row older, q = newer ++ row :: older ∧ index = newer.length ∧
      row.isRetained = false ∧ ∀ r ∈ newer, r.isRetained := by
  induction q generalizing index with
  | nil => simp at h
  | cons r q ih =>
    rw [findIdx?_cons] at h
    by_cases hr : r.isRetained
    · simp only [hr, Bool.not_true, Bool.false_eq_true, ↓reduceIte, map_eq_some_iff] at h
      obtain ⟨k, hk, rfl⟩ := h
      obtain ⟨newer, row, older, rfl, rfl, hrow, hnewer⟩ := ih hk
      exact ⟨r :: newer, row, older, rfl, rfl, hrow, forall_mem_cons.mpr ⟨hr, hnewer⟩⟩
    · simp only [hr, Bool.not_false, ↓reduceIte, some.injEq] at h
      exact ⟨[], r, q, rfl, h.symm, by simpa using hr, by simp⟩

theorem select_moves (ha : d.active.isSome) (hx : d.sourceIndex = none) :
    Moves ⟨d, .settle⟩ .advance d.select := by
  unfold select
  split
  · next index hfind =>
    obtain ⟨newer, row, older, hq, rfl, hrow, hn⟩ := findIdx?_split hfind
    have hget : d.settlements[newer.length]? = some row := by simp [hq]
    have herase : d.settlements.eraseIdx newer.length = newer ++ older := by
      simp [hq, eraseIdx_append_of_length_le]
    rw [hget, herase]
    cases row with
    | offer => exact .take ha hx hq hn
    | awaitSource =>
      simp only [insertIdx_append_length]
      split
      · next hg => exact .sourceHeld ha hx hq hn hg
      · next hg => exact .nextSource ha hx hq hn (by simpa using hg)
    | retained => simp at hrow
  · next hfind =>
    have hall : ∀ row ∈ d.settlements, row.isRetained := by
      simpa [findIdx?_eq_none_iff] using hfind
    split
    · next hp => exact .publish ha hx hall hp
    · next hp =>
      split
      · next hg => exact .ingressHeld ha hx hall hp hg
      · next hg => exact .next ha hx hall hp (by simpa using hg)

theorem settle_moves (d : Driver P) : Moves ⟨d, .settle⟩ .advance d.settle := by
  unfold settle
  split
  · next ha => exact .inactive (by simpa using ha)
  · next ha =>
    have ha : d.active.isSome := by simpa [isSome_iff_ne_none] using ha
    split
    · next hx =>
      split
      · next hr => exact .offerNext ha hx (by simpa using hr)
      · next hr => exact .answered ha hx (by simpa [isSome_iff_ne_none] using hr)
    · next hx => exact select_moves ha (by simpa using hx)

theorem offered_moves (d : Driver P) (fs : List P.Payload) :
    Moves ⟨d, .offered fs⟩ .advance (d.offered fs) := by
  unfold offered receiveExecutionFailures
  split
  · next custody index hi hr hx =>
    cases custody with
    | exhausted => exact .exhausted hi hr hx
    | retained => exact .retained hi hr hx
    | admitted => exact .admitted hi hr hx
    | closed => exact .closed hi hr hx
  · next h =>
    rw [rejectContract_rejectAll]
    refine .malformedOffer ?_
    cases hi : d.sourceInput <;> cases hr : d.sourceReceived <;> cases hx : d.sourceIndex <;>
      simp_all

theorem sourceAcquired_moves (d : Driver P) (fs : List P.Payload) :
    Moves ⟨d, .sourceAcquired fs⟩ .advance (d.sourceAcquired fs) := by
  unfold sourceAcquired receiveExecutionFailures
  by_cases hg : d.ingress = some (.cont none)
  · have hclosed : d.noteClosure
        = { d with ingress := none }.reject (.settlement .sourceClosed) := by
      simp [noteClosure, hg]
    simp only [hclosed]
    rw [if_pos (by simp [rejectAll_eq, reject])]
    exact .sourceClosed hg
  · have hsame : d.noteClosure = d := by
      unfold noteClosure
      split
      · next h => exact absurd h hg
      · rfl
    simp only [hsame]
    by_cases hf : fs ≠ [] ∨ d.phase = .retiring
    · rw [if_pos (by simp only [rejectAll_eq, map_eq_nil_iff]; grind)]
      exact .sourceFailed hg hf
    · push Not at hf
      obtain ⟨rfl, hp⟩ := hf
      simp only [map_nil, rejectAll_nil, if_neg hp]
      cases hv : d.ingress with
      | none => exact .sourceMissing hv hp
      | some => exact .sourceReady hv (fun h => hg (h ▸ hv)) hp

theorem ingressAcquired_moves (d : Driver P) (fs : List P.Payload) :
    Moves ⟨d, .ingressAcquired fs⟩ .advance (d.ingressAcquired fs) := by
  unfold ingressAcquired receiveExecutionFailures
  by_cases hf : fs ≠ [] ∨ d.phase = .retiring
  · simp only
    rw [if_pos (by simp only [rejectAll_eq, map_eq_nil_iff]; grind)]
    exact .nextFailed hf
  · push Not at hf
    obtain ⟨rfl, hp⟩ := hf
    simp only [map_nil, rejectAll_nil, if_neg hp]
    exact .nextReady hp

theorem consume_moves (d : Driver P) : Moves ⟨d, .consume⟩ .advance d.consume := by
  unfold consume
  split
  · next hg => exact .fold hg
  · next hg => exact .ended hg
  · next hg => exact .requested hg
  · next hg => exact .missing hg

theorem activated_moves (environment : Option P.Environment) (actions : Option P.Actions)
    (received : Option P.Activation) (reply : Received P.Payload Unit) :
    Moves ⟨d, .activate⟩ (.completed (.activation environment actions received) reply)
      (activated
        { d with environment := environment, actions := actions, activation := received }
        reply.failures) := by
  unfold activated receiveActivationFailures
  dsimp only
  split
  · exact .activated _ _ reply
  · exact .unactivated _ _ reply
  · next h1 h2 =>
    rw [rejectContract_rejectAll]
    refine .malformedActivation environment actions received reply ?_
    rcases environment with _ | e <;> rcases actions with _ | a <;>
      rcases received with _ | (⟨error, residual⟩ | ⟨active, i⟩) <;> simp_all

theorem classified_moves {i} (hi : d.interpretation = some i) (status : SettlementStatus) :
    Moves ⟨d, .classify⟩ (.classified (.ok status)) (d.classified i status) := by
  unfold classified
  split
  · next hv => exact .condemned hi hv
  · next hv => exact .stopped hi hv
  · next hv => exact .continued hi hv

theorem applied_moves (actions : Option P.Actions)
    (received : Option P.Interpretation) (reply : Received P.Payload Unit) :
    Moves ⟨d, .apply⟩ (.completed (.application actions received) reply)
      (applied { d with actions := actions, interpretation := received } reply.failures) := by
  unfold applied receiveExecutionFailures
  simp only [rejectContract_rejectAll]
  split
  · next h =>
    rw [rejectAll_eq] at h
    exact .malformedApply actions received reply (by simpa using h)
  · next h =>
    rw [rejectAll_eq] at h
    cases actions <;> cases received <;> simp_all
    exact .applied _ reply

theorem completed_moves (loan : Loan P) (reply : Received P.Payload Unit)
    (h : step ⟨d, p⟩ (.completed loan reply) = some c) :
    Moves ⟨d, p⟩ (.completed loan reply) c := by
  cases p <;> cases loan <;>
    simp only [step, lend, some.injEq, reduceCtorEq] at h <;> subst h
  case activate.activation => exact activated_moves _ _ _ reply
  case offerNext.source => exact .offerEnded _ _ reply
  case apply.application => exact applied_moves _ _ reply
  case retirePrepared.prepared => exact .retired (.inl rfl) rfl reply
  case retireActive.retirement => exact .retired (.inr rfl) rfl reply

theorem dropped_moves (loan : Loan P)
    (h : step ⟨d, p⟩ (.dropped loan) = some c) : Moves ⟨d, p⟩ (.dropped loan) c := by
  cases p <;> cases loan <;>
    simp only [step, lend, map_some, map_none, some.injEq, reduceCtorEq] at h <;> subst h
  case activate.activation => exact .dropActivate _ _ _
  case offerNext.source => exact .dropOffer _ _
  case nextSource.ingress => exact .dropNextSource
  case next.ingress => exact .dropNext
  case apply.application => exact .dropApply _ _
  case retirePrepared.prepared => exact .dropRetire (.inl rfl) rfl
  case retireActive.retirement => exact .dropRetire (.inr rfl) rfl

/-- **Every step is one of the moves.** -/
theorem step_moves {c' : Config P} {i : Input P} (h : step c i = some c') : Moves c i c' := by
  obtain ⟨d, p⟩ := c
  cases i with
  | advance =>
    cases p <;> simp only [step, Config.advance, some.injEq, reduceCtorEq] at h <;> subst h
    case head => exact head_moves d
    case settle => exact settle_moves d
    case offered fs => exact offered_moves d fs
    case sourceAcquired fs => exact sourceAcquired_moves d fs
    case ingressAcquired fs => exact ingressAcquired_moves d fs
    case consume => exact consume_moves d
    case finish => exact .deliver
  | receiveRun =>
    cases p <;> simp only [step, some.injEq, reduceCtorEq] at h
    case idle => subst h; exact .start
    case received reply =>
      cases reply with
      | ok => cases h
      | error => cases h; exact .again
  | folded b r => exact folded_moves b r h
  | completed loan reply => exact completed_moves loan reply h
  | acquired reply =>
    cases p <;> simp only [step, some.injEq, reduceCtorEq] at h <;> subst h
    case nextSource => exact .sourceEnded reply
    case next => exact .nextEnded reply
  | classified status =>
    cases p <;> simp only [step, reduceCtorEq] at h
    case classify =>
      cases hi : d.interpretation <;> cases status <;> simp only [hi] at h <;> cases h
      · exact .unreadable (by simp [hi]) _
      · exact classified_moves hi _
  | disposed failure =>
    cases p <;> simp only [step, reduceCtorEq] at h
    case dispose s => cases failure <;> cases h <;> exact .disposed _
  | published reply =>
    cases p <;> simp only [step, reduceCtorEq] at h
    case publish =>
      rcases reply with payload | (_ | request) <;> cases h
      · exact .publishFailed payload
      · exact .published
      · exact .unpublished request
  | dropped loan => exact dropped_moves loan h

end Engine
