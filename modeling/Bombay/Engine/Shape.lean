import Bombay.Engine.Moves

/-!
# The shape of a driver

A `Driver` is a record of seventeen slots, and most of their combinations never occur.  `Shape` is
what is true of every driver that a run can reach, whatever its hosts do and wherever its future is
dropped: which phases go with which point of the code, that a disposition has been selected exactly
when the driver is ending, and which slots are empty while it prepares (`Fresh`) and while it takes
turns (`Live`).

`Shape.step` goes through the moves once.  The laws of the other files use `Shape` through the run
rules `run_shape` and `run_rule`, and never look at a slot that `Shape` already settles.
-/

set_option autoImplicit false

namespace Engine

open Machine Driver ExecutionPhase

variable {P : Port} {c c' : Config P} {d : Driver P} {p : Point P} {i : Input P}

/-- The two phases of a driver that is ending. -/
@[simp] def ExecutionPhase.terminal : ExecutionPhase → Bool
  | .retiring | .retirementAttempted => true
  | _ => false

/-- The phases in which control can be at a point. -/
def Point.Admits : Point P → ExecutionPhase → Prop
  | .idle, _ | .head, _ => True
  | .initialization, phase | .activate, phase => phase = .activating
  | .publish, phase => phase = .settlingInitialization
  | .dispose _, phase => phase.running ∨ phase = .retiring
  | .retirePrepared, phase | .retireActive, phase => phase = .retirementAttempted
  | .finish, phase | .received _, phase => phase.terminal
  | _, phase => phase.running

variable {es : List (DriverError P)}

theorem rejectAll_terminal (hes : es ≠ []) : (d.rejectAll es).phase.terminal := by
  rw [rejectAll_eq]
  simp [hes]

/-- What a driver that takes turns holds at a point: an acquired ingress only between its
acquisition and its use, an unclassified interpretation only before the next classification, a row
in flight only around its offer. -/
def Point.Holds : Point P → Driver P → Prop
  | .idle, d | .head, d => d.ingress = none
  | .classify, d => d.ingress = none ∧ d.interpretation.isSome
  | .settle, d => d.ingress = none ∧ d.interpretation = none
  | .offerNext, d | .offered _, d =>
    d.ingress = none ∧ d.interpretation = none ∧ d.sourceIndex.isSome
  | .sourceAcquired _, d | .ingressAcquired _, d | .consume, d =>
    d.interpretation = none ∧ d.sourceIndex = none
  | _, d => d.ingress = none ∧ d.interpretation = none ∧ d.sourceIndex = none

/-- A driver whose environment has not been activated yet. -/
structure Fresh (d : Driver P) : Prop where
  active : d.active = none
  interpretation : d.interpretation = none
  sourceInput : d.sourceInput = none
  sourceReceived : d.sourceReceived = none
  sourceIndex : d.sourceIndex = none
  ingress : d.ingress = none
  settlements : d.settlements = []
  retirementInput : d.retirementInput = none
  residual : d.residual = none

/-- A driver that takes turns. -/
structure Live (d : Driver P) (p : Point P) : Prop where
  environment : d.environment = none
  active : d.active.isSome
  activation : d.activation = none
  residual : d.residual = none
  retirementInput : d.retirementInput = none
  /-- The source slots belong to the row in flight. -/
  flight : d.sourceIndex = none → d.sourceInput = none ∧ d.sourceReceived = none
  /-- The row in flight can be put back where it was: `VecDeque::insert` does not panic. -/
  range : ∀ index, d.sourceIndex = some index → index ≤ d.settlements.length
  /-- A new product never arrives while a row is in flight. -/
  turn : d.interpretation.isSome → d.sourceIndex = none
  holds : p.Holds d

/-- What every reachable driver satisfies. -/
structure Shape (d : Driver P) (p : Point P) : Prop where
  admits : p.Admits d.phase
  /-- A disposition has been selected exactly when the driver is ending. -/
  selected : d.disposition.isSome = d.phase.terminal
  /-- Failures are additional to a disposition. -/
  first : d.disposition = none → d.additionalFailures = []
  prepared : d.phase = .prepared → ∃ b e, d = .new b e
  fresh : d.phase = .activating → Fresh d
  live : d.phase.running → Live d p
  reply : ∀ r, p = .received r → r = d.deliver

/-! ## Building shapes -/

theorem Shape.ending (ht : d.phase.terminal) (hd : d.disposition.isSome)
    (hp : p.Admits d.phase) (hr : ∀ r, p = .received r → r = d.deliver) : Shape d p where
  admits := hp
  selected := by rw [hd, ht]
  first h := by simp [h] at hd
  prepared h := by simp [h] at ht
  fresh h := by simp [h] at ht
  live h := by revert ht h; cases d.phase <;> simp
  reply := hr

theorem Shape.running (hp : d.phase.running) (hd : d.disposition = none)
    (hf : d.additionalFailures = []) (hl : Live d p) (ha : p.Admits d.phase)
    (hr : ∀ r, p ≠ .received r := by rintro r ⟨⟩) : Shape d p where
  admits := ha
  selected := by
    rw [hd]; revert hp; cases d.phase <;> simp
  first _ := hf
  prepared h := by simp [h] at hp
  fresh h := by simp [h] at hp
  live _ := hl
  reply r h := absurd h (hr r)

theorem Shape.rejected (d : Driver P) (hes : es ≠ [])
    (hp : p.Admits .retiring := by trivial) (hr : ∀ r, p ≠ .received r := by rintro r ⟨⟩) :
    Shape (d.rejectAll es) p := by
  have hphase : (d.rejectAll es).phase = .retiring := by rw [rejectAll_eq]; simp [hes]
  refine .ending (by rw [hphase]; rfl) ?_ (by rw [hphase]; exact hp) fun r h => absurd h (hr r)
  obtain ⟨e, es, rfl⟩ := List.exists_cons_of_ne_nil hes
  cases hd : d.disposition <;> simp [rejectAll_eq, hd]

theorem Shape.record (h : Shape d p) (es : List (DriverError P))
    (hp : p.Admits .retiring := by trivial) (hr : ∀ r, p ≠ .received r := by rintro r ⟨⟩) :
    Shape (d.rejectAll es) p := by
  by_cases hes : es = []
  · rw [hes]; exact h
  · exact .rejected d hes hp hr

theorem Shape.completed (d : Driver P) (completion : Completion P.RetirementRequest) :
    Shape (d.complete completion) .head := by
  have hphase : (d.complete completion).phase = .retiring := rfl
  refine .ending (by rw [hphase]; rfl) ?_ trivial (by rintro r ⟨⟩)
  cases hd : d.disposition <;> simp [complete, hd]

theorem Shape.rejectedOne (d : Driver P) (e : DriverError P) : Shape (d.reject e) .head :=
  show Shape (d.rejectAll [e]) .head from .rejected d (List.cons_ne_nil e [])

variable {phase : ExecutionPhase}

theorem ExecutionPhase.not_terminal_of_running (h : phase.running) : phase.terminal = false := by
  cases phase <;> first | rfl | cases h

theorem Driver.blame_ne_nil (hp : d.phase ≠ .retiring) (es : List (DriverError P)) :
    d.blame es ≠ [] := by
  unfold blame
  by_cases hes : es = [] <;> simp [hes, hp]

theorem Shape.unselected (h : Shape d p) (hp : d.phase.terminal = false) :
    d.disposition = none ∧ d.additionalFailures = [] := by
  have hs := h.selected
  rw [hp, Option.isSome_eq_false_iff, Option.isNone_iff_eq_none] at hs
  exact ⟨hs, h.first hs⟩

variable {d' : Driver P} {p' : Point P}

theorem Shape.remain (h : Shape d p) (ht : d.phase.terminal)
    (ht' : d'.phase.terminal) (hd : d'.disposition = d.disposition) (hp : p'.Admits d'.phase)
    (hr : ∀ r, p' = .received r → r = d'.deliver := by rintro r ⟨⟩) : Shape d' p' :=
  .ending ht' (by rw [hd, h.selected, ht]) hp hr

theorem Shape.turn (h : Shape d p) (hp : d.phase.running)
    (hphase : d'.phase.running) (hd : d'.disposition = d.disposition)
    (hf : d'.additionalFailures = d.additionalFailures) (hl : Live d' p')
    (ha : p'.Admits d'.phase) (hr : ∀ r, p' ≠ .received r := by rintro r ⟨⟩) : Shape d' p' :=
  have hnone := h.unselected (not_terminal_of_running hp)
  .running hphase (hd.trans hnone.1) (hf.trans hnone.2) hl ha hr

theorem Shape.go (h : Shape d p) (hp : d.phase.running) (hl : Live d p → Live d' p')
    (hphase : d'.phase = d.phase := by rfl) (hd : d'.disposition = d.disposition := by rfl)
    (hf : d'.additionalFailures = d.additionalFailures := by rfl)
    (ha : d.phase.running → p'.Admits d.phase := by exact fun h => by first | trivial | exact h)
    (hr : ∀ r, p' ≠ .received r := by rintro r ⟨⟩) : Shape d' p' :=
  h.turn hp (hphase ▸ hp) hd hf (hl (h.live hp)) (hphase ▸ ha hp) hr

theorem Shape.same (h : Shape d (.received (.error d'))) : d' = d := by
  have hd : d.deliver = .error d' := (h.reply _ rfl).symm
  unfold deliver at hd
  split at hd <;> cases hd
  rfl

theorem Shape.new (b : P.Behavior) (e : P.Environment) : Shape (.new b e) .idle where
  admits := trivial
  selected := rfl
  first _ := rfl
  prepared _ := ⟨b, e, rfl⟩
  fresh h := by cases h
  live h := by cases h
  reply r h := by cases h

theorem lend_retire {loan : Loan P} (hp : p = .retirePrepared ∨ p = .retireActive)
    (hl : d.lend p loan = some d') : d'.phase = d.phase ∧ d'.disposition = d.disposition ∧
      d'.additionalFailures = d.additionalFailures := by
  rcases hp with rfl | rfl <;> cases loan <;> simp only [lend, reduceCtorEq] at hl <;>
    cases hl <;> exact ⟨rfl, rfl, rfl⟩

theorem gather_verdict (d : Driver P) :
    d.gather.phase = d.phase ∧ d.gather.disposition = d.disposition ∧
      d.gather.additionalFailures = d.additionalFailures := by
  unfold gather
  split <;> exact ⟨rfl, rfl, rfl⟩

theorem retire_phase (hp : p = .retirePrepared ∨ p = .retireActive) (h : Shape d p) :
    d.phase = .retirementAttempted := by
  rcases hp with rfl | rfl <;> exact h.admits

theorem Shape.admits_of {q : Point P} (h : Shape d p) (hp : p = q) : q.Admits d.phase :=
  hp ▸ h.admits

theorem not_retiring (h : phase.running) : phase ≠ .retiring := by
  rintro rfl
  cases h

theorem Live.putBack {fs} (hl : Live d (.offered fs)) (hi : d.sourceInput = none)
    (q : List (SettlementTurn P.Settlement)) :
    Live { d with sourceReceived := none, sourceIndex := none, settlements := q } .head :=
  { hl with
    flight := fun _ => ⟨hi, rfl⟩
    range := by rintro index ⟨⟩
    turn := fun _ => rfl
    holds := hl.holds.1 }

/-! ## Every move keeps the shape -/

theorem Shape.step (h : Shape c.driver c.point) (hm : Moves c i c') : Shape c'.driver c'.point := by
  cases hm with
  | start =>
    exact ⟨trivial, h.selected, h.first, h.prepared, h.fresh, fun hp => { h.live hp with },
      by rintro r ⟨⟩⟩
  | again =>
    obtain rfl := h.same
    exact h.remain h.admits h.admits rfl trivial
  | initialization hp =>
    obtain ⟨b, e, rfl⟩ := h.prepared hp
    exact ⟨rfl, rfl, fun _ => rfl, by rintro ⟨⟩, fun _ => by constructor <;> rfl, by rintro ⟨⟩,
      by rintro r ⟨⟩⟩
  | activate hp =>
    exact ⟨hp, h.selected, h.first, h.prepared, h.fresh, by simp [hp], by rintro r ⟨⟩⟩
  | classify hp hi | settle hp hi =>
    exact h.go hp fun hl => { hl with holds := ⟨hl.holds, hi⟩ }
  | @surrender d hp | @attempted d hp =>
    have ht : d.phase.terminal := by rw [hp]; rfl
    exact h.remain ht ht rfl ht
  | retirePrepared hp => exact h.remain (by rw [hp]; rfl) rfl rfl rfl
  | @retireActive d hp => exact h.remain (by rw [hp]; rfl) rfl (gather_verdict d).2.1 rfl
  | @abandon d hp =>
    obtain ⟨hphase, hd, -⟩ := gather_verdict d
    have ht : d.gather.phase.terminal := by rw [hphase, hp]; rfl
    exact h.remain (by rw [hp]; rfl) ht hd ht
  | @initialized d | @dropActivate d =>
    have hp : d.phase = .activating := h.admits
    exact ⟨trivial, h.selected, h.first, by simp [hp], fun _ => { h.fresh hp with }, by simp [hp],
      by rintro r ⟨⟩⟩
  | @malformedActivation d =>
    have hp : d.phase = .activating := h.admits
    exact .rejected _ (blame_ne_nil (by simp [hp]) _)
  | @activated d active i reply =>
    have hp : d.phase = .activating := h.admits
    have hnone := h.unselected (by rw [hp]; rfl)
    have hf := h.fresh hp
    refine Shape.record ?_ _
    refine .running ?_ hnone.1 hnone.2 ?_ trivial
    · simp only [hp, reduceCtorEq, if_false, ExecutionPhase.running]
    · exact
        { environment := rfl, active := rfl, activation := rfl, residual := hf.residual
          retirementInput := hf.retirementInput
          flight := fun _ => ⟨hf.sourceInput, hf.sourceReceived⟩
          range := by rw [hf.sourceIndex]; rintro index ⟨⟩
          turn := fun _ => hf.sourceIndex
          holds := hf.ingress }
  | @continued d i hi status hv =>
    have hp : d.phase.running := h.admits
    have hl := h.live hp
    have hx := hl.turn (by rw [hi]; rfl)
    have hp' : (if d.phase = .initializing then .settlingInitialization else d.phase).running := by
      split
      · rfl
      · exact hp
    exact h.turn hp hp' rfl rfl
      { hl with
        range := fun index hindex => absurd (hx.symm.trans hindex) (by simp)
        turn := fun _ => hx
        holds := ⟨hl.holds.1, rfl⟩ } hp'
  | offerNext _ hx | answered _ hx | next _ hx =>
    exact h.go h.admits fun hl => { hl with holds := ⟨hl.holds.1, hl.holds.2, hx⟩ }
  | publish _ hx _ hp =>
    have hrun := h.admits
    exact h.turn hrun hrun rfl rfl
      { h.live hrun with holds := ⟨(h.live hrun).holds.1, (h.live hrun).holds.2, hx⟩ } hp
  | take =>
    exact h.go h.admits fun hl => { hl with
      flight := by rintro ⟨⟩
      range := by rintro index ⟨⟩; simp
      turn := by rw [show _ = none from hl.holds.2]; rintro ⟨⟩
      holds := hl.holds.1 }
  | nextSource _ hx _ _ hg =>
    exact h.go h.admits fun hl => { hl with
      range := fun index hindex => absurd (hx.symm.trans hindex) (by simp)
      holds := ⟨hg, hl.holds.2, hx⟩ }
  -- an ingress is never held here
  | sourceHeld ha hx hq hn hg | ingressHeld ha hx hq hp hg =>
    rw [(h.live h.admits).holds.1] at hg
    cases hg
  | @offerEnded d | @dropOffer d =>
    refine h.go h.admits fun hl => { hl with flight := fun hx => ?_, holds := ?_ }
    · exact absurd hl.holds.2.2 (by rw [show d.sourceIndex = none from hx]; simp)
    · first | exact hl.holds | exact hl.holds.1
  | malformedOffer | malformedApply =>
    exact .rejected _ (blame_ne_nil (not_retiring h.admits) _)
  | exhausted hi =>
    refine Shape.record ?_ _ (.inr rfl)
    exact h.go h.admits (fun hl => { hl with
      flight := fun _ => ⟨hi, rfl⟩
      range := by rintro index ⟨⟩
      turn := fun _ => rfl
      holds := ⟨hl.holds.1, hl.holds.2.1, rfl⟩ }) rfl rfl rfl .inl
  | retained hi | admitted hi =>
    refine Shape.record ?_ _
    exact h.go h.admits fun hl => hl.putBack hi _
  | closed | unactivated | sourceClosed => exact .rejected _ (List.cons_ne_nil _ _)
  | disposed =>
    refine Shape.record ?_ _
    exact ⟨trivial, h.selected, h.first, h.prepared, h.fresh,
      fun hp => { h.live hp with holds := (h.live hp).holds.1 }, by rintro r ⟨⟩⟩
  | sourceEnded | nextEnded => exact h.go h.admits fun hl => { hl with holds := hl.holds.2 }
  | sourceFailed hg hf | nextFailed hf =>
    exact .rejected _ (by simpa using hf.resolve_right (not_retiring h.admits))
  | sourceReady | nextReady | apply => exact h.go h.admits fun hl => { hl with holds := hl.holds }
  | @published d =>
    have hp : d.phase = .settlingInitialization := h.admits
    have hrun : d.phase.running := by rw [hp]; rfl
    exact h.turn hrun rfl rfl rfl { h.live hrun with holds := (h.live hrun).holds.1 } trivial
  | fold => exact h.go h.admits fun hl => { hl with holds := ⟨rfl, hl.holds⟩ }
  | stopped | unpublished | ended | requested => exact .completed _ _
  | uninitialized | unreadable | condemned | inactive | sourceMissing | publishFailed | missing
  | unapplied | unfolded => exact .rejectedOne _ _
  | applied =>
    refine Shape.record ?_ _
    exact h.go h.admits fun hl => { hl with turn := fun _ => hl.holds.2.2, holds := hl.holds.1 }
  | @retired d d' p hp loan hl reply =>
    obtain ⟨hphase, hd, -⟩ := lend_retire hp hl
    have ht : d.phase.terminal := by rw [retire_phase hp h]; rfl
    have ht' : d'.phase.terminal := by rw [hphase, ht]
    exact h.remain ht ht' hd ht'
  | deliver => exact h.remain h.admits h.admits rfl h.admits (by rintro r ⟨⟩; rfl)
  | dropNextSource | dropNext => exact h.go h.admits fun hl => { hl with holds := hl.holds.1 }
  | dropApply =>
    exact h.go h.admits fun hl => { hl with turn := fun _ => hl.holds.2.2, holds := hl.holds.1 }
  | @dropRetire d d' p hp loan hl =>
    obtain ⟨hphase, hd, -⟩ := lend_retire hp hl
    have ht : d.phase.terminal := by rw [retire_phase hp h]; rfl
    exact h.remain ht (by rw [hphase, ht]) hd trivial

/-- Where an ending driver can go. -/
def Point.isEnding : Point P → Bool
  | .idle | .head | .retirePrepared | .retireActive | .finish | .received _ => true
  | _ => false

theorem Shape.ending_step (h : Shape c.driver c.point) (ht : c.driver.phase.terminal)
    (hm : Moves c i c') : c'.driver.phase.terminal ∧ c'.point.isEnding := by
  have ha := h.admits
  have hrun (hp : c.driver.phase.running) : False := by
    have := not_terminal_of_running hp
    rw [ht] at this
    cases this
  cases hm with
  | start | surrender | attempted | deliver => exact ⟨ht, rfl⟩
  | again => obtain rfl := h.same; exact ⟨ht, rfl⟩
  | initialization hp | activate hp => rw [hp] at ht; cases ht
  | classify hp | settle hp => exact (hrun hp).elim
  | retirePrepared | retireActive => exact ⟨rfl, rfl⟩
  | @abandon d hp => exact ⟨by rw [show d.gather.phase = _ from (gather_verdict d).1, ht], rfl⟩
  | @disposed d s failure =>
    refine ⟨?_, rfl⟩
    rw [rejectAll_eq]
    dsimp only
    split
    · exact ht
    · rfl
  | retired hp hl | dropRetire hp hl =>
    exact ⟨by rw [show _ = _ from (lend_retire hp hl).1, ht], rfl⟩
  | initialized | uninitialized | malformedActivation | activated | unactivated | dropActivate =>
    rw [show _ = activating from ha] at ht
    cases ht
  | published | unpublished | publishFailed =>
    rw [show _ = settlingInitialization from ha] at ht
    cases ht
  | _ => exact (hrun ha).elim

/-! ## What is seen of a history -/

/-- The operations outside the driver that it calls. -/
inductive Call
  | initialization
  | activate
  | classify
  | offerNext
  | dispose
  | nextSource
  | publish
  | next
  | transition
  | apply
  | retirePrepared
  | retireActive
  deriving DecidableEq, Repr

def Point.call? : Point P → Option Call
  | .initialization => some .initialization
  | .activate => some .activate
  | .classify => some .classify
  | .offerNext => some .offerNext
  | .dispose _ => some .dispose
  | .nextSource => some .nextSource
  | .publish => some .publish
  | .next => some .next
  | .transition _ => some .transition
  | .apply => some .apply
  | .retirePrepared => some .retirePrepared
  | .retireActive => some .retireActive
  | _ => none

/-- The calls of a history, in order.  A transition that reaches the point of an operation has just
called it. -/
def calls (tr : DriverHistory P) : List Call := tr.filterMap (·.target.point.call?)

theorem calls_snoc (tr : DriverHistory P) (x : Transition (Config P) (Input P)) :
    calls (tr ++ [x]) = calls tr ++ x.target.point.call?.toList := by
  unfold calls
  cases hx : x.target.point.call? <;> simp [List.filterMap_append, hx]

theorem count_calls (tr : DriverHistory P) (k : Call) :
    (calls tr).count k = tr.countP (fun x => x.target.point.call? == some k) := by
  induction tr with
  | nil => rfl
  | cons x _ ih =>
    rw [List.countP_cons, ← ih]
    cases hx : x.target.point.call? with
    | none => simp [calls, hx]
    | some => simp [calls, hx, List.count_cons]

/-- The action value a transition's fold returned. -/
def folded? (x : Transition (Config P) (Input P)) : Option P.Actions :=
  match x.source.point, x.input with
  | .initialization, .folded _ (.ok a) | .transition _, .folded _ (.ok a) => some a
  | _, _ => none

/-! ## Runs -/

variable {b : P.Behavior} {e : P.Environment} {tr : DriverHistory P} {u : Config P}

/-- **Every reachable driver has its shape.** -/
theorem run_shape (h : Run step (.start b e) tr u) : Shape u.driver u.point :=
  h.invariant (Shape.new b e) fun _ _ _ ht hstep => ht.step (step_moves hstep)

/-- Every transition of a run is a move between drivers of the right shape. -/
theorem run_moves (h : Run step (.start b e) tr u) {x}
    (hx : x ∈ tr) : Shape x.source.driver x.source.point ∧ Moves x.source x.input x.target := by
  obtain ⟨pre, post, -, hpre, hstep⟩ := h.of_mem hx
  exact ⟨run_shape hpre, step_moves hstep⟩

variable {Q : DriverHistory P → Config P → Prop}

/-- **The rule of this development**: a property of history and driver that every move of a
well-shaped driver keeps, as long as the transitions are of the kind `ok`. -/
@[elab_as_elim]
theorem run_ruleOn {ok : Transition (Config P) (Input P) → Prop} (h : Run step (.start b e) tr u)
    (hok : ∀ x ∈ tr, ok x) (h0 : Q [] (.start b e))
    (hs : ∀ tr c i c', Run step (.start b e) tr c → Q tr c → ok ⟨c, i, c'⟩ →
      Shape c.driver c.point → Moves c i c' → Q (tr ++ [⟨c, i, c'⟩]) c') : Q tr u :=
  h.historyOn hok h0 fun _ _ _ _ hrun ih hstep hmove =>
    hs _ _ _ _ hrun ih hstep (run_shape hrun) (step_moves hmove)

@[elab_as_elim]
theorem run_rule (h : Run step (.start b e) tr u) (h0 : Q [] (.start b e))
    (hs : ∀ tr c i c', Run step (.start b e) tr c → Q tr c → Shape c.driver c.point →
      Moves c i c' → Q (tr ++ [⟨c, i, c'⟩]) c') : Q tr u :=
  run_ruleOn h (fun _ _ => trivial) h0 fun _ _ _ _ hrun ih _ hshape hm =>
    hs _ _ _ _ hrun ih hshape hm

end Engine
