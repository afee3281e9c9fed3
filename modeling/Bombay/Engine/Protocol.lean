import Bombay.Engine.Retirement

/-!
# The protocol trace of the driver

What the environment sees of a driver is a sequence of calls.  This file says what that sequence
looks like for one uninterrupted `receive_run`: initialize, then activate, then at most one publish,
only after it ordinary ingress, one apply for each event fold, and nothing but one retirement once a
disposition has been selected.

The calls that happen once are counted by a measure.  `Config.stage` never falls along an
uninterrupted run (`stage_mono`), and each of those calls lifts it over a fixed threshold, so it is
made at most once (`Run.crosses_once`).  Cancellation is what breaks this: a future dropped at a
pending activation leaves the driver in the phase it was in, one stage back.
-/

set_option autoImplicit false

namespace Engine

open Machine List Config ExecutionPhase

variable {P : Port} {c c' : Config P} {d : Driver P} {p : Point P} {i : Input P}
  {b : P.Behavior} {e : P.Environment} {tr : DriverHistory P} {u : Config P}

/-- No future was dropped. -/
def Uninterrupted (tr : DriverHistory P) : Prop :=
  ∀ x ∈ tr, ∀ loan, x.input ≠ .dropped loan

theorem uninterrupted_of_all (h : tr.all fun x => !x.input.isDropped) : Uninterrupted tr := by
  intro x hx loan hin
  have hx' := all_eq_true.mp h x hx
  rw [hin] at hx'
  cases hx'

/-! ## The stages of a life -/

/-- The order of the phases. -/
def ExecutionPhase.rank : ExecutionPhase → ℕ
  | .prepared => 0
  | .activating => 1
  | .initializing => 2
  | .settlingInitialization => 3
  | .active => 4
  | .retiring => 5
  | .retirementAttempted => 6

/-- Whether the operation that leads out of a starting phase has been called. -/
def Point.gate : Point P → ℕ
  | .activate | .publish => 1
  | _ => 0

/-- The phase, and how far the driver is in it. -/
def Config.stage (c : Config P) : ℕ := 2 * c.driver.phase.rank + c.point.gate

theorem rank_le_of_running {phase : ExecutionPhase} (h : phase.running) :
    2 ≤ phase.rank ∧ phase.rank ≤ 4 := by
  cases phase <;> simp_all [running, rank]

theorem rank_rejectAll (d : Driver P) (es : List (DriverError P)) :
    (d.rejectAll es).phase.rank = if es = [] then d.phase.rank else 5 := by
  rw [Driver.rejectAll_eq]
  dsimp only
  split <;> rfl

theorem stage_le (hg : c.point.gate = 0) (hr : c.driver.phase.rank ≤ c'.driver.phase.rank) :
    c.stage ≤ c'.stage := by
  unfold stage
  omega

theorem stage_le_rejectAll {d' : Driver P} {es} {p' : Point P}
    (hg : p.gate = 0) (hp : d.phase.rank ≤ 5) (hsame : d'.phase = d.phase) :
    stage ⟨d, p⟩ ≤ stage ⟨d'.rejectAll es, p'⟩ := by
  refine stage_le hg ?_
  rw [rank_rejectAll, hsame]
  dsimp only
  split <;> omega

theorem stage_activate_le (hp : d.phase = .activating) (hr : 2 ≤ c'.driver.phase.rank) :
    stage ⟨d, .activate⟩ ≤ c'.stage := by
  have hstage : stage ⟨d, .activate⟩ = 3 := by
    rw [stage, hp]
    rfl
  rw [hstage, stage]
  omega

theorem stage_mono (h : Shape c.driver c.point) (hm : Moves c i c')
    (hi : ∀ loan, i ≠ .dropped loan) : c.stage ≤ c'.stage := by
  have ha := h.admits
  have hrun (hp : c.driver.phase.running) : c.driver.phase.rank ≤ 5 := by
    have := rank_le_of_running hp; omega
  cases hm with
  | again => obtain rfl := h.same; exact stage_le rfl (Nat.le_refl _)
  | initialization hp => exact stage_le rfl (by rw [hp]; exact Nat.zero_le _)
  | retirePrepared hp | retireActive hp => exact stage_le rfl (by rw [hp]; exact Nat.le_succ 5)
  | abandon => exact stage_le rfl (Nat.le_of_eq (congrArg _ (gather_verdict _).1.symm))
  | @uninitialized d =>
    have hp : d.phase = .activating := ha
    exact stage_le rfl (by rw [hp]; show 1 ≤ 5; omega)
  | @malformedActivation d =>
    have hp : d.phase = .activating := ha
    refine stage_activate_le hp ?_
    rw [rank_rejectAll, if_neg (Driver.blame_ne_nil (by rw [hp]; decide) _)]
    omega
  | @activated d =>
    have hp : d.phase = .activating := ha
    refine stage_activate_le hp ?_
    rw [rank_rejectAll, hp]
    split
    · exact Nat.le_refl 2
    · omega
  | @unactivated d =>
    refine stage_activate_le ha ?_
    rw [rank_rejectAll, if_neg (cons_ne_nil _ _)]
    omega
  | unreadable | condemned | stopped | inactive | sourceMissing | ended | requested | missing
  | unapplied | unfolded => exact stage_le rfl (hrun ha)
  | @continued d =>
    refine stage_le rfl ?_
    dsimp only
    split
    · next hp => rw [hp]; exact Nat.le_succ 2
    · exact Nat.le_refl _
  | malformedOffer | exhausted | retained | admitted | closed | sourceClosed | sourceFailed
  | nextFailed | applied | malformedApply => exact stage_le_rejectAll rfl (hrun ha) rfl
  | disposed =>
    refine stage_le_rejectAll rfl ?_ rfl
    rcases ha with hp | hp
    · exact hrun hp
    · rw [hp]; exact Nat.le_refl 5
  | @published d | @unpublished d | @publishFailed d =>
    have hp : d.phase = .settlingInitialization := ha
    simp [stage, Point.gate, hp, rank, Driver.complete, Driver.reject]
  | retired hp hl =>
    refine stage_le ?_ (Nat.le_of_eq (congrArg _ (lend_retire hp hl).1.symm))
    rcases hp with rfl | rfl <;> rfl
  | dropActivate | dropOffer | dropNextSource | dropNext | dropApply | dropRetire =>
    exact absurd rfl (hi _)
  | _ => exact stage_le rfl (Nat.le_refl _)

/-! ## The phase diagram -/

theorem phase_rejectAll (d : Driver P) (es : List (DriverError P)) :
    (d.rejectAll es).phase = d.phase ∨ (d.rejectAll es).phase.terminal := by
  rw [Driver.rejectAll_eq]
  dsimp only
  split
  · exact .inl rfl
  · exact .inr rfl

/-- **The phase diagram.**  A move keeps the phase or ends the driver, except for the four edges
that lead from preparation to ordinary ingress. -/
theorem phase_step (h : Shape c.driver c.point) (hm : Moves c i c') :
    c'.driver.phase = c.driver.phase ∨ c'.driver.phase.terminal ∨
    (c.driver.phase = .prepared ∧ c'.driver.phase = .activating ∧ c'.point = .initialization) ∨
    (c.point = .activate ∧ c'.driver.phase = .initializing ∧ c'.point = .head ∧
      c'.driver.interpretation.isSome) ∨
    (c.driver.phase = .initializing ∧ c'.driver.phase = .settlingInitialization ∧
      c'.point = .settle) ∨
    (c.point = .publish ∧ i = .published (.ok (.cont ())) ∧ c'.driver.phase = .active) := by
  cases hm with
  | again => obtain rfl := h.same; exact .inl rfl
  | initialization hp => exact .inr (.inr (.inl ⟨hp, rfl, rfl⟩))
  | retirePrepared | retireActive | uninitialized | unreadable | condemned | stopped | inactive
  | sourceMissing | unpublished | publishFailed | ended | requested | missing | unapplied
  | unfolded => exact .inr (.inl rfl)
  | abandon => exact .inl (gather_verdict _).1
  | malformedActivation | unactivated | malformedOffer | exhausted | retained | admitted
  | closed | disposed | sourceClosed | sourceFailed | nextFailed | applied | malformedApply =>
    exact (phase_rejectAll _ _).imp id .inl
  | @activated d active i reply =>
    have hp : d.phase = .activating := h.admits
    rcases phase_rejectAll (P := P) _ _ with hsame | hterm
    · refine .inr (.inr (.inr (.inl ⟨rfl, hsame.trans ?_, rfl, ?_⟩)))
      · simp [hp]
      · rw [Driver.rejectAll_eq]; rfl
    · exact .inr (.inl hterm)
  | @continued d =>
    dsimp only
    by_cases hp : d.phase = .initializing
    · exact .inr (.inr (.inr (.inr (.inl ⟨hp, by rw [if_pos hp], rfl⟩))))
    · exact .inl (by rw [if_neg hp])
  | published => exact .inr (.inr (.inr (.inr (.inr ⟨rfl, rfl, rfl⟩))))
  | retired hp hl | dropRetire hp hl => exact .inl (lend_retire hp hl).1
  | _ => exact .inl rfl

theorem published_run (h : Run step (.start b e) tr u) (hp : u.driver.phase = .active) :
    ∃ y ∈ tr, y.source.point = .publish ∧ y.input = .published (.ok (.cont ())) := by
  revert hp
  refine run_rule h (by rintro ⟨⟩) ?_
  intro tr c i c' _ ih hshape hm hp
  rcases phase_step hshape hm with hsame | hterm | ⟨-, hp', -⟩ | ⟨-, hp', -⟩ | ⟨-, hp', -⟩ |
    ⟨hpoint, hin, -⟩
  · obtain ⟨y, hy, hrest⟩ := ih (hsame ▸ hp)
    exact ⟨y, mem_append_left _ hy, hrest⟩
  · rw [hp] at hterm; cases hterm
  iterate 3
    · rw [hp] at hp'; cases hp'
  · exact ⟨_, mem_append_right _ (mem_singleton_self _), hpoint, hin⟩

/-- The product of the initialization is classified before anything else happens. -/
theorem initializing_run (h : Run step (.start b e) tr u) (hp : u.driver.phase = .initializing) :
    u.driver.interpretation.isSome ∧ (u.point = .head ∨ u.point = .classify) := by
  revert hp
  refine run_rule h (by rintro ⟨⟩) ?_
  intro tr c i c' _ ih hshape hm hp
  rcases phase_step hshape hm with hsame | hterm | ⟨-, hp', -⟩ | ⟨-, -, hpoint, hi⟩ | ⟨-, hp', -⟩ |
    ⟨-, -, hp'⟩
  · have hphase : c.driver.phase = .initializing := hsame ▸ hp
    obtain ⟨hi, hpoint⟩ := ih hphase
    cases hm with
    | classify => exact ⟨hi, .inr rfl⟩
    | settle _ hi' => rw [hi'] at hi; cases hi
    | initialization hp' | activate hp' | surrender hp' | retirePrepared hp' | retireActive hp'
    | abandon hp' | attempted hp' => rw [hphase] at hp'; cases hp'
    | unreadable | condemned | stopped => cases hp
    | continued => rw [if_pos hphase] at hp; cases hp
    | retired hr | dropRetire hr => rcases hr with rfl | rfl <;> simp at hpoint
    | _ => simp at hpoint
  · rw [hp] at hterm; cases hterm
  · rw [hp] at hp'; cases hp'
  · exact ⟨hi, .inl hpoint⟩
  · rw [hp] at hp'; cases hp'
  · rw [hp] at hp'; cases hp'

/-- Until activation ends, the driver holds exactly the actions of the initialization fold. -/
theorem activating_run (h : Run step (.start b e) tr u) (hok : Uninterrupted tr)
    (hp : u.driver.phase = .activating) (hpoint : u.point ≠ .initialization) :
    ∃ y ∈ tr, ∃ b a, y.source.point = .initialization ∧ y.input = .folded b (.ok a) ∧
      u.driver.actions = some a := by
  revert hp hpoint
  refine run_ruleOn h hok (by rintro ⟨⟩) ?_
  intro tr c i c' _ ih hok hshape hm hp hpoint
  have keep (hsame : c'.driver = c.driver) (hne : c.point ≠ .initialization) :
      ∃ y ∈ tr ++ [⟨c, i, c'⟩], ∃ b a, y.source.point = .initialization ∧
        y.input = .folded b (.ok a) ∧ c'.driver.actions = some a := by
    obtain ⟨y, hy, hrest⟩ := ih (hsame ▸ hp) hne
    exact ⟨y, mem_append_left _ hy, hsame ▸ hrest⟩
  -- the stage before was no later, so the driver was not running yet
  have hstage := stage_mono hshape hm hok
  have hearly : c.driver.phase = .prepared ∨ c.driver.phase = .activating := by
    have hafter : c'.stage ≤ 3 := by
      rw [stage, hp]
      cases c'.point <;> simp [Point.gate, rank]
    rw [stage] at hstage
    cases hphase : c.driver.phase <;> simp [hphase, rank] at hstage ⊢ <;> omega
  have ha := hshape.admits
  cases hm with
  | start | activate => exact keep rfl (by simp)
  | initialized b a =>
    exact ⟨_, mem_append_right _ (mem_singleton_self _), b, a, rfl, rfl, rfl⟩
  | dropActivate => exact absurd rfl (hok _)
  | initialization => exact absurd rfl hpoint
  | @malformedActivation d | @activated d | @unactivated d =>
    have hphase : d.phase = .activating := ha
    rw [stage, stage, hp, hphase] at hstage
    exact absurd (show 3 ≤ 2 from hstage) (by decide)
  | classify hp' | settle hp' | surrender hp' | retirePrepared hp' | retireActive hp'
  | abandon hp' | attempted hp' =>
    rcases hearly with hearly | hearly <;> (rw [hearly] at hp'; cases hp')
  | uninitialized => cases hp
  | retired hr | dropRetire hr =>
    rcases hr with rfl | rfl <;> rcases hearly with hearly | hearly <;>
      (rw [hearly] at ha; cases ha)
  | disposed =>
    rcases hearly with hearly | hearly <;> (rw [hearly] at ha; rcases ha with ⟨⟨⟩⟩ | ⟨⟨⟩⟩)
  | _ => rcases hearly with hearly | hearly <;> (rw [hearly] at ha; cases ha)

/-! ## Who calls what -/

/-- No row can make further source progress: each is retained, and none is in flight or waiting to
be classified. -/
structure Settled (d : Driver P) : Prop where
  retained : ∀ row ∈ d.settlements, row.isRetained
  interpretation : d.interpretation = none
  sourceIndex : d.sourceIndex = none
  sourceInput : d.sourceInput = none
  sourceReceived : d.sourceReceived = none

theorem initialization_starts (hm : Moves c i c') (hc : c'.point.call? = some .initialization) :
    c.point = .head ∧ c.driver.phase = .prepared ∧ c'.driver.phase = .activating := by
  cases hm with
  | initialization hp => exact ⟨rfl, hp, rfl⟩
  | _ => cases hc

theorem activate_starts (hm : Moves c i c') (hc : c'.point.call? = some .activate) :
    c.point = .head ∧ c.driver.phase = .activating ∧ c' = ⟨c.driver, .activate⟩ := by
  cases hm with
  | activate hp => exact ⟨rfl, hp, rfl⟩
  | _ => cases hc

theorem publish_starts (h : Shape c.driver c.point) (hm : Moves c i c')
    (hc : c'.point.call? = some .publish) :
    c.point = .settle ∧ c.driver.phase = .settlingInitialization ∧ c' = ⟨c.driver, .publish⟩ ∧
      Settled c.driver := by
  cases hm with
  | @publish d ha hx hq hp =>
    have hl := h.live h.admits
    exact ⟨rfl, hp, rfl, hq, hl.holds.2, hx, (hl.flight hx).1, (hl.flight hx).2⟩
  | _ => cases hc

theorem next_starts (h : Shape c.driver c.point) (hm : Moves c i c')
    (hc : c'.point.call? = some .next) :
    c.point = .settle ∧ c.driver.phase ≠ .settlingInitialization ∧ c' = ⟨c.driver, .next⟩ ∧
      Settled c.driver := by
  cases hm with
  | @next d ha hx hq hp hg =>
    have hl := h.live h.admits
    exact ⟨rfl, hp, rfl, hq, hl.holds.2, hx, (hl.flight hx).1, (hl.flight hx).2⟩
  | _ => cases hc

theorem apply_starts (hm : Moves c i c') (hc : c'.point.call? = some .apply) :
    ∃ event b a, c.point = .transition event ∧ i = .folded b (.ok a) ∧
      c'.driver.actions = some a := by
  cases hm with
  | apply b a => exact ⟨_, b, a, rfl, rfl, rfl⟩
  | _ => cases hc

theorem fold_applies (h : Shape c.driver c.point) (hm : Moves c i c') {event : P.Event}
    {b} {a : P.Actions} (hp : c.point = .transition event)
    (hi : i = .folded b (.ok a)) : c'.point = .apply ∧ c'.driver.actions = some a := by
  cases hm with
  | apply => cases hi; exact ⟨rfl, rfl⟩
  | unapplied _ _ ha =>
    have hactive := (h.live h.admits).active
    rw [ha] at hactive
    cases hactive
  | unfolded _ he => cases hi; cases he
  | retired hr | dropRetire hr => rcases hr with rfl | rfl <;> simp at hp
  | _ => simp at hp

theorem isEnding_call {k : Call} (hend : p.isEnding) (hk : p.call? = some k) :
    k = .retirePrepared ∨ k = .retireActive := by
  cases p <;> simp_all [Point.isEnding, Point.call?]

theorem retire_applies (hm : Moves c i c') :
    (c'.point = .retirePrepared → c'.driver.environment.isSome ∧ c'.driver.active = none) ∧
    (c'.point = .retireActive → c'.driver.environment = none ∧ c'.driver.active.isSome) := by
  cases hm with
  | retirePrepared _ _ he ha => exact ⟨fun _ => ⟨he, ha⟩, by simp⟩
  | @retireActive d hp hs he ha =>
    obtain ⟨henv, hact, -⟩ := gather_owners d
    exact ⟨by simp, fun _ => ⟨henv.trans he, by rw [show _ = _ from hact]; exact ha⟩⟩
  | _ => constructor <;> simp

/-- The move that selects a disposition starts nothing, but for dropping the settlement that the
same reply declared exhausted. -/
theorem selecting_starts (h : Shape c.driver c.point) (hm : Moves c i c')
    (hnone : c.driver.disposition = none) (hsome : c'.driver.disposition.isSome) :
    c'.point.call? = none ∨ c'.point.call? = some .dispose := by
  have hterm : c.driver.phase.terminal = false := by rw [← h.selected, hnone]; rfl
  have hkept (hsame : c'.driver.disposition = c.driver.disposition) : False := by
    rw [hsame, hnone] at hsome
    cases hsome
  cases hm with
  | exhausted => exact .inr rfl
  | initialization | activate | classify | offerNext | nextSource | publish | next | fold
  | apply => exact (hkept rfl).elim
  | retirePrepared hp | retireActive hp => rw [hp] at hterm; cases hterm
  | _ => exact .inl rfl

theorem opening_run (h : Run step (.start b e) tr u) :
    (u.driver.phase = .prepared ∧ calls tr = []) ∨ (calls tr).head? = some .initialization := by
  refine run_rule h (.inl ⟨rfl, rfl⟩) ?_
  intro tr c i c' _ ih hshape hm
  rw [calls_snoc]
  rcases ih with ⟨hp, hnil⟩ | hhead
  · have ha := hshape.admits
    rw [hnil, nil_append]
    cases hm with
    | start => exact .inl ⟨hp, rfl⟩
    | initialization => exact .inr rfl
    | activate hp' | classify hp' | settle hp' | surrender hp' | retirePrepared hp'
    | retireActive hp' | abandon hp' | attempted hp' => rw [hp] at hp'; cases hp'
    | disposed => (rw [hp] at ha; rcases ha with ⟨⟨⟩⟩ | ⟨⟨⟩⟩)
    | retired hr | dropRetire hr => rcases hr with rfl | rfl <;> (rw [hp] at ha; cases ha)
    | _ => rw [hp] at ha; cases ha
  · obtain ⟨rest, hrest⟩ := head?_eq_some_iff.mp hhead
    exact .inr (by rw [hrest]; rfl)

/-! ## The law -/

/-- **The protocol trace** of an uninterrupted `receive_run`, for any behavior and any hosts.

* The behavior is initialized once, before any other call.
* `activate` is called at most once, after a successful initialization and with its actions.
* `publish` is called at most once, when no row can still be offered.
* `next` is called only in that situation, and only after a publication that returned `Continue`.
* An event fold that returns an action value is followed at once by an `apply` of that value, and
  there is no other `apply`.
* Once a disposition has been selected nothing is started but one retirement, the applicable one;
  the move that selects it starts nothing either, except dropping a settlement whose reply said
  `Exhausted`. -/
theorem protocol_trace (b : P.Behavior) (e : P.Environment) (tr : DriverHistory P) (u : Config P)
    (h : Run step (.start b e) tr u) (hok : Uninterrupted tr) :
    ((u.driver.phase = .prepared ∧ calls tr = []) ∨
      ∃ rest, calls tr = .initialization :: rest ∧ .initialization ∉ rest) ∧
    (calls tr).count .activate ≤ 1 ∧
    (∀ pre x post, tr = pre ++ x :: post → x.target.point = .activate →
      ∃ y ∈ pre, ∃ b a, y.source.point = .initialization ∧ y.input = .folded b (.ok a) ∧
        x.target.driver.actions = some a) ∧
    (calls tr).count .publish ≤ 1 ∧
    (∀ x ∈ tr, x.target.point = .publish → Settled x.target.driver) ∧
    (∀ pre x post, tr = pre ++ x :: post → x.target.point = .next →
      Settled x.target.driver ∧
      ∃ y ∈ pre, y.source.point = .publish ∧ y.input = .published (.ok (.cont ()))) ∧
    (∀ x ∈ tr, ∀ event b a, x.source.point = .transition event → x.input = .folded b (.ok a) →
      x.target.point = .apply ∧ x.target.driver.actions = some a) ∧
    (∀ x ∈ tr, x.target.point = .apply →
      ∃ event b a, x.source.point = .transition event ∧ x.input = .folded b (.ok a)) ∧
    (∀ x ∈ tr, x.source.driver.disposition.isSome → ∀ k, x.target.point.call? = some k →
      k = .retirePrepared ∨ k = .retireActive) ∧
    (∀ x ∈ tr, x.source.driver.disposition = none → x.target.driver.disposition.isSome →
      x.target.point.call? = none ∨ x.target.point.call? = some .dispose) ∧
    retirements tr ≤ 1 ∧
    (∀ x ∈ tr,
      (x.target.point = .retirePrepared →
        x.target.driver.environment.isSome ∧ x.target.driver.active = none) ∧
      (x.target.point = .retireActive →
        x.target.driver.environment = none ∧ x.target.driver.active.isSome)) := by
  have hmono : ∀ x ∈ tr, x.source.stage ≤ x.target.stage := fun x hx =>
    stage_mono (run_moves h hx).1 (run_moves h hx).2 (hok x hx)
  refine ⟨?_, ?_, ?_, ?_, ?_, ?_, ?_, ?_, ?_, ?_, ?_, ?_⟩
  · rcases opening_run h with hnone | hhead
    · exact .inl hnone
    · obtain ⟨rest, hrest⟩ := head?_eq_some_iff.mp hhead
      refine .inr ⟨rest, hrest, fun hmem => ?_⟩
      have honce := (h.crosses_once (m := stage)
        (q := fun x => x.target.point.call? == some .initialization) 0 hmono ?_).1
      · rw [← count_calls, hrest, count_cons_self] at honce
        have := count_pos_iff.mpr hmem
        omega
      · intro x hx hq
        obtain ⟨hp, hphase, hphase'⟩ := initialization_starts (run_moves h hx).2 (by simpa using hq)
        rw [stage, stage, hp, hphase, hphase']
        exact ⟨Nat.le_refl 0, by show 0 < 2 * 1 + _; omega⟩
  · rw [count_calls]
    refine (h.crosses_once (m := stage) 2 hmono fun x hx hq => ?_).1
    obtain ⟨hp, hphase, htarget⟩ := activate_starts (run_moves h hx).2 (by simpa using hq)
    simp [stage, htarget, hp, hphase, Point.gate, rank]
  · rintro pre x post rfl hx
    obtain ⟨hpre, hstep, -⟩ := h.at
    obtain ⟨hp, hphase, htarget⟩ := activate_starts (step_moves hstep) (by rw [hx]; rfl)
    have hactions := activating_run hpre (fun y hy => hok y (mem_append_left _ hy)) hphase
      (by rw [hp]; simp)
    rw [htarget]
    exact hactions
  · rw [count_calls]
    refine (h.crosses_once (m := stage) 6 hmono fun x hx hq => ?_).1
    obtain ⟨hp, hphase, htarget, -⟩ :=
      publish_starts (run_moves h hx).1 (run_moves h hx).2 (by simpa using hq)
    simp [stage, htarget, hp, hphase, Point.gate, rank]
  · intro x hx hp
    obtain ⟨-, -, htarget, hsettled⟩ :=
      publish_starts (run_moves h hx).1 (run_moves h hx).2 (by rw [hp]; rfl)
    rw [htarget]
    exact hsettled
  · rintro pre x post rfl hx
    obtain ⟨hpre, hstep, -⟩ := h.at
    have hshape := run_shape hpre
    obtain ⟨hp, hne, htarget, hsettled⟩ := next_starts hshape (step_moves hstep) (by rw [hx]; rfl)
    rw [htarget]
    refine ⟨hsettled, published_run hpre ?_⟩
    -- the driver is running, not settling its initialization, and not about to classify it
    have hrun : x.source.driver.phase.running := hshape.admits_of hp
    cases hphase : x.source.driver.phase with
    | active => rfl
    | initializing =>
      have hi := (initializing_run hpre hphase).1
      rw [hsettled.interpretation] at hi
      cases hi
    | settlingInitialization => exact absurd hphase hne
    | prepared | activating | retiring | retirementAttempted => rw [hphase] at hrun; cases hrun
  · intro x hx event b a hp hin
    exact fold_applies (run_moves h hx).1 (run_moves h hx).2 hp hin
  · intro x hx hp
    obtain ⟨event, b, a, hsource, hin, -⟩ := apply_starts (run_moves h hx).2 (by rw [hp]; rfl)
    exact ⟨event, b, a, hsource, hin⟩
  · intro x hx hsome k hk
    obtain ⟨hshape, hm⟩ := run_moves h hx
    have hend := (hshape.ending_step (by rw [← hshape.selected, hsome]) hm).2
    exact isEnding_call hend hk
  · intro x hx hnone hsome
    exact selecting_starts (run_moves h hx).1 (run_moves h hx).2 hnone hsome
  · rcases retirements_run h with hzero | ⟨hone, -⟩ <;> omega
  · intro x hx
    exact retire_applies (run_moves h hx).2

/-- A life of one ordinary turn: initialize, activate, retain the first product, publish, fold one
event, apply it, stop, retire. -/
def oneTurn : List (Input numberPort) :=
  publishing ++ [.acquired (.reply (.cont (some 5)) none), .advance, .advance,
    .folded 2 (.ok 0), .completed (.application none (some 4)) (.reply () none),
    .advance, .classified (.ok .accepted), .advance,
    .completed (.retirement none none none none none none none (some 9)) (.reply () none),
    .advance]

/-- In that life every call of the protocol is made, and each of the solitary ones once. -/
theorem protocol_trace_oneTurn :
    calls (play oneTurn).1 = [.initialization, .activate, .classify, .offerNext, .publish, .next,
      .transition, .apply, .classify, .retireActive] ∧
    (calls (play oneTurn).1).count .activate ≤ 1 ∧ retirements (play oneTurn).1 ≤ 1 := by
  have hrun := play_run oneTurn rfl
  have hok : Uninterrupted (play oneTurn).1 := uninterrupted_of_all rfl
  have htrace := protocol_trace _ _ _ _ hrun hok
  exact ⟨rfl, htrace.2.1, htrace.2.2.2.2.2.2.2.2.2.2.1⟩

end Engine
