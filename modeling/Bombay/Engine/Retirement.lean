import Bombay.Engine.Shape

/-!
# Honest affine retirement

A driver crosses one retirement barrier, prepared or active, and crosses it at most once.  The host
that is asked to retire may leave any combination of the slots it borrowed occupied, its future may
be dropped half way, and the caller may call `receive_run` again with whatever came back.

The argument has two parts.  The phase `RetirementAttempted` is entered before the retirement is
started and is never left, so no second retirement can start (`attempted_stays`).  And a driver that
`drive` has returned is `Inert`: the head of the loop finds nothing to do with it, so calling
`receive_run` again runs through `head` and `finish` only (`resting_step`).
-/

set_option autoImplicit false

namespace Engine

open Machine

variable {P : Port} {c c' : Config P} {d : Driver P} {p : Point P} {i : Input P}
  {b : P.Behavior} {e : P.Environment} {tr : DriverHistory P} {u : Config P}

def Point.isRetire : Point P → Bool
  | .retirePrepared | .retireActive => true
  | _ => false

/-- At this point `drive` has returned. -/
def Point.isReturn : Point P → Bool
  | .finish | .received _ => true
  | _ => false

/-- At this point the driver is being handed around. -/
def Point.isRest : Point P → Bool
  | .idle | .head | .finish | .received _ => true
  | _ => false

/-! ## At most one retirement -/

/-- The phase `RetirementAttempted` is never left, and no retirement starts in it. -/
theorem attempted_stays (h : Shape c.driver c.point) (hp : c.driver.phase = .retirementAttempted)
    (hm : Moves c i c') :
    c'.driver.phase = .retirementAttempted ∧ c'.point.isRetire = false := by
  have ha := h.admits
  rw [hp] at ha
  cases hm with
  | start | attempted | deliver => exact ⟨hp, rfl⟩
  | again =>
    obtain rfl := h.same
    exact ⟨hp, rfl⟩
  | initialization hp' | activate hp' | classify hp' | settle hp' | surrender hp'
  | retirePrepared hp' | retireActive hp' | abandon hp' =>
    rw [hp] at hp'; cases hp'
  | retired hr hl | dropRetire hr hl => exact ⟨(lend_retire hr hl).1.trans hp, rfl⟩
  | disposed => exact absurd ha (by simp [Point.Admits])
  | _ => cases ha

/-- Starting a retirement is entering the phase `RetirementAttempted` from `Retiring`. -/
theorem retire_starts (hm : Moves c i c') (hr : c'.point.isRetire) :
    c.driver.phase = .retiring ∧ c'.driver.phase = .retirementAttempted := by
  cases hm with
  | retirePrepared hp | retireActive hp => exact ⟨hp, rfl⟩
  | _ => cases hr

/-- The number of retirements started. -/
def retirements (tr : DriverHistory P) : ℕ := tr.countP (·.target.point.isRetire)

theorem retirements_run (h : Run step (.start b e) tr u) :
    retirements tr = 0 ∨ retirements tr = 1 ∧ u.driver.phase = .retirementAttempted := by
  refine run_rule h (.inl rfl) ?_
  intro tr c i c' _ ih hshape hm
  have hcount : retirements (tr ++ [⟨c, i, c'⟩])
      = retirements tr + if c'.point.isRetire then 1 else 0 := by
    simp [retirements, List.countP_append, List.countP_cons]
  rw [hcount]
  rcases ih with hzero | ⟨hone, hp⟩
  · by_cases hr : c'.point.isRetire
    · exact .inr ⟨by simp [hzero, hr], (retire_starts hm hr).2⟩
    · exact .inl (by simp [hzero, hr])
  · obtain ⟨hp', hr⟩ := attempted_stays hshape hp hm
    exact .inr ⟨by simp [hone, hr], hp'⟩

/-! ## A returned driver is inert -/

/-- The head of the loop has nothing left to do with this driver. -/
def Inert (d : Driver P) : Prop :=
  d.phase = .retirementAttempted ∨
  d.phase = .retiring ∧
    ((d.sourceInput.isSome ∧ d.sourceReceived.isSome) ∨
      d.gather = d ∧ (d.residual.isSome ∨ (d.environment.isSome ↔ d.active.isSome)))

theorem gather_gather (d : Driver P) : d.gather.gather = d.gather := by
  by_cases h : d.retirementInput.isNone ∧ d.active.isSome
  · have hfull : d.gather.retirementInput.isNone = false := by simp [Driver.gather, h]
    conv_lhs => rw [Driver.gather]
    simp [hfull]
  · have hsame : d.gather = d := by
      unfold Driver.gather
      rw [if_neg (by simpa using h)]
    rw [hsame, hsame]

theorem gather_owners (d : Driver P) :
    d.gather.environment = d.environment ∧ d.gather.active = d.active ∧
      d.gather.residual = d.residual := by
  unfold Driver.gather
  split <;> exact ⟨rfl, rfl, rfl⟩

theorem inert_step (h : Shape c.driver c.point) (hi : c.point.isReturn → Inert c.driver)
    (hm : Moves c i c') (hr : c'.point.isReturn) : Inert c'.driver := by
  cases hm with
  | surrender hp hin hrec => exact .inr ⟨hp, .inl ⟨hin, hrec⟩⟩
  | @abandon d hp hs hn =>
    obtain ⟨henv, hact, hres⟩ := gather_owners d
    refine .inr ⟨(gather_verdict d).1.trans hp, .inr ⟨gather_gather d, ?_⟩⟩
    show d.gather.residual.isSome ∨ (d.gather.environment.isSome ↔ d.gather.active.isSome)
    rw [henv, hact, hres]
    exact hn
  | attempted hp => exact .inl hp
  | retired hp hl => exact .inl ((lend_retire hp hl).1.trans (retire_phase hp h))
  | deliver => exact hi rfl
  | _ => cases hr

theorem inert_run (h : Run step (.start b e) tr u) : u.point.isReturn → Inert u.driver :=
  run_rule h (by rintro ⟨⟩) fun _ _ _ _ _ ih hshape hm => inert_step hshape ih hm

/-- A configuration that only hands the inert driver `d` around. -/
structure Resting (d : Driver P) (c : Config P) : Prop where
  shape : Shape c.driver c.point
  same : c.driver = d
  inert : Inert d
  rests : c.point.isRest

/-- Calling `receive_run` again with an inert driver changes nothing and calls nothing. -/
theorem resting_step (h : Resting d c) (hm : Moves c i c') :
    Resting d c' ∧ c'.point.call? = none := by
  have hshape := h.shape.step hm
  obtain ⟨hs, rfl, hi, hp⟩ := h
  cases hm with
  | start | surrender | attempted | deliver => exact ⟨⟨hshape, rfl, hi, rfl⟩, rfl⟩
  | again => exact ⟨⟨hshape, hs.same, hi, rfl⟩, rfl⟩
  | initialization hp' | activate hp' | classify hp' | settle hp' =>
    rcases hi with hi | ⟨hi, -⟩ <;> (rw [hi] at hp'; cases hp')
  | retirePrepared hp' hs' he ha hr | retireActive hp' hs' he ha hr =>
    rcases hi with hi | ⟨-, hi | ⟨-, hi⟩⟩
    · rw [hi] at hp'; cases hp'
    · exact absurd hi hs'
    · simp [hr, he, ha] at hi
  | abandon hp' hs' =>
    rcases hi with hi | ⟨hphase, hi | ⟨hg, hi⟩⟩
    · rw [hi] at hp'; cases hp'
    · exact absurd hi hs'
    · exact ⟨⟨hshape, hg, .inr ⟨hphase, .inr ⟨hg, hi⟩⟩, rfl⟩, rfl⟩
  | retired hr | dropRetire hr => rcases hr with rfl | rfl <;> cases hp
  | _ => cases hp

theorem resting_run (h : Resting d c) (hrun : Run step c tr u) :
    Resting d u ∧ ∀ x ∈ tr, x.target.driver = d ∧ x.target.point.call? = none := by
  induction hrun with
  | refl => exact ⟨h, by simp⟩
  | snoc _ hstep ih =>
    obtain ⟨hrest, hcall⟩ := resting_step ih.1 (step_moves hstep)
    refine ⟨hrest, fun x hx => ?_⟩
    rcases List.mem_append.mp hx with hx | hx
    · exact ih.2 x hx
    · obtain rfl := List.mem_singleton.mp hx
      exact ⟨hrest.same, hcall⟩

/-! ## The reply of `receive_run` -/

/-- Every owning slot but the residual is empty. -/
structure Discharged (d : Driver P) : Prop where
  environment : d.environment = none
  active : d.active = none
  actions : d.actions = none
  activation : d.activation = none
  interpretation : d.interpretation = none
  sourceInput : d.sourceInput = none
  sourceReceived : d.sourceReceived = none
  sourceIndex : d.sourceIndex = none
  ingress : d.ingress = none
  settlements : d.settlements = []
  retirementInput : d.retirementInput = none

theorem ready_iff (d : Driver P) :
    d.ready ↔ Discharged d ∧ d.residual.isSome ∧ d.disposition.isSome := by
  constructor
  · intro h
    simp only [Driver.ready, Bool.and_eq_true, Option.isNone_iff_eq_none, List.isEmpty_iff] at h
    obtain ⟨⟨⟨⟨⟨⟨⟨⟨⟨⟨⟨⟨h1, h2⟩, h3⟩, h4⟩, h5⟩, h6⟩, h7⟩, h8⟩, h9⟩, h10⟩, h11⟩, h12⟩, h13⟩ := h
    exact ⟨⟨h1, h2, h3, h4, h5, h6, h7, h8, h10, h9, h11⟩, h12, h13⟩
  · rintro ⟨⟨h1, h2, h3, h4, h5, h6, h7, h8, h9, h10, h11⟩, h12, h13⟩
    simp [Driver.ready, h1, h2, h3, h4, h5, h6, h7, h8, h9, h10, h11, h12, h13]

/-- A complete reply carries what the driver held, and nothing was left behind. -/
theorem deliver_ok {r} (h : d.deliver = .ok r) :
    Discharged d ∧ d.residual = some r.residual ∧ d.disposition = some r.disposition ∧
      d.behavior = r.behavior ∧ d.additionalFailures = r.additionalFailures := by
  unfold Driver.deliver at h
  split at h
  · next hready hres hdisp =>
    cases h
    exact ⟨((ready_iff d).mp hready).1, hres, hdisp, rfl, rfl⟩
  · cases h

theorem deliver_error {d' : Driver P} (h : d.deliver = .error d') :
    d' = d ∧ ¬(Discharged d ∧ d.residual.isSome ∧ d.disposition.isSome) := by
  unfold Driver.deliver at h
  split at h
  · cases h
  · next hnot =>
    cases h
    refine ⟨rfl, fun hready => ?_⟩
    obtain ⟨residual, hres⟩ := Option.isSome_iff_exists.mp hready.2.1
    obtain ⟨disposition, hdisp⟩ := Option.isSome_iff_exists.mp hready.2.2
    exact hnot residual disposition ((ready_iff d).mpr hready) hres hdisp

/-- A reply is stored where `drive` has returned, and stores that driver's delivery. -/
theorem received_move {r} (hm : Moves c i c')
    (hr : c'.point = .received r) : c'.driver = c.driver ∧ c.driver.deliver = r := by
  cases hm with
  | deliver => exact ⟨rfl, Point.received.inj hr⟩
  | _ => exact absurd hr (by simp)

/-- **Retirement is honest and affine**, for any hosts, any cancellations and any number of calls
of `receive_run`.

* At most one retirement is ever started.
* A complete reply is stored only when a residual was received and every other owning slot is
  empty, and it carries the driver's own facts.
* Otherwise the reply is the very driver that `drive` left, untouched.
* From such a reply on (and likewise once an attempted retirement has been dropped) `receive_run`
  can be called any number of times: the driver stays as it is and nothing outside it is called. -/
theorem honest_retirement (b : P.Behavior) (e : P.Environment) (tr : DriverHistory P)
    (u : Config P) (h : Run step (.start b e) tr u) :
    retirements tr ≤ 1 ∧
    (∀ x ∈ tr, ∀ r, x.target.point = .received (.ok r) →
      Discharged x.source.driver ∧ x.source.driver.residual = some r.residual ∧
      x.source.driver.disposition = some r.disposition ∧
      x.source.driver.behavior = r.behavior ∧
      x.source.driver.additionalFailures = r.additionalFailures) ∧
    (∀ x ∈ tr, ∀ d, x.target.point = .received (.error d) →
      d = x.source.driver ∧ x.target.driver = d ∧
      ¬(Discharged d ∧ d.residual.isSome ∧ d.disposition.isSome)) ∧
    ((∃ d, u.point = .received (.error d)) ∨
        (u.point = .idle ∧ u.driver.phase = .retirementAttempted) →
      ∀ (tr' : DriverHistory P) (v : Config P), Run step u tr' v →
        ∀ x ∈ tr', x.target.driver = u.driver ∧ x.target.point.call? = none) := by
  refine ⟨?_, ?_, ?_, ?_⟩
  · rcases retirements_run h with hzero | ⟨hone, -⟩ <;> omega
  · intro x hx r hr
    obtain ⟨-, hdeliver⟩ := received_move (run_moves h hx).2 hr
    exact deliver_ok hdeliver
  · intro x hx d hr
    obtain ⟨hsame, hdeliver⟩ := received_move (run_moves h hx).2 hr
    obtain ⟨rfl, hnot⟩ := deliver_error hdeliver
    exact ⟨rfl, hsame, hnot⟩
  · intro hu tr' v hrun
    refine (resting_run ⟨run_shape h, rfl, ?_, ?_⟩ hrun).2
    · rcases hu with ⟨d, hd⟩ | ⟨-, hp⟩
      · exact inert_run h (by rw [hd]; rfl)
      · exact .inl hp
    · rcases hu with ⟨d, hd⟩ | ⟨hd, -⟩ <;> (rw [hd]; rfl)

/-- A life whose initialization decides to stop, and whose retirement panics half way: the reply is
incomplete, and the caller tries again. -/
def halfRetired : List (Input numberPort) :=
  [.receiveRun, .advance, .folded 1 (.ok 0), .advance,
    .completed (.activation none none (some (.ok (7, 3)))) (.reply () none),
    .advance, .classified (.ok .accepted), .advance,
    .completed (.retirement (some 7) none none none none none none (some 9)) (.unwound 4 none),
    .advance, .receiveRun, .advance, .advance]

/-- In that life one retirement is started, and the second call of `receive_run` has just returned
the driver once more. -/
theorem honest_retirement_halfRetired :
    retirements (play halfRetired).1 = 1 ∧
      ∃ d, (play halfRetired).2.point = .received (.error d) ∧ d.active = some 7 ∧
        retirements (play halfRetired).1 ≤ 1 := by
  have hrun := play_run halfRetired rfl
  exact ⟨rfl, _, rfl, rfl, (honest_retirement _ _ _ _ hrun).1⟩

end Engine
