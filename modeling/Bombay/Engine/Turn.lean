import Bombay.Engine.Shape

/-!
# One causal turn at a time

A successful fold fills the slots `actions` and `decision`.  The turn is over when the host has
taken the actions and an interpretation has been received; until then no event may be requested and
nothing may be folded, or the actions of the open turn would be overwritten.

The loop body keeps the turn open only as a program counter: between a fold and the end of its
`apply` nothing in the record says that a turn is open.  So a future that is dropped while `apply`
is pending loses it.  `dropped_apply_loses_its_actions` is such a run: called again, the driver asks
for the next event, folds it, and overwrites the actions of the first turn.

This is the only cut that does it.  If every drop at a pending `apply` happens after the host has
consumed the actions and delivered the interpretation (`CleanDrops`), then `one_turn` holds for
drops at all other awaits, any number of times.
-/

set_option autoImplicit false

namespace Engine

open Machine List Driver

variable {P : Port} {c c' : Config P} {d : Driver P} {p : Point P} {i : Input P}
  {b : P.Behavior} {e : P.Environment} {tr : DriverHistory P} {u : Config P}

/-- Every drop at a pending `apply` comes after the host has finished with the slots. -/
def CleanDrops (tr : DriverHistory P) : Prop :=
  ∀ x ∈ tr, ∀ loan, x.input = .dropped loan → x.source.point = .apply →
    x.target.driver.actions = none ∧ x.target.driver.interpretation.isSome

/-- The transition received an interpretation. -/
def Receives (x : Transition (Config P) (Input P)) : Prop :=
  x.source.driver.interpretation = none ∧ x.target.driver.interpretation.isSome

/-! ## Between turns the slots are empty -/

/-- What the slots of the turn hold at a point of a running driver.  At the head of the loop a turn
may be waiting for the classification of its interpretation; at `apply` it is open; everywhere else
it is over. -/
def Between (d : Driver P) : Point P → Prop
  | .idle | .head => d.actions = none ∧ (d.interpretation = none → d.decision = none)
  | .classify => d.actions = none
  | .apply => True
  | _ => d.actions = none ∧ d.decision = none

/-- The turn discipline of a configuration. -/
structure Turned (c : Config P) : Prop where
  running : c.driver.phase.running → Between c.driver c.point
  initial : c.point = .initialization → c.driver.actions = none ∧ c.driver.decision = none

theorem Turned.ending (ht : c.driver.phase.terminal) (hp : c.point ≠ .initialization) :
    Turned c where
  running hrun := by
    rw [ExecutionPhase.not_terminal_of_running hrun] at ht
    cases ht
  initial h := absurd h hp

theorem Turned.record {es} (h : d.phase.running → Between d p)
    (hp : p ≠ .initialization) : Turned ⟨d.rejectAll es, p⟩ := by
  by_cases hes : es = []
  · rw [hes]
    exact ⟨h, fun h' => absurd h' hp⟩
  · refine .ending ?_ hp
    rw [rejectAll_eq]
    simp [hes]

theorem turned_step (h : Shape c.driver c.point) (ht : Turned c) (hm : Moves c i c')
    (hclean : ∀ loan, i = .dropped loan → c.point = .apply →
      c'.driver.actions = none ∧ c'.driver.interpretation.isSome) : Turned c' := by
  have ha := h.admits
  have hnot {phase : ExecutionPhase} (hp : phase.running) (hphase : phase = .activating) :
      False := by
    rw [hphase] at hp
    cases hp
  -- from a point where the turn is over to the head of the loop, or out of the future
  have resting {d : Driver P} (hb : d.actions = none ∧ d.decision = none) : Between d .head :=
    ⟨hb.1, fun _ => hb.2⟩
  cases hm with
  | again =>
    obtain rfl := h.same
    exact .ending h.admits (by simp)
  | initialization hp =>
    obtain ⟨b, e, rfl⟩ := h.prepared hp
    exact ⟨by rintro ⟨⟩, fun _ => ⟨rfl, rfl⟩⟩
  | classify hp => exact ⟨fun hp => (ht.running hp).1, by simp⟩
  | settle hp hi => exact ⟨fun hp => ⟨(ht.running hp).1, (ht.running hp).2 hi⟩, by simp⟩
  | retirePrepared | retireActive | uninitialized | unreadable | condemned | stopped | inactive
  | sourceMissing | unpublished | publishFailed | ended | requested | missing | unapplied
  | unfolded => exact .ending rfl (by simp)
  | @abandon d hp => exact .ending (by rw [show _ = _ from (gather_verdict d).1, hp]; rfl) (by simp)
  | surrender hp | attempted hp => exact .ending (by rw [hp]; rfl) (by simp)
  | initialized | dropActivate => exact ⟨fun hp => (hnot hp ha).elim, by simp⟩
  | activate hp' => exact ⟨fun hp => (hnot hp hp').elim, by simp⟩
  | malformedActivation | unactivated => exact .record (fun hp => (hnot hp ha).elim) (by simp)
  | activated | applied => exact .record (fun _ => ⟨rfl, by simp⟩) (by simp)
  | continued => exact ⟨fun _ => ⟨ht.running ha, rfl⟩, by simp⟩
  | take | dropOffer | dropNextSource | dropNext =>
    exact ⟨fun hp => resting (ht.running hp), by simp⟩
  | exhausted => exact .record (fun hp => ht.running hp) (by simp)
  | malformedOffer | retained | admitted | closed | sourceClosed | sourceFailed | nextFailed
  | disposed => exact .record (fun hp => resting (ht.running hp)) (by simp)
  | @published d =>
    exact ⟨fun _ => resting (ht.running (by rw [show d.phase = _ from ha]; rfl)), by simp⟩
  | apply => exact ⟨fun _ => trivial, by simp⟩
  | @malformedApply d =>
    refine .ending ?_ (by simp)
    rw [rejectAll_eq]
    simp [blame_ne_nil (not_retiring ha)]
  | retired hp hl | dropRetire hp hl =>
    refine .ending ?_ (by simp)
    rw [show _ = _ from (lend_retire hp hl).1, retire_phase hp h]
    rfl
  | deliver => exact .ending ha (by simp)
  | dropApply =>
    obtain ⟨hactions, hi⟩ := hclean _ rfl rfl
    exact ⟨fun _ => ⟨hactions, fun hnone => by rw [hnone] at hi; cases hi⟩, by simp⟩
  | _ => exact ⟨fun hp => ht.running hp, by simp⟩

theorem turned_run (h : Run step (.start b e) tr u) (hclean : CleanDrops tr) : Turned u :=
  run_ruleOn (Q := fun _ c => Turned c) h hclean ⟨by rintro ⟨⟩, by rintro ⟨⟩⟩
    fun _ _ _ _ _ ih hclean hshape hm => turned_step hshape ih hm hclean

/-! ## An open turn -/

/-- The turn of the action value `a` is open: its decision is kept, no interpretation has been
received, and control is on the way to the operation that takes the actions, or in it. -/
structure Open (a : P.Actions) (c : Config P) : Prop where
  decision : c.driver.decision = some (P.decision a)
  interpretation : c.driver.interpretation = none
  place : (c.driver.phase = .activating ∧
    (c.point = .idle ∨ c.point = .head ∨ c.point = .activate)) ∨ c.point = .apply

theorem Open.quiet {a : P.Actions} (h : Open a c) :
    c.point ≠ .next ∧ c.point ≠ .nextSource ∧ c.point ≠ .initialization ∧
      ∀ event, c.point ≠ .transition event := by
  rcases h.place with ⟨-, hp | hp | hp⟩ | hp <;> rw [hp] <;> simp

theorem open_starts {a : P.Actions} (h : Shape c.driver c.point) (hm : Moves c i c')
    (hf : folded? ⟨c, i, c'⟩ = some a) : Open a c' := by
  cases hm with
  | initialized =>
    obtain rfl := Option.some.inj hf
    exact ⟨rfl, (h.fresh h.admits).interpretation, .inl ⟨h.admits, .inr (.inl rfl)⟩⟩
  | apply =>
    obtain rfl := Option.some.inj hf
    exact ⟨rfl, (h.live h.admits).holds.2.1, .inr rfl⟩
  | unapplied _ _ ha =>
    have hactive := (h.live h.admits).active
    rw [ha] at hactive
    cases hactive
  | @uninitialized d b r e he | @unfolded d event b r e he =>
    cases r with
    | ok => cases he
    | err | panicked => cases hf
  | retired hp | dropRetire hp => rcases hp with rfl | rfl <;> cases hf
  | _ => cases hf

/-- An open turn stays open until an interpretation is received or the driver is ending. -/
theorem open_step {a : P.Actions} (h : Shape c.driver c.point) (ho : Open a c) (hm : Moves c i c')
    (hclean : ∀ loan, i = .dropped loan → c.point = .apply →
      c'.driver.actions = none ∧ c'.driver.interpretation.isSome)
    (hr : ¬Receives ⟨c, i, c'⟩) (ht : c'.driver.phase.terminal = false) :
    Open a c' ∧ folded? ⟨c, i, c'⟩ = none := by
  have hnone := ho.interpretation
  have hrec (hi : c'.driver.interpretation.isSome) : False := hr ⟨hnone, hi⟩
  have hblame {d : Driver P} {es : List (DriverError P)} (hes : es ≠ [])
      (hd : c'.driver = d.rejectAll es) : False := by
    rw [hd, rejectAll_eq] at ht
    simp [hes] at ht
  rcases ho.place with ⟨hphase, hp⟩ | hp
  · cases hm with
    | start => exact ⟨⟨ho.decision, hnone, .inl ⟨hphase, .inr (.inl rfl)⟩⟩, rfl⟩
    | activate => exact ⟨⟨ho.decision, hnone, .inl ⟨hphase, .inr (.inr rfl)⟩⟩, rfl⟩
    | dropActivate => exact ⟨⟨ho.decision, hnone, .inl ⟨hphase, .inl rfl⟩⟩, rfl⟩
    | malformedActivation =>
      exact (hblame (blame_ne_nil (by rw [hphase]; simp) _) rfl).elim
    | activated => exact (hrec (by rw [rejectAll_eq]; rfl)).elim
    | unactivated => exact (hblame (cons_ne_nil _ _) rfl).elim
    | initialization hp' | classify hp' | settle hp' | surrender hp' | retirePrepared hp'
    | retireActive hp' | abandon hp' | attempted hp' => rw [hphase] at hp'; cases hp'
    | retired hr' | dropRetire hr' => rcases hr' with rfl | rfl <;> simp at hp
    | _ => simp at hp
  · cases hm with
    | applied => exact (hrec (by rw [rejectAll_eq]; rfl)).elim
    | malformedApply =>
      exact (hblame (blame_ne_nil (not_retiring h.admits) _) rfl).elim
    | dropApply => exact (hrec (hclean _ rfl rfl).2).elim
    | retired hr' | dropRetire hr' => rcases hr' with rfl | rfl <;> simp at hp
    | _ => simp at hp

theorem open_run {a : P.Actions} (h : Shape c.driver c.point) (ho : Open a c)
    (hrun : Run step c tr u) (hclean : CleanDrops tr)
    (hquiet : ∀ z ∈ tr, ¬Receives z ∧ z.target.driver.phase.terminal = false) :
    ∀ y ∈ tr, Open a y.target ∧ folded? y = none := by
  have hall : Shape u.driver u.point ∧ Open a u ∧ ∀ y ∈ tr, Open a y.target ∧ folded? y = none := by
    refine hrun.historyOn (fun x hx => And.intro (hclean x hx) (hquiet x hx)) ⟨h, ho, by simp⟩ ?_
    rintro tr t i v - ⟨hshape, hopen, hbefore⟩ ⟨hclean, hr, hterm⟩ hstep
    have hm := step_moves hstep
    have hnext := open_step hshape hopen hm hclean hr hterm
    refine ⟨hshape.step hm, hnext.1, fun y hy => ?_⟩
    rcases mem_append.mp hy with hy | hy
    · exact hbefore y hy
    · obtain rfl := mem_singleton.mp hy
      exact hnext
  exact hall.2.2

/-! ## The slot of the actions -/

/-- What a loan leaves in the slot of the actions, which held `held`: what the host handed back, if
it was lent the slot. -/
def Loan.left (held : Option P.Actions) : Loan P → Option P.Actions
  | .activation _ actions _ | .application actions _ | .prepared _ actions _
  | .retirement _ actions _ _ _ _ _ _ => actions
  | .source _ _ | .ingress => held

/-- The slot of the actions, which held `held`, as the hosts leave it to the driver. -/
def Input.left (held : Option P.Actions) : Input P → Option P.Actions
  | .completed loan _ | .dropped loan => loan.left held
  | _ => held

theorem lend_actions {d' : Driver P} {loan : Loan P} (h : d.lend p loan = some d') :
    d'.actions = loan.left d.actions := by
  cases p <;> cases loan <;> simp only [lend, reduceCtorEq] at h <;> cases h <;> rfl

/-- The driver itself writes the actions in a fold only. -/
theorem actions_step (h : Shape c.driver c.point) (hm : Moves c i c') :
    c'.driver.actions = (folded? ⟨c, i, c'⟩ <|> i.left c.driver.actions) := by
  cases hm with
  | again => obtain rfl := h.same; rfl
  | retireActive | abandon =>
    show actions (gather _) = _
    unfold gather
    split <;> rfl
  | @uninitialized d b r e he | @unfolded d event b r e he =>
    cases r with
    | ok => cases he
    | err | panicked => rfl
  | malformedActivation | activated | unactivated | applied | malformedApply | malformedOffer
  | exhausted | retained | admitted | closed | disposed | sourceClosed | sourceFailed
  | nextFailed => rw [rejectAll_eq]; rfl
  | retired hp hl | dropRetire hp hl =>
    have hleft := lend_actions hl
    rcases hp with rfl | rfl <;> exact hleft
  | _ => rfl

theorem folded_source {x : Transition (Config P) (Input P)} (hf : (folded? x).isSome) :
    x.source.point = .initialization ∨ ∃ event, x.source.point = .transition event := by
  unfold folded? at hf
  split at hf
  · next hp _ => exact .inl hp
  · next event _ _ hp _ => exact .inr ⟨event, hp⟩
  · cases hf

/-! ## The law -/

/-- **One causal turn at a time**, for any behavior and any hosts, with the future dropped at any
awaits and `receive_run` called again, as long as no drop interrupts an `apply` before the host has
consumed the actions and delivered the interpretation.

* A fold finds the slots of the turn empty, so it overwrites nothing.
* After a fold the slot of the actions holds its action value.  After every other transition it
  holds what was there, or what the host that was lent it has left: the driver destroys no action
  value.
* After a successful fold, until an interpretation is received or the driver is ending, its
  decision stands, no event is requested and nothing is folded. -/
theorem one_turn (b : P.Behavior) (e : P.Environment) (tr : DriverHistory P) (u : Config P)
    (h : Run step (.start b e) tr u) (hclean : CleanDrops tr) :
    (∀ x ∈ tr, (folded? x).isSome →
      x.source.driver.actions = none ∧ x.source.driver.decision = none) ∧
    (∀ x ∈ tr, x.target.driver.actions = (folded? x <|> x.input.left x.source.driver.actions)) ∧
    (∀ pre x mid post a, tr = pre ++ x :: (mid ++ post) → folded? x = some a →
      (∀ z ∈ mid, ¬Receives z ∧ z.target.driver.phase.terminal = false) →
      ∀ y ∈ mid, y.target.driver.decision = some (P.decision a) ∧ folded? y = none ∧
        y.target.point ≠ .next ∧ y.target.point ≠ .nextSource ∧
        y.target.point ≠ .initialization ∧ ∀ event, y.target.point ≠ .transition event) := by
  refine ⟨?_, ?_, ?_⟩
  · intro x hx hf
    obtain ⟨pre, post, rfl, hpre, -⟩ := h.of_mem hx
    have hturned := turned_run hpre fun y hy => hclean y (mem_append_left _ hy)
    rcases folded_source hf with hp | ⟨event, hp⟩
    · exact hturned.initial hp
    · have hbetween := hturned.running ((run_shape hpre).admits_of hp)
      rwa [hp] at hbetween
  · intro x hx
    exact actions_step (run_moves h hx).1 (run_moves h hx).2
  · rintro pre x mid post a rfl hf hquiet y hy
    obtain ⟨hpre, hstep, hrest⟩ := h.at
    obtain ⟨t, hmid, -⟩ := hrest.split
    have hm := step_moves hstep
    have hopen := open_run ((run_shape hpre).step hm) (open_starts (run_shape hpre) hm hf) hmid
      (fun z hz => hclean z (by simp [hz])) hquiet y hy
    exact ⟨hopen.1.decision, hopen.2, hopen.1.quiet⟩

/-- A published driver that has just folded the event `5` into the action value `1` and called
`apply` with it. -/
def applying : List (Input numberPort) :=
  publishing ++ [.acquired (.reply (.cont (some 5)) none), .advance, .advance, .folded 2 (.ok 1)]

/-- The future is dropped after the host has finished with the slots of that `apply`, and the caller
goes on: the law applies, and the next fold, of the event `6`, finds the slots empty. -/
theorem one_turn_clean_drop :
    let inputs := applying ++ [.dropped (.application none (some 4)), .receiveRun, .advance,
      .classified (.ok .accepted), .advance, .advance, .advance,
      .completed (.source none (some (.retained 4))) (.reply () none), .advance, .advance,
      .advance, .acquired (.reply (.cont (some 6)) none), .advance, .advance, .folded 3 (.ok 2)]
    ∃ x, (play inputs).1.getLast? = some x ∧ folded? x = some 2 ∧
      x.source.driver.actions = none ∧ x.source.driver.decision = none := by
  intro inputs
  have hrun := play_run inputs rfl
  have hclean : CleanDrops (play inputs).1 := by
    intro x hx loan hin hp
    have hall : (play inputs).1.all (fun x => !x.input.isDropped ||
      (x.target.driver.actions.isNone && x.target.driver.interpretation.isSome)) = true := rfl
    have hx' := all_eq_true.mp hall x hx
    rw [hin] at hx'
    rwa [Input.isDropped, Bool.not_true, Bool.false_or, Bool.and_eq_true,
      Option.isNone_iff_eq_none] at hx'
  refine ⟨_, rfl, rfl, ?_⟩
  exact (one_turn _ _ _ _ hrun hclean).1 _ (mem_of_getLast? rfl) rfl

/-- The future is dropped while that `apply` is pending, and the caller goes on: the driver asks for
an event, folds it, and overwrites the actions of the open turn, which no host has seen. -/
theorem dropped_apply_loses_its_actions :
    let tr := (play (applying ++ [.dropped (.application (some 1) none), .receiveRun, .advance,
      .advance, .acquired (.reply (.cont (some 6)) none), .advance, .advance,
      .folded 3 (.ok 2)])).1
    (∃ u, Run step numberStart tr u) ∧
    ∃ x y : Transition (Config numberPort) (Input numberPort),
      tr[20]? = some x ∧ folded? x = some 1 ∧ tr[28]? = some y ∧ folded? y = some 2 ∧
      y.source.driver.actions = some 1 ∧ y.target.driver.actions = some 2 ∧
      (∃ z ∈ (tr.take 28).drop 21, z.target.point = .next) ∧
      ∀ z ∈ (tr.take 28).drop 21,
        z.target.driver.interpretation = none ∧ z.target.driver.phase.terminal = false := by
  intro tr
  refine ⟨⟨_, play_run _ rfl⟩, _, _, rfl, rfl, rfl, rfl, rfl, rfl, ?_, ?_⟩
  · have hnext : ((tr.take 28).drop 21)[3]? = some ⟨_, .advance, ⟨_, .next⟩⟩ := rfl
    exact ⟨_, mem_of_getElem? hnext, rfl⟩
  · intro z hz
    have hall : ((tr.take 28).drop 21).all (fun z =>
      z.target.driver.interpretation.isNone && !z.target.driver.phase.terminal) = true := rfl
    have hz' := all_eq_true.mp hall z hz
    rw [Bool.and_eq_true, Option.isNone_iff_eq_none, Bool.not_eq_true'] at hz'
    exact hz'

end Engine
