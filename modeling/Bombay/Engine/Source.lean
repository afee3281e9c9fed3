import Bombay.Engine.Turn

/-!
# An admitted source result progresses first

When `offer_next` answers `Admitted`, the offered row has handed one result to its source, and the
control event that the source makes of it is to be folded and applied before the row, or any older
product, is offered again.

The driver remembers this by the row's tag `AwaitSource`.  It takes the tag off *before* it awaits
`next_source`, so from then on the obligation is kept by the program counter alone, until the
interpretation of the event's actions has been received.  A future dropped in between forgets it:
`dropped_source_is_offered_again` is a run in which the same row is offered a second time with no
fold in between.

Without such a drop (`SourceDrops`) the obligation is met, whatever happens at the other awaits.
The proof follows the driver through the stages of the obligation (`Owed`), one move at a time.
-/

set_option autoImplicit false

namespace Engine

open Machine List

variable {P : Port} {c c' : Config P} {d : Driver P} {p : Point P} {i : Input P}
  {b : P.Behavior} {e : P.Environment} {tr mid : DriverHistory P} {u : Config P}

/-- No drop comes between an admission and the interpretation it leads to: none at a pending
`next_source`, and none at a pending `apply` before the interpretation has been delivered. -/
def SourceDrops (tr : DriverHistory P) : Prop :=
  ∀ x ∈ tr, ∀ loan, x.input = .dropped loan →
    x.source.point ≠ .nextSource ∧
    (x.source.point = .apply → x.target.driver.interpretation.isSome)

/-! ## The rows before the one in flight -/

theorem first_row_unique {S : Type} {newer newer' older older' : List (SettlementTurn S)}
    {row row' : SettlementTurn S} (h : newer ++ row :: older = newer' ++ row' :: older')
    (hn : ∀ r ∈ newer, r.isRetained) (hn' : ∀ r ∈ newer', r.isRetained)
    (hr : row.isRetained = false) (hr' : row'.isRetained = false) : row = row' := by
  induction newer generalizing newer' with
  | nil =>
    cases newer' with
    | nil => exact (List.cons.inj h).1
    | cons =>
      obtain ⟨rfl, -⟩ := List.cons.inj h
      rw [hn' row (mem_cons_self ..)] at hr
      cases hr
  | cons r _ ih =>
    cases newer' with
    | nil =>
      obtain ⟨rfl, -⟩ := List.cons.inj h
      rw [hn r (mem_cons_self ..)] at hr'
      cases hr'
    | cons =>
      exact ih (List.cons.inj h).2 (fun x hx => hn x (mem_cons_of_mem _ hx))
        (fun x hx => hn' x (mem_cons_of_mem _ hx))

/-- The rows newer than the one in flight are retained. -/
def Behind (d : Driver P) : Prop :=
  ∀ index, d.sourceIndex = some index → ∀ row ∈ d.settlements.take index, row.isRetained

theorem Behind.none (h : d.sourceIndex = none) : Behind d := by
  intro index hindex
  rw [h] at hindex
  cases hindex

theorem rejectAll_running {es} (h : (d.rejectAll es).phase.running) : d.rejectAll es = d := by
  rw [Driver.rejectAll_eq] at h
  by_cases hes : es = []
  · rw [hes]; rfl
  · simp [hes] at h

theorem behind_step (h : Shape c.driver c.point) (hb : c.driver.phase.running → Behind c.driver)
    (hm : Moves c i c') (hrun : c'.driver.phase.running) : Behind c'.driver := by
  have ha := h.admits
  cases hm with
  | again =>
    obtain rfl := h.same
    exact hb hrun
  | initialization | retirePrepared | retireActive | uninitialized | unreadable | condemned
  | stopped | inactive | sourceMissing | unpublished | publishFailed | ended | requested | missing
  | unapplied | unfolded => cases hrun
  | @abandon d hp =>
    rw [show _ = _ from (gather_verdict d).1, hp] at hrun
    cases hrun
  | @malformedActivation d | @unactivated d =>
    rw [rejectAll_running hrun, show d.phase = _ from ha] at hrun
    cases hrun
  | activated =>
    rw [rejectAll_running hrun]
    exact .none (h.fresh ha).sourceIndex
  | continued hi =>
    exact .none ((h.live ha).turn (by rw [hi]; rfl))
  | take _ _ _ hn =>
    rintro index ⟨⟩
    rw [take_left]
    exact hn
  | nextSource _ hx | sourceHeld _ hx => exact .none hx
  | malformedOffer | disposed | sourceClosed | sourceFailed | nextFailed | applied
  | malformedApply =>
    have heq := rejectAll_running hrun
    rw [heq] at hrun ⊢
    exact hb hrun
  | exhausted | retained | admitted | closed =>
    rw [rejectAll_running hrun]
    exact .none rfl
  | @published d => exact hb (by rw [show d.phase = _ from ha]; rfl)
  | retired hp hl | dropRetire hp hl =>
    rw [show _ = _ from (lend_retire hp hl).1, retire_phase hp h] at hrun
    cases hrun
  | _ => exact hb hrun

theorem behind_run (h : Run step (.start b e) tr u) (hp : u.driver.phase.running) :
    Behind u.driver :=
  run_rule h (by rintro ⟨⟩) (fun _ _ _ _ _ ih hshape hm => behind_step hshape ih hm) hp

/-! ## The stages of the obligation -/

/-- A transition that acquired an event from `next_source`. -/
def Acquires (x : Transition (Config P) (Input P)) (v : P.Ingress) : Prop :=
  x.source.point = .nextSource ∧ ∃ reply, x.input = .acquired reply ∧ reply.value? = some v

/-- An event was obtained from `next_source`. -/
def Acquired (mid : DriverHistory P) (v : P.Ingress) : Prop := ∃ x ∈ mid, Acquires x v

/-- The transition folded an event that was obtained before into the action value `a`, and applied
that. -/
def Folds (mid : DriverHistory P) (x : Transition (Config P) (Input P)) : Prop :=
  ∃ event a, Acquired mid (.cont (some event)) ∧ x.source.point = .transition event ∧
    folded? x = some a ∧ x.target.point = .apply ∧ x.target.driver.actions = some a

/-- An event was obtained from `next_source`, folded, and its actions applied: the next transition
received their interpretation. -/
def Progressed (mid : DriverHistory P) : Prop :=
  ∃ pre x y post, mid = pre ++ x :: y :: post ∧ Folds pre x ∧ y.source = x.target ∧ Receives y

theorem Acquired.snoc {v : P.Ingress} (h : Acquired mid v) (x : Transition (Config P) (Input P)) :
    Acquired (mid ++ [x]) v := by
  obtain ⟨y, hy, hv⟩ := h
  exact ⟨y, mem_append_left _ hy, hv⟩

theorem Progressed.snoc (h : Progressed mid) (x : Transition (Config P) (Input P)) :
    Progressed (mid ++ [x]) := by
  obtain ⟨pre, y, z, post, rfl, hrest⟩ := h
  exact ⟨pre, y, z, post ++ [x], by simp, hrest⟩

/-- A row that awaits its source stands first among those that are not retained. -/
def AwaitsFirst (d : Driver P) : Prop :=
  ∃ newer s older, d.settlements = newer ++ .awaitSource s :: older ∧ ∀ row ∈ newer, row.isRetained

/-- How far the obligation of an admission has been met, `mid` being what happened since. -/
inductive Owed (mid : DriverHistory P) (c : Config P) : Prop
  /-- The answer stands in its slot, also across a drop of the offer. -/
  | answered (s : P.Settlement)
      (hp : c.point = .idle ∨ c.point = .head ∨ c.point = .settle ∨ ∃ fs, c.point = .offered fs)
      (hrun : c.driver.phase.running) (hi : c.driver.interpretation = none)
      (hx : c.driver.sourceIndex.isSome) (hr : c.driver.sourceReceived = some (.admitted s))
  /-- The row awaits its source. -/
  | waiting (hp : c.point = .head ∨ c.point = .settle) (hrun : c.driver.phase.running)
      (hi : c.driver.interpretation = none) (hx : c.driver.sourceIndex = none)
      (hr : AwaitsFirst c.driver)
  /-- `next_source` has been called. -/
  | asked (hp : c.point = .nextSource)
  /-- `next_source` has ended. -/
  | replied (fs : List P.Payload) (hp : c.point = .sourceAcquired fs)
      (hv : ∀ v, c.driver.ingress = some v → Acquired mid v)
  /-- Its reply is about to be used. -/
  | held (hp : c.point = .consume) (hv : ∀ v, c.driver.ingress = some v → Acquired mid v)
  /-- The event is being folded. -/
  | folding (event : P.Event) (hp : c.point = .transition event)
      (hv : Acquired mid (.cont (some event)))
  /-- The actions of the event are being applied. -/
  | applying (pre : DriverHistory P) (x : Transition (Config P) (Input P))
      (hmid : mid = pre ++ [x]) (hx : Folds pre x) (ht : x.target = c)
  /-- The obligation has been met. -/
  | done (h : Progressed mid)
  /-- The driver is ending. -/
  | ending (h : c.driver.phase.terminal)

variable {s : P.Settlement}

theorem awaits_putBack {index : ℕ} (hb : Behind d)
    (hindex : index ≤ d.settlements.length) (hx : d.sourceIndex = some index) :
    ∃ newer older, d.settlements.insertIdx index (.awaitSource s) =
      newer ++ .awaitSource s :: older ∧ ∀ row ∈ newer, row.isRetained :=
  ⟨d.settlements.take index, d.settlements.drop index, insertIdx_of_le hindex _, hb index hx⟩

/-! ## One move -/

/-- From the answer to the row that awaits its source.  Only `offered` reads the answer, and it
finds there what was put there, so nothing is offered on the way. -/
theorem answered_step (h : Shape c.driver c.point) (hb : c.driver.phase.running → Behind c.driver)
    (hp : c.point = .idle ∨ c.point = .head ∨ c.point = .settle ∨ ∃ fs, c.point = .offered fs)
    (hrun : c.driver.phase.running) (hi : c.driver.interpretation = none)
    (hx : c.driver.sourceIndex.isSome) (hr : c.driver.sourceReceived = some (.admitted s))
    (hm : Moves c i c') : Owed mid c' := by
  have ha := h.admits
  cases hm with
  | start => exact .answered s (.inr (.inl rfl)) hrun hi hx hr
  | settle => exact .answered s (.inr (.inr (.inl rfl))) hrun hi hx hr
  | answered => exact .answered s (.inr (.inr (.inr ⟨_, rfl⟩))) hrun hi hx hr
  | inactive => exact .ending rfl
  | malformedOffer => exact .ending (rejectAll_terminal (Driver.blame_ne_nil (not_retiring ha) _))
  | @admitted d fs s' index hi' hr' hx' =>
    by_cases hfs : fs = []
    · subst hfs
      obtain ⟨newer, older, hq, hn⟩ :=
        awaits_putBack (s := s') (hb hrun) ((h.live hrun).range index hx') hx'
      exact .waiting (.inl rfl) hrun hi rfl ⟨newer, s', older, hq, hn⟩
    · exact .ending (rejectAll_terminal (by simpa using hfs))
  | initialization hp' | activate hp' | surrender hp' | retirePrepared hp' | retireActive hp'
  | abandon hp' | attempted hp' => rw [hp'] at hrun; cases hrun
  | classify _ hi' => rw [hi] at hi'; cases hi'
  | offerNext _ _ hr' | exhausted _ hr' | retained _ hr' | closed _ hr' =>
    rw [hr] at hr'; cases hr'
  | take _ hx' | nextSource _ hx' | sourceHeld _ hx' | publish _ hx' | next _ hx'
  | ingressHeld _ hx' => rw [hx'] at hx; cases hx
  | retired hp' | dropRetire hp' => rcases hp' with rfl | rfl <;> simp at hp
  | _ => simp at hp

/-- From the row that awaits its source to the call of `next_source`: the row is the first that is
not retained, so no other is taken. -/
theorem waiting_step (h : Shape c.driver c.point) (hp : c.point = .head ∨ c.point = .settle)
    (hrun : c.driver.phase.running) (hi : c.driver.interpretation = none)
    (hx : c.driver.sourceIndex = none) (hr : AwaitsFirst c.driver) (hm : Moves c i c') :
    Owed mid c' := by
  obtain ⟨newer, s, older, hq, hn⟩ := hr
  cases hm with
  | settle => exact .waiting (.inr rfl) hrun hi hx ⟨newer, s, older, hq, hn⟩
  | inactive => exact .ending rfl
  | nextSource => exact .asked rfl
  | sourceHeld _ _ _ _ hg =>
    rw [(h.live hrun).holds.1] at hg
    cases hg
  | take _ _ hq' hn' =>
    have hrow := first_row_unique (hq.symm.trans hq') hn hn' rfl rfl
    cases hrow
  | publish _ _ hall | next _ _ hall | ingressHeld _ _ hall =>
    have hrow := hall (.awaitSource s) (by rw [show _ = _ from hq]; simp)
    cases hrow
  | initialization hp' | activate hp' | surrender hp' | retirePrepared hp' | retireActive hp'
  | abandon hp' | attempted hp' => rw [hp'] at hrun; cases hrun
  | classify _ hi' => rw [hi] at hi'; cases hi'
  | offerNext _ hx' | answered _ hx' => rw [hx] at hx'; cases hx'
  | retired hp' | dropRetire hp' => rcases hp' with rfl | rfl <;> simp at hp
  | _ => simp at hp

theorem owed_step (h : Shape c.driver c.point) (hb : c.driver.phase.running → Behind c.driver)
    (ho : Owed mid c) (hm : Moves c i c') (hd : ∀ loan, i = .dropped loan → c.point ≠ .nextSource ∧
      (c.point = .apply → c'.driver.interpretation.isSome)) : Owed (mid ++ [⟨c, i, c'⟩]) c' := by
  have ha := h.admits
  cases ho with
  | answered _ hp hrun hi hx hr => exact answered_step h hb hp hrun hi hx hr hm
  | waiting hp hrun hi hx hr => exact waiting_step h hp hrun hi hx hr hm
  | asked hp =>
    cases hm with
    | sourceEnded reply =>
      refine .replied reply.failures rfl fun v hv => ?_
      exact ⟨_, mem_append_right _ (mem_singleton_self _), rfl, reply, rfl, hv⟩
    | dropNextSource => exact absurd rfl (hd _ rfl).1
    | retired hp' | dropRetire hp' => rcases hp' with rfl | rfl <;> simp at hp
    | _ => simp at hp
  | replied _ hp hv =>
    cases hm with
    | sourceClosed => exact .ending (rejectAll_terminal (cons_ne_nil _ _))
    | sourceFailed _ hf =>
      have hfs := hf.resolve_right (not_retiring ha)
      exact .ending (rejectAll_terminal (by simpa using hfs))
    | sourceMissing => exact .ending rfl
    | sourceReady => exact .held rfl fun v hg => (hv v hg).snoc _
    | retired hp' | dropRetire hp' => rcases hp' with rfl | rfl <;> simp at hp
    | _ => simp at hp
  | held hp hv =>
    cases hm with
    | @fold d event hg => exact .folding event rfl ((hv _ hg).snoc _)
    | ended | requested | missing => exact .ending rfl
    | retired hp' | dropRetire hp' => rcases hp' with rfl | rfl <;> simp at hp
    | _ => simp at hp
  | folding event hp hv =>
    cases hm with
    | apply _ a =>
      obtain ⟨rfl⟩ := hp
      exact .applying mid _ rfl ⟨event, a, hv, rfl, rfl, rfl, rfl⟩ rfl
    | unapplied | unfolded => exact .ending rfl
    | retired hp' | dropRetire hp' => rcases hp' with rfl | rfl <;> simp at hp
    | _ => simp at hp
  | applying pre x hmid hx ht =>
    have hp : c.point = .apply := by
      obtain ⟨event, a, -, -, -, hp, -⟩ := hx
      rwa [ht] at hp
    have hnone : c.driver.interpretation = none := by
      have hrun : c.driver.phase.running := by rwa [hp] at ha
      have hholds := (h.live hrun).holds
      rw [hp] at hholds
      exact hholds.2.1
    have hdone (hi : c'.driver.interpretation.isSome) : Progressed (mid ++ [⟨c, i, c'⟩]) :=
      ⟨pre, x, ⟨c, i, c'⟩, [], by rw [hmid, append_assoc]; rfl, hx, ht.symm, hnone, hi⟩
    cases hm with
    | applied => exact .done (hdone (by rw [Driver.rejectAll_eq]; rfl))
    | malformedApply => exact .ending (rejectAll_terminal (Driver.blame_ne_nil (not_retiring ha) _))
    | dropApply => exact .done (hdone ((hd _ rfl).2 rfl))
    | retired hp' | dropRetire hp' => rcases hp' with rfl | rfl <;> simp at hp
    | _ => simp at hp
  | done hdone => exact .done (hdone.snoc _)
  | ending ht => exact .ending (h.ending_step ht hm).1

theorem owed_starts (h : Shape c.driver c.point) (hm : Moves c i c')
    (hp : c.point = .offerNext) (hr : c'.driver.sourceReceived = some (.admitted s)) :
    Owed [] c' := by
  cases hm with
  | offerEnded =>
    obtain ⟨-, hi, hx⟩ := (h.live h.admits).holds
    exact .answered s (.inr (.inr (.inr ⟨_, rfl⟩))) h.admits hi hx hr
  | dropOffer =>
    obtain ⟨-, hi, hx⟩ := (h.live h.admits).holds
    exact .answered s (.inl rfl) h.admits hi hx hr
  | retired hp' | dropRetire hp' => rcases hp' with rfl | rfl <;> simp at hp
  | _ => simp at hp

theorem owed_offer (h : Shape c.driver c.point) (ho : Owed mid c) (hm : Moves c i c')
    (hp : c'.point = .offerNext) : Progressed mid := by
  cases hm with
  | @offerNext d _ hx hr =>
    have hrun : d.phase.running := h.admits
    cases ho with
    | answered _ _ _ _ _ hr' => rw [hr] at hr'; cases hr'
    | waiting _ _ _ hx' => rw [hx'] at hx; cases hx
    | applying _ _ _ hfolds ht =>
      obtain ⟨event, a, -, -, -, hpoint, -⟩ := hfolds
      rw [ht] at hpoint
      cases hpoint
    | done hdone => exact hdone
    | ending ht =>
      rw [ExecutionPhase.not_terminal_of_running hrun] at ht
      cases ht
    | asked hpoint | replied _ hpoint | held hpoint | folding _ hpoint => cases hpoint
  | _ => cases hp

/-! ## The law -/

theorem owed_run {x : Transition (Config P) (Input P)}
    (hx : Run step (.start b e) tr x.source) (hstep : step x.source x.input = some x.target)
    (hp : x.source.point = .offerNext) (hr : x.target.driver.sourceReceived = some (.admitted s))
    (hmid : Run step x.target mid u) (hd : SourceDrops mid) : Owed mid u := by
  have hreach {mid : DriverHistory P} {v : Config P} (hmid : Run step x.target mid v) :
      Run step (.start b e) (tr ++ [x] ++ mid) v := (Run.snoc hx hstep).append hmid
  refine hmid.historyOn hd (owed_starts (run_shape hx) (step_moves hstep) hp hr) ?_
  intro mid v i w hv ho hd hstep'
  exact owed_step (run_shape (hreach hv)) (behind_run (hreach hv)) ho (step_moves hstep') hd

/-- **An admitted source result progresses first**, for any behavior and any hosts: after
`offer_next` has answered `Admitted`, no row is offered before an event obtained from `next_source`
has been folded and its actions applied, as long as in between no pending `next_source` is dropped,
and no pending `apply` before its interpretation has been delivered. -/
theorem admitted_first (b : P.Behavior) (e : P.Environment) (pre mid post : DriverHistory P)
    (x y : Transition (Config P) (Input P)) (u : Config P)
    (h : Run step (.start b e) (pre ++ x :: (mid ++ y :: post)) u) (s : P.Settlement)
    (hx : x.source.point = .offerNext) (hs : x.target.driver.sourceReceived = some (.admitted s))
    (hd : SourceDrops mid) (hy : y.target.point = .offerNext) : Progressed mid := by
  obtain ⟨hpre, hstep, hrest⟩ := h.at
  obtain ⟨hmid, hoffer, -⟩ := hrest.at
  have hshape := run_shape ((Run.snoc hpre hstep).append hmid)
  exact owed_offer hshape (owed_run hpre hstep hx hs hmid hd) (step_moves hoffer) hy

/-- The source admits the product `3` and makes the event `5` of it.  The turn of that event makes
the product `4`, and the future is dropped when its `apply` has finished.  The next offer is that of
`4`, and the law says that the event has been folded and applied before. -/
theorem admitted_first_transitive :
    let inputs := offering ++ [.completed (.source none (some (.admitted 3))) (.reply () none),
      .advance, .advance, .advance, .acquired (.reply (.cont (some 5)) none), .advance, .advance,
      .folded 2 (.ok 1), .dropped (.application none (some 4)), .receiveRun, .advance,
      .classified (.ok .accepted), .advance, .advance, .advance]
    (play inputs).2.point = .offerNext ∧ (play inputs).2.driver.sourceInput = some 4 ∧
      Progressed (((play inputs).1.take 24).drop 11) := by
  intro inputs
  have hrun := play_run inputs rfl
  refine ⟨rfl, rfl, ?_⟩
  refine admitted_first _ _ ((play inputs).1.take 10) _ [] _ _ _ hrun 3 rfl rfl ?_ rfl
  intro x hx loan hin
  have hall : (((play inputs).1.take 24).drop 11).all (fun x => !x.input.isDropped ||
    (x.source.point.call? != some .nextSource &&
      x.target.driver.interpretation.isSome)) = true := rfl
  have hx' := all_eq_true.mp hall x hx
  rw [hin, Input.isDropped, Bool.not_true, Bool.false_or, Bool.and_eq_true] at hx'
  refine ⟨fun hp => ?_, fun _ => hx'.2⟩
  rw [hp] at hx'
  cases hx'.1

/-- The source admits the product `3`, and the future is dropped while `next_source` is pending.
Called again, the driver offers the same product a second time; nothing has been folded. -/
theorem dropped_source_is_offered_again :
    let tr := (play (offering ++
      [.completed (.source none (some (.admitted 3))) (.reply () none), .advance, .advance,
        .advance, .dropped .ingress, .receiveRun, .advance, .advance, .advance, .advance])).1
    (∃ u, Run step numberStart tr u) ∧
    ∃ x y : Transition (Config numberPort) (Input numberPort),
      tr[10]? = some x ∧ x.source.point = .offerNext ∧
      x.target.driver.sourceReceived = some (.admitted 3) ∧
      tr[19]? = some y ∧ y.target.point = .offerNext ∧ y.target.driver.sourceInput = some 3 ∧
      ∀ z ∈ (tr.take 20).drop 11, folded? z = none ∧ z.target.driver.phase.terminal = false := by
  intro tr
  refine ⟨⟨_, play_run _ rfl⟩, _, _, rfl, rfl, rfl, rfl, rfl, rfl, ?_⟩
  intro z hz
  have hall : ((tr.take 20).drop 11).all (fun z =>
    (folded? z).isNone && !z.target.driver.phase.terminal) = true := rfl
  have hz' := all_eq_true.mp hall z hz
  rw [Bool.and_eq_true, Option.isNone_iff_eq_none, Bool.not_eq_true'] at hz'
  exact hz'

end Engine
