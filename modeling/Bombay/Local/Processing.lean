import Bombay.Local.Ingress

/-!
# What becomes of a message

The driver calls `next` only between turns: what was read from the lane before has been folded and
applied by then, or the driver is ending and never calls `next` again.

`Processed` finds in the history what became of one message, and `InHand` says how far the driver
has got with the message it was given last.
-/

set_option autoImplicit false

namespace Local

open Machine Engine Entity Option

variable {P : Port} {M : Type} {user : M → P.Event} {s s' : LocalActor P M} {tr : LocalHistory P M}
  {b : P.Behavior} {e : P.Environment} {n : ℕ} {m : M}

/-! ## What becomes of a message -/

/-- The transition reads the message at position `n`, and the driver gets its event. -/
structure Takes (user : M → P.Event) (n : ℕ) (m : M)
    (x : Transition (LocalActor P M) (LocalOp P M)) : Prop where
  point : x.source.config.point = .next
  read : x.source.read = n ∧ x.target.read = n + 1
  ingress : x.target.config.driver.ingress = some (.cont (some (user m)))

/-- The action value that the transition has folded an event into. -/
def foldedBy (x : Transition (LocalActor P M) (LocalOp P M)) : Option P.Actions :=
  match x.input with
  | .drive i => folded? ⟨x.source.config, i, x.target.config⟩
  | _ => none

/-- The transition is the end of an `apply` that consumed `a` and was interpreted. -/
structure Applies (a : P.Actions) (x : Transition (LocalActor P M) (LocalOp P M)) : Prop where
  point : x.source.config.point = .apply
  before : x.source.config.driver.actions = some a
  after : x.target.config.driver.actions = none
  received : x.target.config.driver.interpretation.isSome

/-- There is a transition as `Q` wants it, of which `Q` may also know the history, and nothing was
folded after it. -/
def Last (Q : LocalHistory P M → Transition (LocalActor P M) (LocalOp P M) → Prop)
    (tr : LocalHistory P M) : Prop :=
  ∃ pre x mid, tr = pre ++ x :: mid ∧ Q pre x ∧ ∀ y ∈ mid, foldedBy y = none

variable {Q : LocalHistory P M → Transition (LocalActor P M) (LocalOp P M) → Prop}
    {x : Transition (LocalActor P M) (LocalOp P M)}

theorem Last.last (h : Q tr x) : Last Q (tr ++ [x]) :=
  ⟨tr, x, [], rfl, h, by simp⟩

theorem Last.snoc (h : Last Q tr) (hx : foldedBy x = none) : Last Q (tr ++ [x]) := by
  obtain ⟨pre, y, mid, rfl, hy, hmid⟩ := h
  refine ⟨pre, y, mid ++ [x], by simp, hy, fun z hz => ?_⟩
  rcases List.mem_append.mp hz with hz | hz
  · exact hmid z hz
  · rwa [List.mem_singleton.mp hz]

/-- The message was read, and nothing was folded since. -/
def Taken (user : M → P.Event) (n : ℕ) (m : M) : LocalHistory P M → Prop :=
  Last fun _ x => Takes user n m x

/-- The first fold since then was that of its event, gave the action value `a`, and is still the
last. -/
def Folded (user : M → P.Event) (n : ℕ) (m : M) (a : P.Actions) : LocalHistory P M → Prop :=
  Last fun pre x =>
    Taken user n m pre ∧ x.source.config.point = .transition (user m) ∧ foldedBy x = some a

/-- The message was read, the next fold was that of its event, and the actions of this fold were
applied before anything else was folded. -/
def Processed (user : M → P.Event) (n : ℕ) (m : M) (tr : LocalHistory P M) : Prop :=
  ∃ a pre x post, tr = pre ++ x :: post ∧ Folded user n m a pre ∧ Applies a x

theorem Processed.append (h : Processed user n m tr) (tr' : LocalHistory P M) :
    Processed user n m (tr ++ tr') := by
  obtain ⟨a, pre, x, post, rfl, hrest⟩ := h
  exact ⟨a, pre, x, post ++ tr', by simp, hrest⟩

/-- All messages before the position `n` have been processed. -/
def AllProcessed (user : M → P.Event) (tr : LocalHistory P M) (s : LocalActor P M) (n : ℕ) : Prop :=
  ∀ j m, j < n → s.accepted[j]? = some (.message m) → Processed user j m tr

/-- How far the driver has got with the message at `n`. -/
inductive InHand (user : M → P.Event) (tr : LocalHistory P M) (c : Config P) (n : ℕ) (m : M) : Prop
  | acquired (htaken : Taken user n m tr)
      (hingress : c.driver.ingress = some (.cont (some (user m))))
      (hpoint : (∃ fs, c.point = .ingressAcquired fs) ∨ c.point = .consume)
  | folding (htaken : Taken user n m tr) (hpoint : c.point = .transition (user m))
  | applying {a : P.Actions} (hfolded : Folded user n m a tr) (hpoint : c.point = .apply)
      (hactions : c.driver.actions = some a)

variable {c : Config P}

theorem InHand.stays (h : InHand user tr c n m) (hx : foldedBy x = none) :
    InHand user (tr ++ [x]) c n m := by
  cases h with
  | acquired htaken hingress hpoint => exact .acquired (htaken.snoc hx) hingress hpoint
  | folding htaken hpoint => exact .folding (htaken.snoc hx) hpoint
  | applying hfolded hpoint hactions => exact .applying (hfolded.snoc hx) hpoint hactions

theorem InHand.not_next (h : InHand user tr c n m) :
    c.point ≠ .next ∧ c.point ≠ .nextSource ∧ retires c.point = false ∧ rests c.point = false := by
  cases h with
  | acquired _ _ hpoint =>
    rcases hpoint with ⟨fs, hpoint⟩ | hpoint <;> rw [hpoint] <;> simp [rests, retires]
  | folding _ hpoint | applying _ hpoint => rw [hpoint]; simp [rests, retires]

variable {c' : Config P} {i : Engine.Input P}

/-- What a move of the driver does to the message in hand: it gets further, or it is processed, or
the driver is ending. -/
theorem InHand.moves (h : InHand user tr c n m)
    (hshape : Shape c.driver c.point) (hm : Moves c i c') (hi : ∀ loan, i ≠ .dropped loan)
    (hsource : x.source.config = c) (hinput : x.input = .drive i) (htarget : x.target.config = c') :
    InHand user (tr ++ [x]) c' n m ∨ Processed user n m (tr ++ [x]) ∨ c'.driver.phase.terminal := by
  have ha := hshape.admits
  have hfoldedBy : foldedBy x = folded? ⟨c, i, c'⟩ := by
    rw [foldedBy, hinput, hsource, htarget]
  cases h with
  | acquired htaken hingress hpoint =>
    cases hm with
    | nextFailed hf =>
      refine .inr (.inr ?_)
      rcases hf with hf | hf
      · exact rejectAll_terminal (by simpa using hf)
      · rw [show _ = _ from hf] at ha
        cases ha
    | nextReady => exact .inl (.acquired (htaken.snoc hfoldedBy) hingress (.inr rfl))
    | fold hg =>
      cases hingress.symm.trans hg
      exact .inl (.folding (htaken.snoc hfoldedBy) rfl)
    | ended hg | requested hg | missing hg => cases hingress.symm.trans hg
    | retired hp | dropRetire hp => rcases hp with rfl | rfl <;> simp at hpoint
    | _ => simp at hpoint
  | folding htaken hpoint =>
    cases hm with
    | apply =>
      cases hpoint
      exact .inl (.applying (Last.last ⟨htaken, by rw [hsource], hfoldedBy⟩) rfl rfl)
    | unapplied | unfolded => exact .inr (.inr rfl)
    | retired hp | dropRetire hp => rcases hp with rfl | rfl <;> simp at hpoint
    | _ => simp at hpoint
  | @applying a hfolded hpoint hactions =>
    cases hm with
    | applied =>
      refine .inr (.inl ⟨a, tr, x, [], rfl, hfolded, ?_⟩)
      refine ⟨by rw [hsource], by rw [hsource]; exact hactions, ?_, ?_⟩
      · rw [htarget, Driver.rejectAll_eq]
      · rw [htarget, Driver.rejectAll_eq]
        rfl
    | malformedApply =>
      exact .inr (.inr (rejectAll_terminal (Driver.blame_ne_nil (not_retiring ha) _)))
    | dropApply => exact absurd rfl (hi _)
    | retired hp | dropRetire hp => rcases hp with rfl | rfl <;> simp at hpoint
    | _ => simp at hpoint

/-! ## What a step can do -/

/-- Nothing but the driver and the turns of the sources changes. -/
structure SameLane (s s' : LocalActor P M) : Prop where
  accepted : s'.accepted = s.accepted
  read : s'.read = s.read
  admission : s'.admission = s.admission
  consumer : s'.consumer = s.consumer
  retiredIngress : s'.retiredIngress = s.retiredIngress
  completions : s'.completions = s.completions

/-- An iteration of a loop leaves the driver waiting, or ends `next` or `next_source`. -/
def Waits (c : Config P) (c' : Config P) : Prop :=
  c' = c ∨ ∃ reply, Moves c (.acquired reply) c'

/-- What a step can do. -/
inductive Goes (user : M → P.Event) (s : LocalActor P M) : LocalOp P M → LocalActor P M → Prop
  | accepts {op : LocalOp P M} (item : LocalIngress M) (hop : ∀ i, op ≠ .drive i)
      (hopen : s.admission) : Goes user s op { s with accepted := s.accepted ++ [item] }
  | closes : Goes user s .closeAdmission { s with admission := false }
  | drives {i : Engine.Input P} {c : Config P} (halive : s.alive) (hpermits : s.permits i)
      (hm : Moves s.config i c) : Goes user s (.drive i) { s with config := c }
  /-- An iteration that does not read the lane. -/
  | waits {op : LocalOp P M} {s' : LocalActor P M} (halive : s.alive) (hop : ∀ i, op ≠ .drive i)
      (hpoint : s.config.point = .next ∨ s.config.point = .nextSource) (hlane : SameLane s s')
      (hwaits : Waits s.config s'.config) : Goes user s op s'
  | message {polls : Polls P} {disposal : Option P.Payload} {m : M} {c : Config P}
      {source : EventSource} (halive : s.alive) (hpoint : s.config.point = .next)
      (hitem : s.accepted[s.read]? = some (.message m)) (hwaits : Waits s.config c)
      (hc : c = ⟨{ s.config.driver with ingress := some (.cont (some (user m))) },
        .ingressAcquired disposal.toList⟩ ∨
        ∃ payload, c = ⟨{ s.config.driver with ingress := none },
          .ingressAcquired (payload :: disposal.toList)⟩) :
      Goes user s (.next polls disposal)
        { s with nextEventSource := source, read := s.read + 1, config := c }
  | fence {polls : Polls P} {disposal : Option P.Payload} {c : Config P} {source : EventSource}
      (halive : s.alive) (hpoint : s.config.point = .next)
      (hitem : s.accepted[s.read]? = some .fence) (hwaits : Waits s.config c) :
      Goes user s (.next polls disposal) { s with
        nextEventSource := source
        read := s.read + 1
        completions := s.completions ++ [(s.read, .ok ())]
        config := c }
  | drains (panics : ℕ → Bool) (halive : s.alive) (hpoint : retires s.config.point) :
      Goes user s (.drain panics) (s.drain panics)
  | drops (panics : ℕ → Bool) (halive : s.alive) (hpoint : rests s.config.point) :
      Goes user s (.drop panics) { s.drain panics with alive := false }

variable {op : LocalOp P M} {disposal : Option P.Payload}

theorem goes_of_resume {i} {s₁} (h : LocalActor.resume disposal (some (s₁, i)) = some s')
    (halive : s.alive) (hop : ∀ i, op ≠ .drive i)
    (hpoint : s.config.point = .next ∨ s.config.point = .nextSource)
    (hconfig : s₁.config = s.config) (hlane : SameLane s s₁) : Goes user s op s' := by
  cases i with
  | again =>
    cases h
    exact .waits halive hop hpoint hlane (.inl hconfig)
  | returns | unwinds =>
    obtain ⟨c, hc, rfl⟩ := map_eq_some_iff.mp h
    rw [hconfig] at hc
    exact .waits halive hop hpoint ⟨hlane.1, hlane.2, hlane.3, hlane.4, hlane.5, hlane.6⟩
      (.inr ⟨_, step_moves hc⟩)

variable {polls : Polls P}

theorem goes_of_receive (halive : s.alive) (hpoint : s.config.point = .next)
    (h : LocalActor.resume disposal
      ({ s with nextEventSource := EventSource.localEvent }.receive user polls.panics) = some s') :
    Goes user s (.next polls disposal) s' := by
  unfold LocalActor.receive at h
  dsimp only at h
  split at h
  · cases h
  · next m hitem =>
    cases hpanics : polls.panics with
    | none =>
      simp only [hpanics, LocalActor.resume, map_eq_some_iff] at h
      obtain ⟨c, hc, rfl⟩ := h
      have hwaits : Waits s.config c := .inr ⟨_, step_moves hc⟩
      simp only [step, hpoint, some.injEq] at hc
      exact .message halive hpoint hitem hwaits (.inl hc.symm)
    | some payload =>
      simp only [hpanics, LocalActor.resume, map_eq_some_iff] at h
      obtain ⟨c, hc, rfl⟩ := h
      have hwaits : Waits s.config c := .inr ⟨_, step_moves hc⟩
      simp only [step, hpoint, some.injEq] at hc
      exact .message halive hpoint hitem hwaits (.inr ⟨payload, hc.symm⟩)
  · next hitem =>
    cases hpanics : polls.panics with
    | none =>
      simp only [hpanics, LocalActor.resume, some.injEq] at h
      subst h
      exact .fence halive hpoint hitem (.inl rfl)
    | some =>
      simp only [hpanics, LocalActor.resume, map_eq_some_iff] at h
      obtain ⟨c, hc, rfl⟩ := h
      exact .fence halive hpoint hitem (.inr ⟨_, step_moves hc⟩)

theorem goes_of_next (halive : s.alive) (hpoint : s.config.point = .next)
    (h : LocalActor.resume disposal (s.next user polls) = some s') :
    Goes user s (.next polls disposal) s' := by
  have hop : ∀ i, (.next polls disposal : LocalOp P M) ≠ .drive i := by simp
  have hsame (source : EventSource) : SameLane s { s with nextEventSource := source } :=
    ⟨rfl, rfl, rfl, rfl, rfl, rfl⟩
  unfold LocalActor.next at h
  split at h
  -- only the mailbox changes the lane
  all_goals try exact goes_of_resume h halive hop (.inl hpoint) rfl (hsame _)
  · cases h
  · split at h
    all_goals exact goes_of_resume h halive hop (.inl hpoint) rfl (hsame _)
  · exact goes_of_receive halive hpoint h

theorem goes_of_nextSource {cancellation} {control} {event} (halive : s.alive)
    (hpoint : s.config.point = .nextSource)
    (h : LocalActor.resume disposal (s.nextSource cancellation control event) = some s') :
    Goes user s (.nextSource cancellation control event disposal) s' := by
  have hop : ∀ i, (.nextSource cancellation control event disposal : LocalOp P M) ≠ .drive i := by
    simp
  unfold LocalActor.nextSource at h
  split at h
  iterate 2
    · exact goes_of_resume h halive hop (.inr hpoint) rfl ⟨rfl, rfl, rfl, rfl, rfl, rfl⟩
  · generalize hfound : List.findSome? _ _ = found at h
    cases found with
    | none => cases h
    | some =>
      obtain ⟨source, -, hsource⟩ := List.exists_of_findSome?_eq_some hfound
      cases source with
      | control =>
        obtain ⟨event, -, rfl⟩ := map_eq_some_iff.mp hsource
        exact goes_of_resume h halive hop (.inr hpoint) rfl ⟨rfl, rfl, rfl, rfl, rfl, rfl⟩
      | localEvent =>
        obtain ⟨result, -, rfl⟩ := map_eq_some_iff.mp hsource
        exact goes_of_resume h halive hop (.inr hpoint) rfl ⟨rfl, rfl, rfl, rfl, rfl, rfl⟩

theorem goes_of_step (h : s.step user op = some s') : Goes user s op s' := by
  cases op with
  | send | fence =>
    simp only [LocalActor.step] at h
    split at h
    · next hopen =>
      cases h
      exact .accepts _ (by simp) (Bool.and_eq_true_iff.mp hopen).1
    · cases h
  | closeAdmission =>
    cases h
    exact .closes
  | drive =>
    simp only [LocalActor.step] at h
    split at h
    · next hok =>
      obtain ⟨halive, hpermits⟩ := Bool.and_eq_true_iff.mp hok
      obtain ⟨c, hc, rfl⟩ := map_eq_some_iff.mp h
      exact .drives halive hpermits (step_moves hc)
    · cases h
  | next =>
    simp only [LocalActor.step] at h
    split at h
    · next halive hpoint => exact goes_of_next halive hpoint h
    · cases h
  | nextSource =>
    simp only [LocalActor.step] at h
    split at h
    · next halive hpoint => exact goes_of_nextSource halive hpoint h
    · cases h
  | drain panics =>
    simp only [LocalActor.step] at h
    split at h
    · next hok =>
      cases h
      exact .drains panics (Bool.and_eq_true_iff.mp hok).1 (Bool.and_eq_true_iff.mp hok).2
    · cases h
  | drop panics =>
    simp only [LocalActor.step] at h
    split at h
    · next hok =>
      cases h
      obtain ⟨hok, -⟩ := Bool.and_eq_true_iff.mp hok
      exact .drops panics (Bool.and_eq_true_iff.mp hok).1 (Bool.and_eq_true_iff.mp hok).2
    · cases h

/-! ## What was read was processed -/

theorem AllProcessed.mono (h : AllProcessed user tr s n) (tr' : LocalHistory P M)
    (hsame : ∀ j < n, s'.accepted[j]? = s.accepted[j]?) : AllProcessed user (tr ++ tr') s' n :=
  fun j m hj hitem => (h j m hj (hsame j hj ▸ hitem)).append tr'

theorem AllProcessed.succ (h : AllProcessed user tr s n)
    (hitem : s.accepted[n]? = some (.message m))
    (hprocessed : Processed user n m tr) : AllProcessed user tr s (n + 1) := by
  intro j m' hj hj'
  rcases Nat.lt_succ_iff_lt_or_eq.mp hj with hj | rfl
  · exact h j m' hj hj'
  · cases hitem.symm.trans hj'
    exact hprocessed

theorem AllProcessed.succ_fence (h : AllProcessed user tr s n)
    (hitem : s.accepted[n]? = some .fence) :
    AllProcessed user tr s (n + 1) := by
  intro j m hj hj'
  rcases Nat.lt_succ_iff_lt_or_eq.mp hj with hj | rfl
  · exact h j m hj hj'
  · cases hitem.symm.trans hj'

/-- Where the driver stands with all that it has read. -/
inductive Attends (user : M → P.Event) (tr : LocalHistory P M) (s : LocalActor P M) : Prop
  | ending (hterminal : s.config.driver.phase.terminal)
  /-- `next` has panicked. -/
  | failing {fs : List P.Payload} (hpoint : s.config.point = .ingressAcquired fs) (hfs : fs ≠ [])
  /-- The activation is going to be refused. -/
  | refusing (hconsumer : s.consumer = false) (hpoint : s.config.point = .activate)
  | dropped (halive : s.alive = false)
  | between {n : ℕ} (hread : s.read = n) (hall : AllProcessed user tr s n)
  | inHand {n : ℕ} {m : M} (hread : s.read = n + 1) (hitem : s.accepted[n]? = some (.message m))
      (hhand : InHand user tr s.config n m) (hbefore : AllProcessed user tr s n)

theorem Attends.between_turns (h : Attends user tr s)
    (hshape : Shape s.config.driver s.config.point)
    (hpoint : s.config.point = .next ∨ s.config.point = .nextSource) (halive : s.alive) :
    AllProcessed user tr s s.read := by
  have ha := hshape.admits
  have hrun : s.config.driver.phase.running := by
    rcases hpoint with hpoint | hpoint <;> rwa [hpoint] at ha
  cases h with
  | ending hterm =>
    rw [ExecutionPhase.not_terminal_of_running hrun] at hterm
    cases hterm
  | failing hp | refusing _ hp =>
    rw [hp] at hpoint
    rcases hpoint with hpoint | hpoint <;> cases hpoint
  | dropped hdropped =>
    rw [hdropped] at halive
    cases halive
  | between hread hall => exact hread ▸ hall
  | inHand _ _ hhand =>
    rcases hpoint with hpoint | hpoint
    · exact absurd hpoint hhand.not_next.1
    · exact absurd hpoint hhand.not_next.2.1

theorem Attends.stays (h : Attends user tr s)
    (hx : foldedBy x = none) (hsame : ∀ j < s.read, s'.accepted[j]? = s.accepted[j]?)
    (hread : s'.read = s.read) (hconfig : s'.config = s.config) (hcons : s'.consumer = s.consumer)
    (halive : s'.alive = s.alive) : Attends user (tr ++ [x]) s' := by
  cases h with
  | ending => exact .ending (by rwa [hconfig])
  | failing _ hfs => exact .failing (by rwa [hconfig]) hfs
  | refusing => exact .refusing (by rwa [hcons]) (by rwa [hconfig])
  | dropped => exact .dropped (by rwa [halive])
  | between hn hall => exact .between (hread.trans hn) (hall.mono [x] fun j hj => hsame j (hn ▸ hj))
  | @inHand n m hn hitem hhand hbefore =>
    refine .inHand (hread.trans hn) ?_ (by rw [hconfig]; exact hhand.stays hx)
      (hbefore.mono [x] fun j hj => hsame j (by omega))
    rw [hsame n (by omega)]
    exact hitem

theorem ending_of_failing {fs}
    (hpoint : c.point = .ingressAcquired fs) (hfs : fs ≠ []) (hm : Moves c i c') :
    c'.driver.phase.terminal := by
  cases hm with
  | nextFailed =>
    cases hpoint
    exact rejectAll_terminal (by simpa using hfs)
  | nextReady =>
    cases hpoint
    exact absurd rfl hfs
  | retired hp | dropRetire hp => rcases hp with rfl | rfl <;> cases hpoint
  | _ => cases hpoint

theorem ending_of_refusing
    (hshape : Shape s.config.driver s.config.point) (hpoint : s.config.point = .activate)
    (hcons : s.consumer = false) (hpermits : s.permits i) (hm : Moves s.config i c) :
    c.driver.phase.terminal := by
  have ha := hshape.admits
  generalize s.config = c₀ at hpoint ha hm
  cases hm with
  | malformedActivation =>
    refine rejectAll_terminal (Driver.blame_ne_nil ?_ _)
    rw [show _ = ExecutionPhase.activating from ha]
    simp
  | activated => simp [LocalActor.permits, activates, hcons] at hpermits
  | unactivated => exact rejectAll_terminal (by simp)
  | dropActivate => cases hpermits
  | retired hp | dropRetire hp => rcases hp with rfl | rfl <;> cases hpoint
  | _ => cases hpoint

theorem Attends.moves (h : Attends user tr s) (hshape : Shape s.config.driver s.config.point)
    (halive : s.alive) (hpermits : s.permits i) (hm : Moves s.config i c) :
    Attends user (tr ++ [⟨s, .drive i, { s with config := c }⟩]) { s with config := c } := by
  cases h with
  | ending hterm => exact .ending (hshape.ending_step hterm hm).1
  | failing hpoint hfs => exact .ending (ending_of_failing hpoint hfs hm)
  | refusing hcons hpoint => exact .ending (ending_of_refusing hshape hpoint hcons hpermits hm)
  | dropped hdropped =>
    rw [hdropped] at halive
    cases halive
  | between hread hall => exact .between hread (hall.mono _ fun _ _ => rfl)
  | @inHand n m hread hitem hhand hbefore =>
    have hnot (loan : Loan P) : i ≠ .dropped loan := by
      rintro rfl
      cases hpermits
    have hbefore' : AllProcessed user (tr ++ [⟨s, .drive i, { s with config := c }⟩])
        { s with config := c } n := hbefore.mono _ fun _ _ => rfl
    rcases hhand.moves hshape hm hnot (x := ⟨s, .drive i, { s with config := c }⟩) rfl rfl rfl with
      hhand | hprocessed | hterm
    · exact .inHand hread hitem hhand hbefore'
    · exact .between hread (hbefore'.succ hitem hprocessed)
    · exact .ending hterm

theorem drain_config (panics : ℕ → Bool) : (s.drain panics).config = s.config := by
  unfold LocalActor.drain
  split <;> rfl

theorem drain_accepted (panics : ℕ → Bool) : (s.drain panics).accepted = s.accepted := by
  unfold LocalActor.drain
  split <;> rfl

theorem drain_consumer (panics : ℕ → Bool) : (s.drain panics).consumer = false := by
  unfold LocalActor.drain
  split
  · rfl
  · next hcons => simpa using hcons

theorem drain_read (panics : ℕ → Bool) (h : s.read ≤ s.accepted.length) :
    (s.drain panics).read ≤ s.accepted.length := by
  unfold LocalActor.drain
  split
  · exact le_rfl
  · exact h

/-- The environment is drained where it retires: there the driver ends, or does not begin. -/
theorem attends_drain (hshape : Shape s.config.driver s.config.point)
    (hpoint : retires s.config.point) (panics : ℕ → Bool) : Attends user tr (s.drain panics) := by
  have ha := hshape.admits
  cases hp : s.config.point with
  | activate => exact .refusing (drain_consumer panics) (by rw [drain_config, hp])
  | retirePrepared | retireActive =>
    rw [hp] at ha
    refine .ending ?_
    rw [drain_config, show s.config.driver.phase = .retirementAttempted from ha]
    rfl
  | _ => simp [retires, hp] at hpoint

/-- What is true of an actor after any history. -/
structure Attended (user : M → P.Event) (tr : LocalHistory P M) (s : LocalActor P M) : Prop where
  shape : Shape s.config.driver s.config.point
  bound : s.read ≤ s.accepted.length
  attends : Attends user tr s

theorem Waits.shape (h : Waits c c') (hshape : Shape c.driver c.point) :
    Shape c'.driver c'.point := by
  rcases h with rfl | ⟨reply, hm⟩
  · exact hshape
  · exact hshape.step hm

theorem foldedBy_of_not_drive (h : ∀ i, x.input ≠ .drive i) : foldedBy x = none := by
  unfold foldedBy
  split
  · next i hi => exact absurd hi (h i)
  · rfl

theorem lt_length_of_getElem? {α : Type} {l : List α} {n : ℕ} {a : α} (h : l[n]? = some a) :
    n < l.length := (List.getElem?_eq_some_iff.mp h).1

theorem Attended.step (h : Attended user tr s) (hgoes : Goes user s op s') :
    Attended user (tr ++ [⟨s, op, s'⟩]) s' := by
  obtain ⟨hshape, hbound, hattends⟩ := h
  cases hgoes with
  | accepts _ hop =>
    refine ⟨hshape, Nat.le_trans hbound (by simp),
      hattends.stays (foldedBy_of_not_drive hop) ?_ rfl rfl rfl rfl⟩
    intro j hj
    exact List.getElem?_append_left (by omega)
  | closes =>
    exact ⟨hshape, hbound, hattends.stays (foldedBy_of_not_drive (by simp)) (fun _ _ => rfl) rfl rfl
      rfl rfl⟩
  | drives halive hpermits hm =>
    exact ⟨hshape.step hm, hbound, hattends.moves hshape halive hpermits hm⟩
  | waits halive _ hpoint hlane hwaits =>
    have hall := hattends.between_turns hshape hpoint halive
    refine ⟨hwaits.shape hshape, by rw [hlane.read, hlane.accepted]; exact hbound,
      .between hlane.read ?_⟩
    exact hall.mono _ fun j _ => by rw [hlane.accepted]
  | message halive hpoint hitem hwaits hc =>
    have hall := hattends.between_turns hshape (.inl hpoint) halive
    refine ⟨hwaits.shape hshape, lt_length_of_getElem? hitem, ?_⟩
    rcases hc with rfl | ⟨payload, rfl⟩
    · refine .inHand rfl hitem ?_ (hall.mono _ fun _ _ => rfl)
      exact .acquired (Last.last ⟨hpoint, ⟨rfl, rfl⟩, rfl⟩) rfl (.inl ⟨_, rfl⟩)
    · exact .failing rfl (by simp)
  | fence halive hpoint hitem hwaits =>
    have hall := hattends.between_turns hshape (.inl hpoint) halive
    exact ⟨hwaits.shape hshape, lt_length_of_getElem? hitem,
      .between rfl ((hall.succ_fence hitem).mono _ fun _ _ => rfl)⟩
  | drains panics _ hpoint =>
    refine ⟨by rwa [drain_config], ?_, attends_drain hshape hpoint panics⟩
    rw [drain_accepted]
    exact drain_read panics hbound
  | drops panics =>
    refine ⟨?_, ?_, .dropped rfl⟩
    · exact show Shape (s.drain panics).config.driver _ by rwa [drain_config]
    · show (s.drain panics).read ≤ (s.drain panics).accepted.length
      rw [drain_accepted]
      exact drain_read panics hbound

theorem attended (h : LocalRun user b e tr s) : Attended user tr s := by
  refine h.history (P := Attended user) ⟨Shape.new b e, le_rfl, .between rfl fun j m hj => ?_⟩
    fun tr s op s' _ hs hstep => hs.step (goes_of_step hstep)
  exact absurd hj (Nat.not_lt_zero j)

end Local
