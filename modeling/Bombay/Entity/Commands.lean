import Bombay.Entity.Names

/-!
# Where the commands of an entity family are

A command that `admit` has taken in is in exactly one place until its caller has an answer: in the
hands of the caller, in a fact, among the waiters of a slot, in an effect that is queued or being
interpreted, in a delivery, or on its way back.  `Custody` says which of these it is, as far as it
matters: whether the command is still to be delivered, is being delivered, comes back, or went down
with its task.

A scale `f` gives a weight to a command in custody, and `Acts.commands` says what each section does
to the weight of all commands.  Everything about commands is read off it: a scale that counts one
publication shows that a command is nowhere twice; one that counts only what is still to be
delivered, that it is delivered once; one that counts what has a wrong owner, that no command
changes owners.
-/

set_option autoImplicit false

namespace Entity

open Machine Option EntitySlot

/-- What is being done with a command. -/
inductive Custody
  | queued
  | delivering
  /-- It goes back to its caller. -/
  | returned
  /-- Its delivery was cancelled or panicked. -/
  | died

/-! ## One slot -/

section Slot

variable {C E L : Type} (f : Custody → Option DispatchId → C → ℕ)

@[simp] def SlotEvent.load : SlotEvent C E L → ℕ
  | .claimActivation _ d c _ | .dispatch d c => f .queued (some d) c
  | .deliveryResolved _ (some (d, c)) => f .returned (some d) c
  | _ => 0

@[simp] def SlotEffect.load : SlotEffect C E L → ℕ
  | .deliver _ d _ c => f .queued (some d) c
  | .reject d c _ => f .returned (some d) c
  | _ => 0

def ActivationWaiter.load (waiter : ActivationWaiter C) : ℕ :=
  f .queued (some waiter.dispatchId) waiter.command

def EntitySlot.load : EntitySlot C E L → ℕ
  | .activating st => total (ActivationWaiter.load f) st.waiters
  | _ => 0

/-- What the commands of `waiters` weigh when they are returned. -/
def returning (waiters : List (ActivationWaiter C)) : ℕ :=
  total (fun waiter => f .returned (some waiter.dispatchId) waiter.command) waiters

/-- What a decision does to the commands of a slot. -/
inductive Handles (s : EntitySlot C E L) (e : SlotEvent C E L) (u : EntitySlot C E L)
    (effs : List (SlotEffect C E L)) : Prop
  /-- All of them stay queued, or `waiters` are to be returned. -/
  | keeps (waiters : List (ActivationWaiter C))
      (h : ∀ f : Custody → Option DispatchId → C → ℕ,
        u.load f + total (SlotEffect.load f) effs + total (ActivationWaiter.load f) waiters =
          s.load f + e.load f + returning f waiters)
  /-- The waiters of one dispatch are removed. -/
  | cancels (st : ActivatingSlot C) (d : DispatchId) (source : s = .activating st)
      (event : e = .cancelWaiter st.activationId d) (target : u = .activating (st.retain d))
      (effects : effs = [])

variable {f}

@[simp] theorem total_load_returned (failure : Option (DispatchId × C)) (a : ActivationId) :
    total (SlotEffect.load f) (returned failure : List (SlotEffect C E L)) =
      (SlotEvent.deliveryResolved a failure : SlotEvent C E L).load f := by
  cases failure with
  | none => rfl
  | some => simp [returned]

theorem total_load_rejected (waiters : List (ActivationWaiter C)) (reason : Refusal) :
    total (SlotEffect.load f) (waiters.map fun x =>
      (SlotEffect.reject x.dispatchId x.command reason : SlotEffect C E L)) =
        returning f waiters := by
  simp [total, returning, Function.comp_def]

theorem total_load_delivered (waiters : List (ActivationWaiter C)) (a : ActivationId)
    (endpoint : E) : total (SlotEffect.load f) (waiters.map fun x =>
      (SlotEffect.deliver a x.dispatchId endpoint x.command : SlotEffect C E L)) =
        total (ActivationWaiter.load f) waiters := by
  rw [total, List.map_map]
  rfl

/-- **One decision accounts for its commands.** -/
theorem Decides.handles {s u : EntitySlot C E L} {e : SlotEvent C E L}
    {effs : List (SlotEffect C E L)} (h : Decides s e u effs) : Handles s e u effs := by
  cases h with
  | cancel st d => exact .cancels st d rfl rfl rfl rfl
  | refuseClaim _ d c | refuse d c =>
    refine .keeps [⟨d, c⟩] fun f => ?_
    simp [ActivationWaiter.load, returning]
    omega
  | fail st =>
    refine .keeps st.waiters fun f => ?_
    rw [total_append, total_load_rejected]
    simp [load]
    omega
  | activate =>
    refine .keeps [] fun f => ?_
    rw [total_load_delivered]
    simp [load, returning]
  | wait =>
    refine .keeps [] fun f => ?_
    simp [load, returning, ActivatingSlot.push, ActivationWaiter.load]
  | late a failure =>
    refine .keeps [] fun f => ?_
    rw [total_load_returned failure a]
    rfl
  | resolve st failure | resolveDraining st failure =>
    refine .keeps [] fun f => ?_
    rw [total_load_returned failure st.activationId]
    rfl
  | release st failure =>
    refine .keeps [] fun f => ?_
    rw [total_append, total_load_returned failure st.activationId]
    simp [load, returning]
  | ignore hidle =>
    refine .keeps [] fun f => ?_
    cases e with
    | claimActivation | dispatch | deliveryResolved => exact hidle.elim
    | _ => rfl
  | _ =>
    refine .keeps [] fun f => ?_
    simp [load, returning, ActivationWaiter.load]

theorem closeFamily_load (s : EntitySlot C E L) :
    ∃ waiters : List (ActivationWaiter C), ∀ f : Custody → Option DispatchId → C → ℕ,
      s.closeFamily.1.load f + total (SlotEffect.load f) s.closeFamily.2.1 +
          total (ActivationWaiter.load f) waiters =
        s.load f + returning f waiters := by
  cases s with
  | activating st =>
    refine ⟨st.waiters, fun f => ?_⟩
    simp only [closeFamily]
    rw [total_append, total_load_rejected]
    simp [load]
    omega
  | _ => exact ⟨[], fun f => rfl⟩

end Slot

/-! ## The family -/

variable {R : LocalEntityRuntime}

/-- A weight for each command in custody. -/
abbrev Scale (R : LocalEntityRuntime) := Custody → Option DispatchId → PendingCommand R → ℕ

section Threads

variable (f : Scale R)

@[simp] def InstalledEffectSource.load : InstalledEffectSource R → ℕ
  | .mapped _ => 0
  | .transient effects => total (SlotEffect.load f) effects

@[simp] def Task.load (custody : Custody) : Task R → ℕ
  | .delivery _ _ _ d _ pending => f custody (some d) pending
  | _ => 0

def Ending.load : Ending R → ℕ
  | .returned => 0
  | .died task _ => task.load f .died

def Cont.load : Cont R → ℕ
  | .interpret _ source _ => source.load f
  | .closeSlots .. => 0

/-- What the commands in the hands of a thread weigh. -/
@[simp] def Pc.load : Pc R → ℕ
  | .dispatch _ pending => f .queued none pending
  | .route _ pending d => f .queued (some d) pending
  | .submitOrInactive _ event _ | .submit _ _ event _ => event.load f
  | .next _ source _ => source.load f
  | .interpretEffect _ source effect _ => source.load f + effect.load f
  | .begin work cont | .spawn work cont => work.load f .queued + cont.load f
  | .track _ cont => cont.load f
  | .task work => work.load f .delivering
  | .finish ending | .publishIdle _ ending | .exit ending | .ended ending => ending.load f
  | .panicked place => place.load
  | _ => 0

def SlotExecution.load (x : SlotExecution R) : ℕ :=
  x.state.load f + total (SlotEffect.load f) x.pending

/-- What the commands in the slots weigh. -/
def Shared.load (s : Shared R) : ℕ := total (fun x => x.execution.load f) s.directory.slots

@[simp] theorem After.load_pc (after : After R) : after.pc.load f = 0 := by
  cases after <;> rfl

@[simp] theorem Return.load_pc (ret : Return R) : ret.pc.load f = 0 := by
  rcases ret with _ | _ | _ | _ | ⟨_, _, _, _ | ⟨_, _, _, _ | _⟩, _⟩ | _ <;> rfl

@[simp] theorem Cont.load_pc (cont : Cont R) : cont.pc.load f = cont.load f := by
  cases cont <;> rfl

theorem load_submitOwned (id : R.Id) (slot : Option SlotRef) (event : R.Event)
    (ret : SlotRef → Return R) (h : event.load f = 0) :
    (submitOwned id slot event ret).load f = 0 := by
  cases slot with
  | none => rfl
  | some => exact h

variable {f}

variable {s : Shared R} {slot : SlotRef} {x : Allocation R}

theorem Shared.load_put (hx : s.directory.slots[slot]? = some x) (e : SlotExecution R) :
    (s.put slot x e).load f + x.execution.load f = s.load f + e.load f :=
  total_set (fun x => x.execution.load f) { x with execution := e } hx

theorem Shared.load_unchanged (hx : s.directory.slots[slot]? = some x) {e}
    (hs : e.state = x.execution.state) (hp : e.pending = x.execution.pending) :
    (s.put slot x e).load f = s.load f := by
  have hput := Shared.load_put (f := f) hx e
  rw [show e.load f = x.execution.load f by rw [SlotExecution.load, hs, hp]; rfl] at hput
  omega

theorem load_effectTask {id : R.Id} {slot} {effect : R.Effect} {task : Task R}
    (h : effectTask id slot effect = some task) : task.load f .queued = effect.load f := by
  cases effect with
  | startActivation | deliver | enqueueFence | retire =>
    obtain rfl := some.inj h
    rfl
  | _ => cases h

end Threads

def AdmissionFailure.command : AdmissionFailure R → R.Command
  | .refused command _ | .activationIdsExhausted command | .dispatchIdsExhausted command => command

/-- What a section does with commands.  `before` and `after` are what its thread, the threads it
starts, and the slots weigh. -/
inductive Conveys (s : Shared R) (p : Pc R) (i : Input R) (s' : Shared R) (p' : Pc R)
    (before after : Scale R → ℕ) : Prop
  /-- They stay where they are, or `waiters` are to be returned. -/
  | keeps (waiters) (h : ∀ f, after f + total (ActivationWaiter.load f) waiters =
        before f + returning f waiters)
      (replies : s'.replies = s.replies)
  /-- `admit` takes one in. -/
  | enters (origin id command) (place : p = .admitCommand origin id command)
      (place' : p' = .dispatch id ⟨origin, command, s.fresh⟩)
      (h : ∀ f, after f = before f + f .queued none ⟨origin, command, s.fresh⟩)
      (fresh : s'.fresh = s.fresh + 1) (replies : s'.replies = s.replies)
  /-- It gets its identity. -/
  | numbers (id pending d next) (new : allocate s.directory.nextDispatch = some (d, next))
      (place : p = .dispatch id pending) (place' : p' = .route id pending ⟨d⟩)
      (h : ∀ f, after f + f .queued none pending = before f + f .queued (some ⟨d⟩) pending)
      (replies : s'.replies = s.replies)
  /-- There is no identity for it, or none for its entity. -/
  | exhausts (pending failure)
      (place : (∃ id, p = .dispatch id pending) ∨ ∃ id d, p = .route id pending d)
      (place' : p' = .release (.stop (.admitted (.error failure))))
      (same : failure.command = pending.command) (h : ∀ f, after f + p.load f = before f)
      (replies : s'.replies = s.replies)
  /-- It is handed to `port.deliver`. -/
  | starts (id slot a d endpoint pending cont)
      (place : p = .spawn (.delivery id slot a d endpoint pending) cont)
      (h : ∀ f, after f + f .queued (some d) pending = before f + f .delivering (some d) pending)
      (replies : s'.replies = s.replies)
  | accepts (id slot a d endpoint pending)
      (place : p = .task (.delivery id slot a d endpoint pending)) (input : i = .delivered (.ok ()))
      (h : ∀ f, after f + f .delivering (some d) pending = before f)
      (replies : s'.replies = (pending.publisher, .ok ()) :: s.replies)
  | fails (id slot a d endpoint pending command)
      (place : p = .task (.delivery id slot a d endpoint pending))
      (input : i = .delivered (.error command))
      (h : ∀ f, after f + f .delivering (some d) pending =
        before f + f .returned (some d) { pending with command := command })
      (replies : s'.replies = s.replies)
  /-- It is returned to its caller. -/
  | answers (d pending reason) (h : ∀ f, after f + f .returned (some d) pending = before f)
      (replies : s'.replies = (pending.publisher, .error (.refused pending.command reason)) ::
        s.replies)
  | dies (d pending)
      (h : ∀ f, after f + f .delivering (some d) pending = before f + f .died (some d) pending)
      (replies : s'.replies = s.replies)
  /-- A dropped future takes its command from the waiters of a slot. -/
  | cancels (id slot d purpose x st)
      (place : p = .submit id slot (.cancelWaiter st.activationId d) purpose)
      (hx : s.directory.slots[slot]? = some x) (hst : x.execution.state = .activating st)
      (h : ∀ f, after f + total (ActivationWaiter.load f) (st.waiters.filter (·.dispatchId = d)) =
        before f)
      (replies : s'.replies = s.replies)

variable {f : Scale R}

theorem load_retain (st : ActivatingSlot (PendingCommand R)) (d : DispatchId) :
    total (ActivationWaiter.load f) (st.retain d).waiters +
        total (ActivationWaiter.load f) (st.waiters.filter (·.dispatchId = d)) =
      total (ActivationWaiter.load f) st.waiters := by
  show total _ (st.waiters.filter _) + _ = _
  induction st.waiters with
  | nil => rfl
  | cons waiter _ ih =>
    by_cases hd : waiter.dispatchId = d
    all_goals
      simp [hd] at ih ⊢
      omega

/-- What a section finds, and what it leaves. -/
def Shared.loads (s : Shared R) (p : Pc R) (q : Option (Pc R)) (f : Scale R) : ℕ :=
  s.load f + p.load f + total (Pc.load f) q.toList

variable {s s' : Shared R} {p p' : Pc R} {i : Input R}

theorem Conveys.same (h : ∀ f, s'.load f = s.load f) (hp : ∀ f, p'.load f = p.load f)
    (replies : s'.replies = s.replies) :
    Conveys s p i s' p' (s.loads p none) (s'.loads p' none) := by
  refine .keeps [] (fun f => ?_) replies
  rw [Shared.loads, Shared.loads, h, hp]
  rfl

theorem SlotEvent.Silent.load {C E L : Type} {f : Custody → Option DispatchId → C → ℕ}
    {e : SlotEvent C E L} (h : e.Silent) : e.load f = 0 := by
  cases e with
  | cancelWaiter | beginDrain => rfl
  | _ => exact h.elim

variable {slot : SlotRef} {x : Allocation R} {e : SlotExecution R}

theorem load_submitted (event : R.Event)
    (hx : s.directory.slots[slot]? = some x) (hs : e.state = (x.execution.state.decide event).state)
    (hp : e.pending = x.execution.pending ++ (x.execution.state.decide event).effects) :
    (∃ waiters, ∀ f, (s.put slot x e).load f + total (ActivationWaiter.load f) waiters =
      s.load f + event.load f + returning f waiters) ∨
    ∃ st d, x.execution.state = .activating st ∧ event = .cancelWaiter st.activationId d ∧
      ∀ f, (s.put slot x e).load f +
        total (ActivationWaiter.load f) (st.waiters.filter (·.dispatchId = d)) = s.load f := by
  have hput (f : Scale R) : (s.put slot x e).load f +
      (x.execution.state.load f + total (SlotEffect.load f) x.execution.pending) = s.load f +
        ((x.execution.state.decide event).state.load f + (total (SlotEffect.load f)
          x.execution.pending + total (SlotEffect.load f)
            (x.execution.state.decide event).effects)) := by
    rw [← total_append, ← hs, ← hp]
    exact Shared.load_put hx e
  cases (decide_decides x.execution.state event).handles with
  | keeps waiters h =>
    refine .inl ⟨waiters, fun f => ?_⟩
    have := hput f
    have := h f
    omega
  | cancels st d source event target effects =>
    refine .inr ⟨st, d, source, event, fun f => ?_⟩
    have hretain := load_retain (f := f) st d
    have := hput f
    rw [target, effects, source] at this
    simp only [load, total_nil] at this
    omega

theorem load_retirement {name} {r} (hx : s.directory.slots[slot]? = some x)
    (h : x.execution.beginRetirement name = (e, r)) :
    ∃ waiters, ∀ f, (s.put slot x e).load f + total (ActivationWaiter.load f) waiters =
      s.load f + returning f waiters := by
  rcases SlotExecution.beginRetirement_cases h with rfl | ⟨_, a, hs, hp⟩
  · exact ⟨[], fun f => by rw [Shared.put_self hx]; rfl⟩
  · rcases load_submitted _ hx hs hp with hkeeps | ⟨_, _, _, hevent, _⟩
    · exact hkeeps
    · cases hevent

theorem load_claim {d d' : LocalDirectory R} {id : R.Id} {dispatchId : DispatchId}
    {pending : PendingCommand R} {installed : InstalledSlotEvidence}
    (h : d.claim id dispatchId pending = some (d', slot, installed)) :
    total (fun x => x.execution.load f) d'.slots =
      total (fun x => x.execution.load f) d.slots + f .queued (some dispatchId) pending := by
  rw [LocalDirectory.claim] at h
  split at h
  · cases h
  · cases h
    rw [total_append]
    rfl

variable [DecidableEq R.Id] {self fresh : ℕ} {q : Option (Pc R)}

/-- **Every section accounts for its commands.** -/
theorem Acts.commands (h : Acts s self fresh p i s' p' q) (hn : p.Named s.directory) :
    Conveys s p i s' p' (s.loads p none) (s'.loads p' q) := by
  cases h with
  | admitEntered origin id command =>
    exact .enters origin id command rfl rfl (fun f => rfl) rfl rfl
  | dispatchExhausted id pending =>
    exact .exhausts pending _ (.inl ⟨id, rfl⟩) rfl rfl (fun f => rfl) rfl
  | dispatched id pending d next new =>
    refine .numbers id pending d next new rfl rfl (fun f => ?_) rfl
    simp only [Shared.loads, Pc.load, toList_none, total_nil, Shared.load]
    omega
  | routeExhausted id pending d =>
    exact .exhausts pending _ (.inr ⟨id, d, rfl⟩) rfl rfl (fun f => rfl) rfl
  | routeClaimed _ pending d directory _ _ _ claimed =>
    refine .keeps [] (fun f => ?_) rfl
    have hload : ({ s with directory := directory } : Shared R).load f =
        s.load f + f .queued (some d) pending := load_claim claimed
    simp [Shared.loads, hload, returning]
  | retirementBegun _ _ _ _ _ _ hx begun =>
    obtain ⟨waiters, hload⟩ := load_retirement hx begun
    exact .keeps waiters hload rfl
  | retirementRefused _ _ _ _ _ hx refused =>
    obtain ⟨waiters, hload⟩ := load_retirement hx refused
    exact .keeps waiters hload rfl
  | absent _ event =>
    refine .same (fun f => rfl) (fun f => ?_) rfl
    show total (SlotEffect.load f) _ = event.load f
    rw [hn.1.absent, hn.1.load]
    rfl
  | submitted id slot event purpose x hx =>
    rcases load_submitted event (e := (x.execution.submit event).1) hx rfl rfl with
      ⟨waiters, hload⟩ | ⟨st, d, hst, rfl, hload⟩
    · exact .keeps waiters hload rfl
    · exact .cancels id slot d purpose x st rfl hx hst hload rfl
  | acquired _ _ _ x hx =>
    obtain ⟨hs, hp⟩ := x.execution.acquire_fst
    exact .same (fun f => Shared.load_unchanged hx hs hp) (fun f => rfl) rfl
  | busy | transientDone =>
    exact .same (fun f => rfl) (fun f => by simp) rfl
  | popped _ _ _ x _ _ hx pending =>
    refine .keeps [] (fun f => ?_) rfl
    have hput := Shared.load_put (f := f) hx x.execution.next.1
    obtain ⟨hs, hp⟩ := x.execution.next_fst
    simp only [SlotExecution.load, hs, hp, pending, List.tail_cons, total_cons] at hput
    simp [Shared.loads, returning, -SlotEffect.load]
    omega
  | emptied _ _ _ x hx pending =>
    obtain ⟨hs, hp⟩ := x.execution.next_fst
    refine .same (fun f => Shared.load_unchanged hx hs (by rw [hp, pending]; rfl)) (fun f => ?_) rfl
    simp
  | transientNext =>
    refine .same (fun f => rfl) (fun f => ?_) rfl
    simp
    omega
  | scheduled _ _ _ _ _ _ htask =>
    refine .same (fun f => rfl) (fun f => ?_) rfl
    rw [Pc.load, Pc.load, load_effectTask htask, Cont.load]
    omega
  | rejected _ _ d pending reason =>
    refine .answers d pending reason (fun f => ?_) rfl
    simp only [Shared.loads, Pc.load, SlotEffect.load, Shared.load, Shared.reject,
      toList_none, total_nil]
    omega
  | removing | removeAbsent =>
    refine .same (fun f => rfl) (fun f => ?_) rfl
    simp
  | spawned task cont =>
    cases task with
    | delivery id slot a d endpoint pending =>
      refine .starts id slot a d endpoint pending cont rfl (fun f => ?_) rfl
      simp [Shared.loads]
      omega
    | _ =>
      refine .keeps [] (fun f => ?_) rfl
      simp [Shared.loads, returning]
  | tracked | released =>
    exact .same (fun f => rfl) (fun f => by simp) rfl
  | delivered id slot a d endpoint pending =>
    refine .accepts id slot a d endpoint pending rfl rfl (fun f => ?_) rfl
    rw [Shared.loads, load_submitOwned _ _ _ _ _ rfl]
    rfl
  | undelivered id _ a d endpoint pending command =>
    refine .fails id _ a d endpoint pending command rfl rfl (fun f => ?_) rfl
    simp [Shared.loads]
    omega
  | undeliverable =>
    obtain ⟨slot, hslot, _⟩ := hn
    cases hslot
  | fenced _ _ _ _ result =>
    refine .same (fun f => rfl) (fun f => ?_) rfl
    rw [load_submitOwned _ _ _ _ _ (by cases result <;> rfl)]
    rfl
  | retired | recorded =>
    exact .same (fun f => rfl) (fun f => load_submitOwned _ _ _ _ _ rfl) rfl
  | aborted task =>
    cases task with
    | delivery _ _ _ d _ pending =>
      refine .dies d pending (fun f => ?_) rfl
      simp only [Shared.loads, Pc.load, Task.load, Ending.load, toList_none, total_nil]
      omega
    | _ => exact .same (fun f => rfl) (fun f => rfl) rfl
  | retirementCompleted _ _ _ _ hx | unobserved _ _ _ hx =>
    exact .same (fun f => Shared.load_unchanged hx rfl rfl) (fun f => rfl) rfl
  | familyClosed _ _ _ _ x hx =>
    obtain ⟨waiters, hclose⟩ := closeFamily_load x.execution.state
    refine .keeps waiters (fun f => ?_) rfl
    have hput := Shared.load_put (f := f) hx x.execution.closeFamily.1
    have hload : x.execution.closeFamily.1.load f = x.execution.state.closeFamily.1.load f +
        (total (SlotEffect.load f) x.execution.pending +
          total (SlotEffect.load f) x.execution.state.closeFamily.2.1) := by
      rw [← total_append]
      rfl
    have := hclose f
    rw [hload] at hput
    simp only [Shared.loads, Pc.load, SlotExecution.load, toList_none, total_nil] at hput ⊢
    omega
  | _ => exact .same (fun f => rfl) (fun f => rfl) rfl

/-! ## All commands -/

/-- What all commands in custody weigh. -/
def custody (f : Scale R) (w : Pool (Shared R) (Pc R)) : ℕ :=
  w.shared.load f + total (Pc.load f) w.threads

variable {w : Pool (Shared R) (Pc R)}

omit [DecidableEq R.Id] in
theorem custody_move {t : ℕ} (f : Scale R) (s' : Shared R) (p' : Pc R)
    (q : Option (Pc R)) (hp : w.threads[t]? = some p) :
    custody f ⟨s', w.threads.set t p' ++ q.toList⟩ + w.shared.loads p none f =
      custody f w + s'.loads p' q f := by
  have hmove := total_move (Pc.load f) p' q hp
  simp only [custody, Shared.loads, toList_none, total_nil]
  omega

omit [DecidableEq R.Id] in
theorem Pc.isCall_load (h : p.isCall) : p.load f = 0 := by
  cases p with
  | admitCommand | passivate | retireEntity | shutdown => rfl
  | _ => cases h

omit [DecidableEq R.Id] in
theorem custody_call (hp : p.isCall) : custody f ⟨w.shared, w.threads ++ [p]⟩ = custody f w := by
  simp [custody, Pc.isCall_load hp]

end Entity
