import Bombay.Machine.Pool
import Bombay.Entity.Directory

/-!
# Interpreting the effects of one slot

The effects of a slot are queued under its mutex and interpreted outside of it, by whichever caller
of `dispatch_pending` finds the dispatch phase idle.  Everybody else returns at once and trusts
that caller to see what they have queued: the classic place to lose work is between a dispatcher
that is about to find the queue empty and a caller that still finds it dispatching.

This module runs one slot under any number of callers.  A caller is a stack of frames, so that an
interpreter callback can submit to the slot and dispatch it again; a callback can also panic, and
then `SlotDispatch::drop` gives the phase back while the stack unwinds.  Three invariants carry the
result:

* what was submitted is what was interpreted followed by what is queued (`dispatched_run`);
* the frames between `acquire` and the end of its loop are as many as the phase says, none or one
  (`loops_run`);
* a queue that is not empty has somebody who will look at it (`attended_run`).
-/

set_option autoImplicit false

namespace Entity

open Machine List Option SlotExecution

variable {R : LocalEntityRuntime}

/-! ## Callers -/

/-- A frame of a caller, inside a call of the slot. -/
inductive Frame (R : LocalEntityRuntime)
  /-- `Slot::submit`. -/
  | submit (event : R.Event)
  /-- `Slot::dispatch_pending`, before `SlotDispatch::acquire`. -/
  | acquire
  /-- Before `SlotDispatch::next`. -/
  | next
  /-- In the callback `interpret`. -/
  | callback (effect : R.Effect)
  /-- The callback has panicked; before `SlotDispatch::drop`. -/
  | unwind

/-- A caller is the stack of its frames, the innermost first.  It is empty between calls. -/
abbrev Caller (R : LocalEntityRuntime) := List (Frame R)

/-- What a caller does next. -/
inductive SlotInput (R : LocalEntityRuntime)
  /-- The innermost call runs on. -/
  | advance
  /-- The caller, or a callback, calls `submit`. -/
  | submit (event : R.Event)
  /-- The caller, or a callback, calls `dispatch_pending`. -/
  | dispatchPending
  | returns
  | panics
  /-- The guard of a panicked callback is dropped; `caught` says whether the code that called
  `dispatch_pending` stops the panic. -/
  | dropped (caught : Bool)

/-- `SlotDispatch::drop` with a loop that has not ended. -/
def SlotExecution.abandon (x : SlotExecution R) : SlotExecution R := { x with dispatch := .idle }

/-- A panic goes on into the callback that made the call, if there is one. -/
def unwound : Caller R → Caller R
  | .callback _ :: rest => .unwind :: rest
  | rest => rest

def mayCall : Caller R → Bool
  | [] | .callback _ :: _ => true
  | _ => false

/-- The code of the callers. -/
def SlotExecution.run : Code (SlotExecution R) (Caller R) (SlotInput R) := fun x _ _ stack i =>
  match i, stack with
  | .submit event, stack => if mayCall stack then some (x, .submit event :: stack, none) else none
  | .dispatchPending, stack => if mayCall stack then some (x, .acquire :: stack, none) else none
  | .returns, .callback _ :: rest => some (x, .next :: rest, none)
  | .panics, .callback _ :: rest => some (x, .unwind :: rest, none)
  | .advance, .submit event :: rest => some ((x.submit event).1, rest, none)
  | .advance, .acquire :: rest =>
    let (x', acquired) := x.acquire
    some (x', if acquired then .next :: rest else rest, none)
  | .advance, .next :: rest =>
    match x.next with
    | (x', some effect) => some (x', .callback effect :: rest, none)
    | (x', none) => some (x', rest, none)
  | .dropped caught, .unwind :: rest =>
    some (x.abandon, if caught then rest else unwound rest, none)
  | _, _ => none

def SlotExecution.step : Pool (SlotExecution R) (Caller R) → Schedule (Caller R) (SlotInput R) →
    Option (Pool (SlotExecution R) (Caller R)) :=
  Pool.step List.isEmpty run

/-- A slot that nobody has called. -/
def SlotExecution.untouched : Pool (SlotExecution R) (Caller R) := ⟨.new, []⟩

abbrev SlotTransition (R : LocalEntityRuntime) :=
  Transition (Pool (SlotExecution R) (Caller R)) (Schedule (Caller R) (SlotInput R))

/-- A slot and its callers come to `w` by the history `tr`. -/
abbrev SlotRun (tr : List (SlotTransition R)) (w : Pool (SlotExecution R) (Caller R)) : Prop :=
  Run SlotExecution.step untouched tr w

/-! ## What a section does -/

/-- The sections of the callers, by name. -/
inductive Drives (x : SlotExecution R) : Caller R → SlotInput R → SlotExecution R → Caller R → Prop
  | callSubmit (stack event) (free : mayCall stack) :
      Drives x stack (.submit event) x (.submit event :: stack)
  | callDispatch (stack) (free : mayCall stack) :
      Drives x stack .dispatchPending x (.acquire :: stack)
  | returned (effect rest) : Drives x (.callback effect :: rest) .returns x (.next :: rest)
  | panicked (effect rest) : Drives x (.callback effect :: rest) .panics x (.unwind :: rest)
  | submitted (event rest) : Drives x (.submit event :: rest) .advance (x.submit event).1 rest
  | acquired (rest) (idle : x.dispatch = .idle) :
      Drives x (.acquire :: rest) .advance { x with dispatch := .dispatching } (.next :: rest)
  | busy (rest) (dispatching : x.dispatch = .dispatching) :
      Drives x (.acquire :: rest) .advance x rest
  | took (rest effect effects) (pending : x.pending = effect :: effects) :
      Drives x (.next :: rest) .advance { x with pending := effects } (.callback effect :: rest)
  | emptied (rest) (pending : x.pending = []) :
      Drives x (.next :: rest) .advance { x with pending := [], dispatch := .idle } rest
  | dropped (rest caught) :
      Drives x (.unwind :: rest) (.dropped caught) x.abandon (if caught then rest else unwound rest)

variable {x x' : SlotExecution R} {stack stack' : Caller R} {i : SlotInput R}

theorem run_drives {self fresh : ℕ} {q} (h : run x self fresh stack i = some (x', stack', q)) :
    Drives x stack i x' stack' ∧ q = none := by
  rw [run.eq_def] at h
  split at h
  · split at h
    · next free => cases h; exact ⟨.callSubmit _ _ free, rfl⟩
    · cases h
  · split at h
    · next free => cases h; exact ⟨.callDispatch _ free, rfl⟩
    · cases h
  · cases h; exact ⟨.returned _ _, rfl⟩
  · cases h; exact ⟨.panicked _ _, rfl⟩
  · cases h; exact ⟨.submitted _ _, rfl⟩
  · cases hd : x.dispatch with
    | idle =>
      simp only [acquire, hd, if_true] at h
      cases h
      exact ⟨.acquired _ hd, rfl⟩
    | dispatching =>
      simp only [acquire, hd] at h
      cases h
      exact ⟨.busy _ hd, rfl⟩
  · cases hp : x.pending with
    | nil =>
      simp only [SlotExecution.next, hp] at h
      cases h
      exact ⟨.emptied _ hp, rfl⟩
    | cons effect effects =>
      simp only [SlotExecution.next, hp] at h
      cases h
      exact ⟨.took _ effect effects hp, rfl⟩
  · cases h; exact ⟨.dropped _ _, rfl⟩
  · cases h

variable {w w' : Pool (SlotExecution R) (Caller R)}

/-- What a step of a slot and its callers can be: a new caller, or a section of one of them. -/
theorem SlotExecution.step_cases {a} (h : SlotExecution.step w a = some w') :
    (a = .call [] ∧ w' = ⟨w.shared, w.threads ++ [[]]⟩) ∨
    ∃ t i stack x stack', a = .run t i ∧ w.threads[t]? = some stack ∧
      Drives w.shared stack i x stack' ∧ w' = ⟨x, w.threads.set t stack'⟩ := by
  rcases Pool.step_cases h with ⟨p, rfl, hentry, rfl⟩ | ⟨t, i, p, x, p', q, rfl, hp, hcode, rfl⟩
  · obtain rfl := List.isEmpty_iff.mp hentry
    exact .inl ⟨rfl, rfl⟩
  · obtain ⟨hdrives, rfl⟩ := run_drives hcode
    exact .inr ⟨t, i, p, x, p', rfl, hp, hdrives, by simp⟩

/-! ## Order -/

def SlotTransition.submitted (x : SlotTransition R) : List R.Effect :=
  match x.input with
  | .run t .advance =>
    match x.source.threads[t]? with
    | some (.submit event :: _) => (x.source.shared.state.decide event).effects
    | _ => []
  | _ => []

/-- The effect of the callback that a caller enters where its stack goes from one to the other. -/
def entered : Caller R → Caller R → List R.Effect
  | .next :: rest, .callback effect :: rest' => if rest'.length = rest.length then [effect] else []
  | _, _ => []

theorem entered_rest (rest : Caller R) : entered (.next :: rest) rest = [] := by
  cases rest with
  | nil => rfl
  | cons f => cases f <;> simp [entered]

/-- The effects whose callbacks the transition enters. -/
def SlotTransition.interpreted (x : SlotTransition R) : List R.Effect :=
  match x.input with
  | .run t _ => entered (x.source.threads[t]?.getD []) (x.target.threads[t]?.getD [])
  | .call _ => []

variable {t : ℕ}

theorem interpreted_eq (hp : w.threads[t]? = some stack) :
    SlotTransition.interpreted ⟨w, .run t i, ⟨x, w.threads.set t stack'⟩⟩
      = entered stack stack' := by
  have hlt := lt_of_get hp
  simp only [SlotTransition.interpreted, hp, getElem?_set_self hlt, getD_some]

/-- One section takes what it interprets off the front of the queue and adds what it submits at the
end. -/
theorem Drives.queue (h : Drives w.shared stack i x stack') (hp : w.threads[t]? = some stack) :
    w.shared.pending ++ SlotTransition.submitted ⟨w, .run t i, w'⟩
      = entered stack stack' ++ x.pending := by
  cases h with
  | took _ _ _ pending => simp [SlotTransition.submitted, entered, hp, pending]
  | emptied _ pending => simp [SlotTransition.submitted, entered_rest, hp, pending]
  | submitted => simp [SlotTransition.submitted, entered, hp, submit]
  | _ => simp [SlotTransition.submitted, entered, hp, abandon]

variable {tr : List (SlotTransition R)}

/-- **What was submitted is what was interpreted and what is still queued**, in that order. -/
theorem dispatched_run (h : SlotRun tr w) : tr.flatMap SlotTransition.submitted
      = tr.flatMap SlotTransition.interpreted ++ w.shared.pending := by
  refine h.history rfl fun tr w a w' _ ih hstep => ?_
  simp only [flatMap_append, flatMap_cons, flatMap_nil, append_nil]
  rcases step_cases hstep with ⟨rfl, rfl⟩ | ⟨t, i, stack, x, stack', rfl, hp, hd, rfl⟩
  · simpa [SlotTransition.submitted, SlotTransition.interpreted] using ih
  · rw [ih, append_assoc, append_assoc, hd.queue hp, interpreted_eq hp]

/-! ## The phase -/

/-- A frame of the loop of a dispatcher. -/
def Frame.holds : Frame R → Bool
  | .next | .callback _ | .unwind => true
  | .submit _ | .acquire => false

def Frame.isCallback : Frame R → Bool
  | .callback _ => true
  | _ => false

variable {f : Frame R}

theorem Frame.holds_of_isCallback (h : f.isCallback) : f.holds := by
  cases f <;> first | rfl | cases h

/-- How many loops a caller is in. -/
def loops (stack : Caller R) : ℕ := stack.countP Frame.holds

@[simp] theorem loops_nil : loops ([] : Caller R) = 0 := rfl

@[simp] theorem loops_cons (f : Frame R) (rest : Caller R) :
    loops (f :: rest) = loops rest + if f.holds then 1 else 0 :=
  countP_cons

theorem loops_unwound (rest : Caller R) : loops (unwound rest) = loops rest := by
  unfold unwound
  split
  · simp [Frame.holds]
  · rfl

/-- One loop, if the phase says so. -/
@[simp] def SlotDispatchPhase.loops : SlotDispatchPhase → ℕ
  | .idle => 0
  | .dispatching => 1

theorem SlotDispatchPhase.loops_le (phase : SlotDispatchPhase) : phase.loops ≤ 1 := by
  cases phase <;> simp

variable {rest : Caller R}

theorem Frame.dispatching_of_loops {phase : SlotDispatchPhase}
    (hf : f.holds) (hle : Entity.loops (f :: rest) ≤ phase.loops) : phase = .dispatching := by
  cases phase with
  | idle => simp [hf] at hle
  | dispatching => rfl

/-- A section that enters or leaves the loop changes the phase, and no other does. -/
theorem Drives.loops (h : Drives x stack i x' stack') (hle : loops stack ≤ x.dispatch.loops) :
    loops stack' + x.dispatch.loops = loops stack + x'.dispatch.loops := by
  cases h with
  | acquired _ idle =>
    simp [idle, Frame.holds]
  | emptied =>
    have hd := Frame.dispatching_of_loops (f := .next) rfl hle
    simp [hd, Frame.holds]
  | dropped rest caught =>
    have hrest : Entity.loops (if caught then rest else unwound rest) = Entity.loops rest := by
      split
      · rfl
      · exact loops_unwound rest
    rw [hrest]
    have hd := Frame.dispatching_of_loops (f := .unwind) rfl hle
    simp [hd, Frame.holds, abandon]
  | _ => simp [Frame.holds, submit]

theorem loops_run (h : SlotRun tr w) : total loops w.threads = w.shared.dispatch.loops := by
  refine h.invariant rfl fun w a w' ih hstep => ?_
  rcases step_cases hstep with ⟨rfl, rfl⟩ | ⟨t, i, stack, x, stack', rfl, hp, hd, rfl⟩
  · simpa [loops] using ih
  · have hmove := total_set loops stack' hp
    have hle := le_total loops hp
    have hloops := hd.loops (ih ▸ hle)
    show total loops (w.threads.set t stack') = x.dispatch.loops
    omega

/-! ## Callbacks -/

/-- Calls are nested in callbacks. -/
def Nested (stack : Caller R) : Prop := ∀ f ∈ stack.tail, f.isCallback

theorem Drives.nested (h : Drives x stack i x' stack') (hn : Nested stack) : Nested stack' := by
  have htail {rest : Caller R} (hrest : ∀ f ∈ rest, f.isCallback) : Nested rest :=
    fun f hf => hrest f (mem_of_mem_tail hf)
  cases h with
  | callSubmit stack _ free | callDispatch stack free =>
    cases stack with
    | nil => simp [Nested]
    | cons f =>
      cases f with
      | callback =>
        intro g hg
        rcases mem_cons.mp hg with rfl | hg
        · rfl
        · exact hn g hg
      | _ => cases free
  | submitted | busy | emptied => exact htail hn
  | dropped _ caught =>
    cases caught with
    | true => exact htail hn
    | false =>
      unfold unwound
      simp only [Bool.false_eq_true, if_false]
      split
      · exact fun f hf => hn f (mem_cons_of_mem _ hf)
      · exact htail hn
  | _ => exact hn

theorem loops_of_mem (hf : f ∈ stack) (hh : f.holds) : 0 < loops stack :=
  countP_pos_iff.mpr ⟨f, hf, hh⟩

theorem alone_of_next {u : ℕ} (hw : total loops w.threads = w.shared.dispatch.loops)
    (ht : w.threads[t]? = some (.next :: rest)) (hu : w.threads[u]? = some stack)
    (hf : f ∈ stack) (hh : f.holds) : u = t ∧ f ∉ rest := by
  have hone := w.shared.dispatch.loops_le
  have hpos := loops_of_mem hf hh
  have ht' : loops (.next :: rest : Caller R) = loops rest + 1 := by simp [Frame.holds]
  have hle := le_total loops ht
  refine ⟨by_contra fun hne => ?_, fun hmem => ?_⟩
  · -- with `t` out of its loop, `u` still counts
    have hset := total_set loops [] ht
    have hu' : (w.threads.set t [])[u]? = some stack := by
      rw [getElem?_set_ne (Ne.symm hne)]
      exact hu
    have hle' := le_total loops hu'
    simp only [loops_nil] at hset
    omega
  · have := loops_of_mem hmem hh
    omega

variable {effect : R.Effect}

/-- The effects of the callbacks a caller is in are old, but for the one it takes. -/
theorem Drives.callbacks (h : Drives x stack i x' stack') (hmem : .callback effect ∈ stack') :
    .callback effect ∈ stack ∨ entered stack stack' = [effect] := by
  cases h with
  | took =>
    rcases mem_cons.mp hmem with heq | hmem
    · cases heq
      exact .inr (by simp [entered])
    · exact .inl (mem_cons_of_mem _ hmem)
  | dropped _ caught =>
    refine .inl (mem_cons_of_mem _ ?_)
    cases caught with
    | true => exact hmem
    | false =>
      unfold unwound at hmem
      simp only [Bool.false_eq_true, if_false] at hmem
      split at hmem
      · exact mem_cons_of_mem _ (by simpa using hmem)
      · exact hmem
  | submitted | busy | emptied => exact .inl (mem_cons_of_mem _ hmem)
  | returned | panicked => exact .inl (mem_cons_of_mem _ (by simpa using hmem))
  | callSubmit | callDispatch | acquired => exact .inl (by simpa using hmem)

theorem callback_run (h : SlotRun tr w) : Each (fun _ stack => ∀ effect, .callback effect ∈ stack →
      (tr.flatMap SlotTransition.interpreted).getLast? = some effect) w.threads := by
  refine h.history (each_nil _) fun tr w a w' hrun ih hstep => ?_
  have hloops := loops_run hrun
  simp only [flatMap_append, flatMap_cons, flatMap_nil, append_nil]
  rcases step_cases hstep with ⟨rfl, rfl⟩ | ⟨t, i, stack, x, stack', rfl, hp, hd, rfl⟩
  · refine each_append (q := some []) (fun u stack hu effect hmem => ?_) fun stack hs
      effect hmem => ?_
    · simpa [SlotTransition.interpreted] using ih u stack hu effect hmem
    · obtain rfl := some.inj hs
      cases hmem
  · rw [interpreted_eq hp]
    -- while a callback is in progress nothing else is taken off the queue
    have hold : ∀ (u : ℕ) r, w.threads[u]? = some r → ∀ effect, Frame.callback effect ∈ r →
        (tr.flatMap SlotTransition.interpreted ++ entered stack stack').getLast? = some effect := by
      intro u r hu effect hmem
      have hnil : entered stack stack' = [] := by
        cases hd with
        | took | emptied =>
          obtain ⟨rfl, hnot⟩ := alone_of_next hloops hp hu hmem rfl
          obtain rfl := some.inj (hp.symm.trans hu)
          exact absurd (by simpa using hmem) hnot
        | _ => simp [entered]
      rw [hnil, append_nil]
      exact ih u r hu effect hmem
    intro u r hr effect hmem
    by_cases hut : u = t
    · subst hut
      have hlt := lt_of_get hp
      rw [getElem?_set_self hlt] at hr
      obtain rfl := some.inj hr
      rcases hd.callbacks hmem with hmem | hentered
      · exact hold u stack hp effect hmem
      · rw [hentered, getLast?_append]
        rfl
    · rw [getElem?_set_ne (Ne.symm hut)] at hr
      exact hold u r hr effect hmem

/-! ## Somebody will look -/

/-- The transition is a call of `submit` by the caller `t`, not from inside a callback. -/
def CallsSubmit (t : ℕ) (x : SlotTransition R) : Prop :=
  x.source.threads[t]? = some [] ∧ ∃ event, x.input = .run t (.submit event)

/-- The transition is a call of `dispatch_pending` by the caller `t`. -/
def CallsDispatch (t : ℕ) (x : SlotTransition R) : Prop :=
  x.input = .run t .dispatchPending

/-- The caller has submitted and not dispatched since. -/
def Owes (tr : List (SlotTransition R)) (t : ℕ) : Prop :=
  ∃ pre x post, tr = pre ++ x :: post ∧ CallsSubmit t x ∧ ∀ y ∈ post, ¬CallsDispatch t y

theorem Owes.snoc {x} (h : Owes tr t) (hx : ¬CallsDispatch t x) : Owes (tr ++ [x]) t := by
  obtain ⟨pre, y, post, rfl, hy, hpost⟩ := h
  refine ⟨pre, y, post ++ [x], by simp, hy, fun z hz => ?_⟩
  rcases mem_append.mp hz with hz | hz
  · exact hpost z hz
  · rwa [mem_singleton.mp hz]

/-- Every submission is followed by a dispatch of its caller. -/
def Followed (tr : List (SlotTransition R)) : Prop := ∀ t, ¬Owes tr t

/-- No callback panicked. -/
def Calm (x : SlotTransition R) : Prop := ∀ t, x.input ≠ .run t .panics

/-- Where a caller may stand while nobody panics. -/
def Stands (tr : List (SlotTransition R)) (t : ℕ) (stack : Caller R) : Prop :=
  Nested stack ∧ .unwind ∉ stack ∧ ∀ event, stack = [.submit event] → Owes tr t

/-- Somebody will look at the queue: a dispatcher, a caller on its way into the loop, or one that
has yet to dispatch. -/
structure Attended (tr : List (SlotTransition R)) (w : Pool (SlotExecution R) (Caller R)) :
    Prop where
  queue : w.shared.pending ≠ [] → w.shared.dispatch = .dispatching ∨
    (∃ stack ∈ w.threads, .acquire ∈ stack) ∨ ∃ t, Owes tr t
  callers : Each (Stands tr) w.threads

theorem dispatching_of_nested {g : Frame R} (hw : total loops w.threads = w.shared.dispatch.loops)
    (ht : w.threads[t]? = some (f :: g :: rest)) (hn : Nested (f :: g :: rest)) :
    w.shared.dispatch = .dispatching := by
  have hg : g.holds := Frame.holds_of_isCallback (hn g (mem_cons_self ..))
  have hle := le_total loops ht
  refine Frame.dispatching_of_loops hg (?_ : loops (g :: rest) ≤ _)
  rw [loops_cons] at hle
  omega

theorem Attended.callers_step (h : Attended tr w) (hp : w.threads[t]? = some stack)
    (hd : Drives w.shared stack i x stack') (hcalm : i ≠ .panics) :
    Each (Stands (tr ++ [⟨w, .run t i, ⟨x, w.threads.set t stack'⟩⟩]))
    (w.threads.set t stack') := by
  suffices hmove : Each (Stands (tr ++ [⟨w, .run t i, ⟨x, w.threads.set t stack'⟩⟩]))
      (w.threads.set t stack' ++ (none : Option (Caller R)).toList) by
    simpa using hmove
  refine each_move h.callers hp ?_ ?_ ?_
  · rintro ⟨hn, hu, hs⟩
    refine ⟨hd.nested hn, fun hmem => ?_, fun event heq => ?_⟩
    · cases hd with
      | panicked => exact hcalm rfl
      | dropped => exact hu (mem_cons_self ..)
      | _ => simp_all
    · -- a frame that has become the outermost one was a callback
      have htail {f : Frame R} {rest : Caller R} (hn : Nested (f :: rest))
          (hrest : rest = [.submit event]) : False := by
        subst hrest
        cases hn (.submit event) (mem_singleton_self _)
      cases hd with
      | callSubmit =>
        cases heq
        exact ⟨tr, _, [], rfl, ⟨hp, event, rfl⟩, by simp⟩
      | submitted | busy | emptied => exact (htail hn heq).elim
      | dropped => exact absurd (mem_cons_self ..) hu
      | _ => cases heq
  · rintro u r hut ⟨hn, hu, hs⟩
    refine ⟨hn, hu, fun event heq => (hs event heq).snoc fun hc => ?_⟩
    cases hc
    exact hut rfl
  · intro r hr
    cases hr

theorem Attended.queue_step (h : Attended tr w)
    (hw : total loops w.threads = w.shared.dispatch.loops) (hp : w.threads[t]? = some stack)
    (hd : Drives w.shared stack i x stack') (hcalm : i ≠ .panics) (hpend : x.pending ≠ []) :
    x.dispatch = .dispatching ∨ (∃ stack ∈ w.threads.set t stack', .acquire ∈ stack) ∨
      ∃ u, Owes (tr ++ [⟨w, .run t i, ⟨x, w.threads.set t stack'⟩⟩]) u := by
  obtain ⟨hn, hu, hs⟩ := h.callers t stack hp
  have hlt := lt_of_get hp
  have hself : stack' ∈ w.threads.set t stack' := mem_set hlt stack'
  -- what loops before still does, unless the caller gives up its own `acquire` or dispatches
  have hkeep (hacquire : .acquire ∈ stack → .acquire ∈ stack') (hi : i ≠ .dispatchPending)
      (hdispatch : x.dispatch = w.shared.dispatch) (hne : w.shared.pending ≠ []) :
      x.dispatch = .dispatching ∨ (∃ stack ∈ w.threads.set t stack', .acquire ∈ stack) ∨
        ∃ u, Owes (tr ++ [⟨w, .run t i, ⟨x, w.threads.set t stack'⟩⟩]) u := by
    rcases h.queue hne with hphase | ⟨r, hr, hmem⟩ | ⟨u, howes⟩
    · exact .inl (hdispatch.trans hphase)
    · obtain ⟨u, hu⟩ := getElem?_of_mem hr
      by_cases hut : u = t
      · subst hut
        obtain rfl := some.inj (hp.symm.trans hu)
        exact .inr (.inl ⟨stack', hself, hacquire hmem⟩)
      · have hu' : (w.threads.set t stack')[u]? = some r := by
          rw [getElem?_set_ne (Ne.symm hut)]
          exact hu
        exact .inr (.inl ⟨r, mem_of_getElem? hu', hmem⟩)
    · refine .inr (.inr ⟨u, howes.snoc fun hc => hi ?_⟩)
      cases hc
      rfl
  cases hd with
  | callSubmit => exact hkeep (mem_cons_of_mem _) (by simp) rfl hpend
  | callDispatch => exact .inr (.inl ⟨_, hself, mem_cons_self ..⟩)
  | returned => exact hkeep (by simp) (by simp) rfl hpend
  | panicked => exact absurd rfl hcalm
  | submitted event =>
    cases stack' with
    | nil =>
      refine .inr (.inr ⟨t, (hs event rfl).snoc fun hc => ?_⟩)
      cases hc
    | cons => exact .inl (dispatching_of_nested hw hp hn)
  | acquired => exact .inl rfl
  | busy _ dispatching => exact .inl dispatching
  | took =>
    have hle := le_total loops hp
    rw [hw] at hle
    exact .inl (Frame.dispatching_of_loops (f := .next) rfl hle)
  | emptied => exact absurd rfl hpend
  | dropped => exact absurd (mem_cons_self ..) hu

theorem attended_run (h : SlotRun tr w) (hcalm : ∀ x ∈ tr, Calm x) : Attended tr w := by
  refine h.historyOn hcalm ⟨fun hne => absurd rfl hne, each_nil _⟩
    fun tr w a w' hrun ih hok hstep => ?_
  rcases step_cases hstep with ⟨rfl, rfl⟩ | ⟨t, i, stack, x, stack', rfl, hp, hd, rfl⟩
  · have howes {u : ℕ} (hu : Owes tr u) :
        Owes (tr ++ [⟨w, .call [], ⟨w.shared, w.threads ++ [[]]⟩⟩]) u :=
      hu.snoc fun hc => by cases hc
    refine ⟨fun hne => (ih.queue hne).imp_right (.imp ?_ ?_), each_append (q := some []) ?_ ?_⟩
    · rintro ⟨stack, hs, hmem⟩
      exact ⟨stack, mem_append_left _ hs, hmem⟩
    · rintro ⟨u, hu⟩
      exact ⟨u, howes hu⟩
    · exact fun u stack hu => ⟨(ih.callers u stack hu).1, (ih.callers u stack hu).2.1,
        fun event heq => howes ((ih.callers u stack hu).2.2 event heq)⟩
    · intro stack hs
      obtain rfl := some.inj hs
      exact ⟨by simp [Nested], by simp, fun event heq => by cases heq⟩
  · have hi : i ≠ .panics := fun hi => hok t (by rw [hi])
    exact ⟨ih.queue_step (loops_run hrun) hp hd hi, ih.callers_step hp hd hi⟩

/-! ## Exact dispatch -/

/-- What holds of a slot that came to `w` by the history `tr`. -/
structure ExactDispatch (tr : List (SlotTransition R)) (w : Pool (SlotExecution R) (Caller R)) :
    Prop where
  /-- The effects of the callbacks entered so far, and then those queued, are the effects submitted,
  in the order of their submissions. -/
  order : tr.flatMap SlotTransition.submitted
    = tr.flatMap SlotTransition.interpreted ++ w.shared.pending
  /-- Callbacks do not overlap. -/
  exclusive : total (List.countP Frame.isCallback) w.threads ≤ 1
  /-- A callback is in the effect interpreted last. -/
  current : ∀ stack ∈ w.threads, ∀ effect, .callback effect ∈ stack →
    (tr.flatMap SlotTransition.interpreted).getLast? = some effect
  /-- When all calls have returned nothing is left to interpret. -/
  drained : Followed tr → (∀ x ∈ tr, Calm x) → (∀ stack ∈ w.threads, stack = []) →
    w.shared.pending = [] ∧ w.shared.dispatch = .idle
  /-- A panic leaves the queue as it is, and the guard it drops leaves it to the next
  dispatcher. -/
  panics : ∀ x ∈ tr, ∀ t, (x.input = .run t .panics → x.target.shared = x.source.shared) ∧
    ∀ caught, x.input = .run t (.dropped caught) →
      x.target.shared.pending = x.source.shared.pending ∧ x.target.shared.acquire.2

/-- **Effects are interpreted exactly once and in order**, whatever the callers of the slot do and
however their sections interleave. -/
theorem exact_dispatch {tr : List (SlotTransition R)} {w : Pool (SlotExecution R) (Caller R)}
    (h : SlotRun tr w) : ExactDispatch tr w where
  order := dispatched_run h
  exclusive := by
    have hle : total (List.countP Frame.isCallback) w.threads ≤ total loops w.threads :=
      total_le fun stack _ => countP_mono_left fun f _ hf => Frame.holds_of_isCallback hf
    have hloops := loops_run h
    have hone := w.shared.dispatch.loops_le
    omega
  current stack hs := by
    obtain ⟨t, ht⟩ := getElem?_of_mem hs
    exact callback_run h t stack ht
  drained hfollowed hcalm hret := by
    have hzero : total loops w.threads = 0 :=
      total_eq_zero fun stack hs => by rw [hret stack hs, loops_nil]
    have hidle : w.shared.dispatch = .idle := by
      rw [loops_run h] at hzero
      cases hd : w.shared.dispatch with
      | idle => rfl
      | dispatching => rw [hd] at hzero; cases hzero
    refine ⟨by_contra fun hne => ?_, hidle⟩
    rcases (attended_run h hcalm).queue hne with hphase | ⟨stack, hs, hmem⟩ | ⟨t, howes⟩
    · cases hphase.symm.trans hidle
    · rw [hret stack hs] at hmem
      cases hmem
    · exact hfollowed t howes
  panics x hx t := by
    obtain ⟨_, _, _, _, hstep⟩ := h.of_mem hx
    rcases step_cases hstep with ⟨hi, _⟩ | ⟨u, i, stack, y, stack', hi, hp, hd, hw⟩
    · refine ⟨fun hpanic => ?_, fun caught hc => ?_⟩
      · cases hi.symm.trans hpanic
      · cases hi.symm.trans hc
    · rw [hw]
      refine ⟨fun hpanic => ?_, fun caught hc => ?_⟩
      · cases hi.symm.trans hpanic
        cases hd
        rfl
      · cases hi.symm.trans hc
        cases hd
        exact ⟨rfl, rfl⟩

theorem one_inRange : 0 < 1 ∧ 1 < 2 ^ 64 := by decide

/-- Two callers and the activation of a slot.  The callback of the first effect submits the second
and dispatches in vain, like the other caller; the callback of the second effect panics; the other
caller then submits and interprets a third. -/
def panickingDispatch : List (Schedule (Caller numbers) (SlotInput numbers)) :=
  let a : ActivationId := ⟨⟨1, one_inRange⟩⟩
  let d : DispatchId := ⟨⟨1, one_inRange⟩⟩
  [.call [], .call [], .run 0 (.submit (.claimActivation a d ⟨0, 7, 0⟩ ⟨1, Nat.one_pos⟩)),
    .run 0 .advance, .run 0 .dispatchPending, .run 0 .advance, .run 0 .advance,
    -- in the callback of `StartActivation`
    .run 0 (.submit (.activationSucceeded a 2 3)), .run 0 .advance,
    .run 0 .dispatchPending, .run 0 .advance, .run 1 .dispatchPending, .run 1 .advance,
    .run 0 .returns, .run 0 .advance,
    -- in the callback of `Deliver`
    .run 0 .panics, .run 1 (.submit (.dispatch d ⟨0, 8, 1⟩)), .run 1 .advance,
    .run 0 (.dropped false),
    .run 1 .dispatchPending, .run 1 .advance, .run 1 .advance, .run 1 .returns, .run 1 .advance]

/-- In that run three effects are interpreted, and nothing is left. -/
theorem exact_dispatch_panicking :
    ∃ tr w, SlotRun (R := numbers) tr w ∧ (tr.flatMap SlotTransition.interpreted).length = 3 ∧
      w.shared.pending.length = 0 ∧ w.threads.map List.length = [0, 0] ∧ ExactDispatch tr w := by
  have hexec : ((exec SlotExecution.step untouched panickingDispatch).map fun r =>
      ((r.1.flatMap SlotTransition.interpreted).length, r.2.shared.pending.length,
        r.2.threads.map List.length)) = some (3, 0, [0, 0]) := by decide +kernel
  obtain ⟨⟨tr, w⟩, hrun, hw⟩ := map_eq_some_iff.mp hexec
  obtain ⟨hlength, hw⟩ := Prod.mk.inj hw
  obtain ⟨hpend, hthr⟩ := Prod.mk.inj hw
  exact ⟨tr, w, exec_run hrun, hlength, hpend, hthr, exact_dispatch (exec_run hrun)⟩

end Entity
