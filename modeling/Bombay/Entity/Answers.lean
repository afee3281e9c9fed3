import Bombay.Entity.Tickets

/-!
# Answers

The answer to a call of `admit` is `Ok` only if `port.deliver` has accepted the command of that very
call, and otherwise it gives that command back.  The chain is long: the call makes a publication,
its command travels under it through slots, tasks and effects, and whoever ends the journey answers
under the publication.  `Owned` says that along the whole chain the publication of a call only ever
goes with the command of the call.

One link is not the runtime's: `port.deliver` enqueues a command, "returning ownership on failure".
What it returns is what the caller gets (`Returned`), and it is the caller's command if the port
keeps to that contract (`Honest`).
-/

set_option autoImplicit false

namespace Entity

open Machine List Option

variable {R : LocalEntityRuntime}

/-! ## What the history says -/

abbrev RuntimeTransition (R : LocalEntityRuntime) :=
  Transition (Pool (Shared R) (Pc R)) (Schedule (Pc R) (Input R))

/-- The places at which the threads began. -/
def started (tr : RuntimeHistory R) : List (Pc R) :=
  tr.flatMap fun x => x.target.threads.drop x.source.threads.length

/-- The command that was given to the call `t` of `admit`. -/
def Given (tr : RuntimeHistory R) (t : ℕ) (command : R.Command) : Prop :=
  ∃ origin id, (started tr)[t]? = some (.admitCommand origin id command)

/-- The call `t` of `admit` has made the publication. -/
def Publishes (tr : RuntimeHistory R) (k : Publication) (t : ℕ) : Prop :=
  ∃ x ∈ tr, ∃ i origin id command, x.input = .run t i ∧
    x.source.threads[t]? = some (.admitCommand origin id command) ∧
    x.target.threads[t]? = some (.dispatch id ⟨origin, command, k⟩)

/-- `port.deliver` has accepted the command of the publication. -/
def Accepted (tr : RuntimeHistory R) (k : Publication) : Prop :=
  ∃ x ∈ tr, ∃ t id slot a d endpoint pending, x.input = .run t (.delivered (.ok ())) ∧
    x.source.threads[t]? = some (.task (.delivery id slot a d endpoint pending)) ∧
    pending.publisher = k

/-- `port.deliver` has failed for the publication and returned the command. -/
def Returned (tr : RuntimeHistory R) (k : Publication) (command : R.Command) : Prop :=
  ∃ x ∈ tr, ∃ t id slot a d endpoint pending, x.input = .run t (.delivered (.error command)) ∧
    x.source.threads[t]? = some (.task (.delivery id slot a d endpoint pending)) ∧
    pending.publisher = k

/-- A delivery that fails returns the command it was given. -/
def Honest (tr : RuntimeHistory R) : Prop :=
  ∀ x ∈ tr, ∀ t id slot a d endpoint pending command,
    x.input = .run t (.delivered (.error command)) →
    x.source.threads[t]? = some (.task (.delivery id slot a d endpoint pending)) →
    command = pending.command

/-- What an answer tells the call `t`. -/
def Warranted (tr : RuntimeHistory R) (t : ℕ) : Except (AdmissionFailure R) Unit → Prop
  | .ok () => ∃ k, Publishes tr k t ∧ Accepted tr k
  | .error failure => Given tr t failure.command ∨
    ∃ k, Publishes tr k t ∧ Returned tr k failure.command

section History

variable {tr tr' : RuntimeHistory R} {t : ℕ} {k : Publication} {command : R.Command}

theorem started_append : started (tr ++ tr') = started tr ++ started tr' := flatMap_append

theorem Given.mono (h : Given tr t command) : Given (tr ++ tr') t command := by
  obtain ⟨origin, id, hstart⟩ := h
  refine ⟨origin, id, ?_⟩
  have hlt := lt_of_get hstart
  rw [started_append, getElem?_append_left hlt]
  exact hstart

theorem Publishes.mono (h : Publishes tr k t) : Publishes (tr ++ tr') k t := by
  obtain ⟨x, hx, hrest⟩ := h
  exact ⟨x, mem_append_left _ hx, hrest⟩

theorem Accepted.mono (h : Accepted tr k) : Accepted (tr ++ tr') k := by
  obtain ⟨x, hx, hrest⟩ := h
  exact ⟨x, mem_append_left _ hx, hrest⟩

theorem Returned.mono (h : Returned tr k command) : Returned (tr ++ tr') k command := by
  obtain ⟨x, hx, hrest⟩ := h
  exact ⟨x, mem_append_left _ hx, hrest⟩

theorem Warranted.mono {result} (h : Warranted tr t result) : Warranted (tr ++ tr') t result := by
  cases result with
  | ok =>
    obtain ⟨k, hpub, haccepted⟩ := h
    exact ⟨k, hpub.mono, haccepted.mono⟩
  | error =>
    rcases h with hgiven | ⟨k, hpub, hret⟩
    · exact .inl hgiven.mono
    · exact .inr ⟨k, hpub.mono, hret.mono⟩

end History

/-! ## Places -/

/-- How far a call of `admit` has come. -/
inductive Stance (R : LocalEntityRuntime)
  /-- It waits for what is published under its name. -/
  | awaits (k : Publication)
  | resolved (result : Except (AdmissionFailure R) Unit)
  /-- Its future was dropped. -/
  | dropped

def After.stance? : After R → Option (Stance R)
  | .stop (.admitted result) => some (.resolved result)
  | .stop .cancelled => some .dropped
  | .wait _ _ _ k => some (.awaits k)
  | _ => none

def Return.stance? : Return R → Option (Stance R)
  | .release after => after.stance?
  | _ => none

def Purpose.stance? : Purpose R → Option (Stance R)
  | .dispatch _ k => some (.awaits k)
  | .dropWait => some .dropped
  | .passivate => none
  | .task ret => ret.stance?

def Cont.stance? : Cont R → Option (Stance R)
  | .interpret _ _ ret => ret.stance?
  | .closeSlots .. => none

/-- The stance of a call of `admit`, once it has entered. -/
def Pc.stance? : Pc R → Option (Stance R)
  | .dispatch _ pending | .route _ pending _ => some (.awaits pending.publisher)
  | .wait _ _ _ k => some (.awaits k)
  | .dropWait .. => some .dropped
  | .returned outcome => (After.stop outcome).stance?
  | .release after => after.stance?
  | .submitOrInactive _ _ purpose | .submit _ _ _ purpose => purpose.stance?
  | .acquire _ _ ret | .next _ _ ret | .interpretEffect _ _ _ ret | .takeSlot _ _ _ ret
  | .retainRetired _ _ _ ret => ret.stance?
  | .begin _ cont | .spawn _ cont | .track _ cont => cont.stance?
  | .panicked place => place.stance?
  | _ => none

theorem After.stance_pc (after : After R) : after.pc.stance? = after.stance? := by
  cases after <;> rfl

theorem Return.stance_pc (ret : Return R) : ret.pc.stance? = ret.stance? := by
  rcases ret with after | _ | _ | _ | ⟨_, _, _, _ | _, _⟩ | _
  · cases after <;> rfl
  all_goals rfl

theorem Cont.stance_pc (cont : Cont R) : cont.pc.stance? = cont.stance? := by
  cases cont <;> rfl

theorem Purpose.stance_ret (purpose : Purpose R) (id : R.Id) (installed : InstalledSlotEvidence) :
    (purpose.ret id installed).stance? = purpose.stance? := by
  cases purpose <;> rfl

theorem stance_submitOwned (id : R.Id) (slot : Option SlotRef) (event : R.Event)
    (ret : SlotRef → Return R) (h : ∀ slot, (ret slot).stance? = none) :
    (submitOwned id slot event ret).stance? = none := by
  cases slot with
  | none => rfl
  | some slot => exact h slot

/-- The call has not entered yet. -/
def Pc.opening : Pc R → Bool
  | .admitCommand .. => true
  | _ => false

variable [DecidableEq R.Id] {s s' : Shared R} {self fresh : ℕ} {p p' : Pc R} {q : Option (Pc R)}
  {i : Input R} {w : Pool (Shared R) (Pc R)} {t : ℕ}

/-- How a section changes the stance of its thread. -/
inductive Resolves (s : Shared R) (p : Pc R) (p' : Pc R) : Prop
  | same (h : p'.stance? = p.stance?) (begun : p.opening = false)
  | entered (origin id command) (place : p = .admitCommand origin id command)
      (place' : p' = .dispatch id ⟨origin, command, s.fresh⟩)
  | refused (origin id command) (place : p = .admitCommand origin id command)
      (h : p'.stance? = some (.resolved (.error (.refused command .shutdown))))
  | exhausted (pending failure)
      (place : (∃ id, p = .dispatch id pending) ∨ ∃ id d, p = .route id pending d)
      (same : failure.command = pending.command)
      (h : p'.stance? = some (.resolved (.error failure)))
  | replied (k result)
      (place : p.stance? = some (.awaits k)) (ready : s.replies.lookup k = some result)
      (h : p'.stance? = some (.resolved result))
  | dropped (begun : p.opening = false) (h : p'.stance? = some .dropped)

theorem Acts.resolves (h : Acts s self fresh p i s' p' q) :
    Resolves s p p' ∧ p'.opening = false := by
  cases h with
  | admitEntered origin id command => exact ⟨.entered origin id command rfl rfl, rfl⟩
  | admitRefused origin id command => exact ⟨.refused origin id command rfl rfl, rfl⟩
  | dispatchExhausted id pending => exact ⟨.exhausted pending _ (.inl ⟨id, rfl⟩) rfl rfl, rfl⟩
  | routeExhausted id pending d => exact ⟨.exhausted pending _ (.inr ⟨id, d, rfl⟩) rfl rfl, rfl⟩
  | replied _ _ _ k result ready => exact ⟨.replied k result rfl ready rfl, rfl⟩
  | released after => exact ⟨.same after.stance_pc rfl, by cases after <;> rfl⟩
  | busy _ _ ret | emptied _ _ ret | transientDone _ ret =>
    refine ⟨.same ret.stance_pc rfl, ?_⟩
    rcases ret with _ | _ | _ | _ | ⟨_, _, _, _ | _, _⟩ | _ <;> rfl
  | tracked _ cont => exact ⟨.same cont.stance_pc rfl, by cases cont <;> rfl⟩
  | absent _ _ purpose | submitted _ _ _ purpose =>
    exact ⟨.same (purpose.stance_ret ..) rfl, rfl⟩
  | delivered _ slot | fenced _ slot | retired _ slot =>
    exact ⟨.same (stance_submitOwned _ _ _ _ fun _ => rfl) rfl, by cases slot <;> rfl⟩
  | recorded r =>
    refine ⟨.same (stance_submitOwned _ _ _ _ fun _ => rfl) rfl, ?_⟩
    obtain ⟨_, slot, _⟩ := r
    cases slot <;> rfl
  | panic p _ h =>
    refine ⟨.same rfl ?_, rfl⟩
    cases p with
    | admitCommand => exact h.elim
    | _ => rfl
  | _ =>
    first
    | exact ⟨.same rfl rfl, rfl⟩
    | exact ⟨.dropped rfl rfl, rfl⟩

/-! ## Owners -/

section Owners

omit [DecidableEq R.Id]

open Classical in
/-- Counts the commands that do not belong to the call whose publication they are under.  On its way
back a command may also be what the port has returned for that call. -/
noncomputable def stray (tr : RuntimeHistory R) : Scale R := fun c _ pending =>
  if ∃ t, Publishes tr pending.publisher t ∧ (Given tr t pending.command ∨
    c = .returned ∧ Returned tr pending.publisher pending.command) then 0 else 1

variable {tr : RuntimeHistory R} {c : Custody} {d : Option DispatchId} {pending : PendingCommand R}

theorem stray_eq_zero : stray tr c d pending = 0 ↔ ∃ t, Publishes tr pending.publisher t ∧
    (Given tr t pending.command ∨
      c = .returned ∧ Returned tr pending.publisher pending.command) := by
  rw [stray]
  split_ifs with h
  · exact ⟨fun _ => h, fun _ => rfl⟩
  · exact ⟨False.elim, fun h' => absurd h' h⟩

theorem given_of_stray (h : stray tr c d pending = 0) (hc : c ≠ .returned) :
    ∃ t, Publishes tr pending.publisher t ∧ Given tr t pending.command := by
  obtain ⟨t, hpub, hgiven | ⟨heq, _⟩⟩ := stray_eq_zero.mp h
  · exact ⟨t, hpub, hgiven⟩
  · exact absurd heq hc

theorem stray_le {tr' : RuntimeHistory R} {c' : Custody} {d' : Option DispatchId}
    {pending' : PendingCommand R} (h : stray tr c d pending = 0 → stray tr' c' d' pending' = 0) :
    stray tr' c' d' pending' ≤ stray tr c d pending := by
  have hone : stray tr' c' d' pending' ≤ 1 := by
    rw [stray]
    split_ifs <;> omega
  omega

theorem stray_mono (tr' : RuntimeHistory R) :
    stray (tr ++ tr') c d pending ≤ stray tr c d pending := by
  refine stray_le fun hzero => ?_
  obtain ⟨t, hpub, howner⟩ := stray_eq_zero.mp hzero
  exact stray_eq_zero.mpr ⟨t, hpub.mono, howner.imp Given.mono fun h => ⟨h.1, h.2.mono⟩⟩

theorem stray_custody (tr : RuntimeHistory R) (c c' : Custody) (d d' : Option DispatchId)
    (pending : PendingCommand R) (h : c' = .returned ∨ c ≠ .returned) :
    stray tr c' d' pending ≤ stray tr c d pending := by
  refine stray_le fun hzero => ?_
  obtain ⟨t, hpub, howner⟩ := stray_eq_zero.mp hzero
  refine stray_eq_zero.mpr ⟨t, hpub, howner.imp id fun ⟨hc, hret⟩ => ⟨?_, hret⟩⟩
  rcases h with hc' | hne
  · exact hc'
  · exact absurd hc hne

end Owners

section Order

omit [DecidableEq R.Id]

variable {f g : Scale R}

theorem SlotEffect.load_le (h : f ≤ g) (effect : R.Effect) : effect.load f ≤ effect.load g := by
  cases effect with
  | deliver | reject => exact h ..
  | _ => exact le_rfl

theorem SlotEvent.load_le (h : f ≤ g) (event : R.Event) : event.load f ≤ event.load g := by
  cases event with
  | claimActivation | dispatch => exact h ..
  | deliveryResolved _ failure =>
    cases failure with
    | none => exact le_rfl
    | some => exact h ..
  | _ => exact le_rfl

theorem InstalledEffectSource.load_le (h : f ≤ g) (source : InstalledEffectSource R) :
    source.load f ≤ source.load g := by
  cases source with
  | mapped => exact le_rfl
  | transient => exact total_le fun effect _ => SlotEffect.load_le h effect

theorem Task.load_le (h : f ≤ g) (c : Custody) (task : Task R) : task.load f c ≤ task.load g c := by
  cases task with
  | delivery => exact h ..
  | _ => exact le_rfl

theorem Pc.load_le (h : f ≤ g) (p : Pc R) : p.load f ≤ p.load g := by
  induction p with
  | dispatch | route => exact h ..
  | submitOrInactive _ event | submit _ _ event => exact event.load_le h
  | next _ source => exact source.load_le h
  | interpretEffect _ source effect => exact Nat.add_le_add (source.load_le h) (effect.load_le h)
  | begin task cont | spawn task cont =>
    refine Nat.add_le_add (task.load_le h _) ?_
    cases cont with
    | interpret _ source => exact source.load_le h
    | closeSlots => exact le_rfl
  | track _ cont =>
    cases cont with
    | interpret _ source => exact source.load_le h
    | closeSlots => exact le_rfl
  | task task => exact task.load_le h _
  | finish ending | publishIdle _ ending | exit ending | ended ending =>
    cases ending with
    | returned => exact le_rfl
    | died task => exact task.load_le h _
  | panicked _ ih => exact ih
  | _ => exact le_rfl

theorem SlotExecution.load_le (h : f ≤ g) (x : SlotExecution R) : x.load f ≤ x.load g := by
  refine Nat.add_le_add ?_ (total_le fun effect _ => SlotEffect.load_le h effect)
  cases x.state with
  | activating => exact total_le fun waiter _ => h ..
  | _ => exact le_rfl

theorem custody_le (h : f ≤ g) (w : Pool (Shared R) (Pc R)) : custody f w ≤ custody g w :=
  Nat.add_le_add (total_le fun x _ => x.execution.load_le h) (total_le fun p _ => p.load_le h)

theorem load_le_custody (hp : w.threads[t]? = some p) : p.load f ≤ custody f w :=
  (le_total (Pc.load f) hp).trans (Nat.le_add_left _ _)

theorem loads_le_custody (hp : w.threads[t]? = some p) : w.shared.loads p none f ≤ custody f w :=
  Nat.add_le_add_left (le_total (Pc.load f) hp) _

end Order

/-! ## Along a run -/

/-- Publications, commands and answers stay with their calls. -/
structure Owned (tr : RuntimeHistory R) (w : Pool (Shared R) (Pc R)) : Prop where
  threads : (started tr).length = w.threads.length
  spans : ∀ k t, Publishes tr k t → k < w.shared.fresh ∧ t < w.threads.length
  callers : ∀ k t u, Publishes tr k t → Publishes tr k u → t = u
  calls : ∀ j k t, Publishes tr j t → Publishes tr k t → j = k
  opening : Each (fun t p => p.opening → (started tr)[t]? = some p ∧ ∀ k, ¬Publishes tr k t)
    w.threads
  begun : Each (fun t p => ∀ command, Given tr t command → p.opening ∨ p.stance?.isSome) w.threads
  awaits : Each (fun t p => ∀ k, p.stance? = some (.awaits k) → Publishes tr k t) w.threads
  commands : custody (stray tr) w = 0
  replies : ∀ k result, (k, result) ∈ w.shared.replies →
    ∃ t, Publishes tr k t ∧ Warranted tr t result
  results : Each (fun t p => ∀ result, p.stance? = some (.resolved result) → Warranted tr t result)
    w.threads

variable {tr : RuntimeHistory R} {k : Publication}

theorem Acts.publishes (hp : w.threads[t]? = some p)
    (h : Acts w.shared t w.threads.length p i s' p' q) {u : ℕ}
    (hpub : Publishes (tr ++ [⟨w, .run t i, ⟨s', w.threads.set t p' ++ q.toList⟩⟩]) k u) :
    Publishes tr k u ∨ u = t ∧ k = w.shared.fresh ∧ p.opening ∧ s'.fresh = w.shared.fresh + 1 := by
  obtain ⟨x, hx, j, origin, id, command, hinput, hsource, htarget⟩ := hpub
  rcases mem_append.mp hx with hx | hx
  · exact .inl ⟨x, hx, j, origin, id, command, hinput, hsource, htarget⟩
  · obtain rfl := mem_singleton.mp hx
    obtain ⟨rfl, rfl⟩ := Schedule.run.inj hinput
    obtain rfl := some.inj (hp.symm.trans hsource)
    have hmoved : p' = .dispatch id ⟨origin, command, k⟩ :=
      some.inj ((get_moved hp p' q).symm.trans htarget)
    refine .inr ⟨rfl, ?_⟩
    cases h with
    | admitEntered =>
      obtain ⟨_, hpend⟩ := Pc.dispatch.inj hmoved
      exact ⟨(congrArg PendingCommand.publisher hpend).symm, rfl, rfl⟩
    | admitRefused | panic => cases hmoved

theorem stray_act (hp : w.threads[t]? = some p)
    (h : Acts w.shared t w.threads.length p i s' p' q) (hn : p.Named w.shared.directory)
    (hopening : p.opening → (started tr)[t]? = some p) (hzero : custody (stray tr) w = 0) :
    custody (stray (tr ++ [⟨w, .run t i, ⟨s', w.threads.set t p' ++ q.toList⟩⟩]))
      ⟨s', w.threads.set t p' ++ q.toList⟩ = 0 := by
  set tr' := tr ++ [⟨w, .run t i, ⟨s', w.threads.set t p' ++ q.toList⟩⟩] with htr
  have hnow : custody (stray tr') w = 0 :=
    Nat.eq_zero_of_le_zero (hzero ▸ custody_le (fun _ _ _ => stray_mono _) w)
  have hmem : (⟨w, .run t i, ⟨s', w.threads.set t p' ++ q.toList⟩⟩ : RuntimeTransition R) ∈ tr' :=
    htr ▸ mem_append_right _ (mem_singleton_self _)
  have hbefore := loads_le_custody (f := stray tr') hp
  have hmove := custody_move (stray tr') s' p' q hp
  suffices hafter : s'.loads p' q (stray tr') ≤ w.shared.loads p none (stray tr') by omega
  cases h.commands hn with
  | keeps waiters hload =>
    have heq := hload (stray tr')
    have hle : returning (stray tr') waiters ≤ total (ActivationWaiter.load (stray tr')) waiters :=
      total_le fun waiter _ => stray_custody _ _ _ _ _ _ (.inl rfl)
    omega
  | enters origin id command place place' hload =>
    have hown : stray tr' .queued none ⟨origin, command, w.shared.fresh⟩ = 0 := by
      subst place place'
      exact stray_eq_zero.mpr ⟨t, ⟨_, hmem, i, origin, id, command, rfl, hp, get_moved hp _ q⟩,
        .inl (Given.mono ⟨origin, id, hopening rfl⟩)⟩
    have heq := hload (stray tr')
    omega
  | numbers _ pending d _ _ _ _ hload =>
    have heq := hload (stray tr')
    have hle := stray_custody tr' .queued .queued none (some ⟨d⟩) pending (.inr nofun)
    omega
  | exhausts _ _ _ _ _ hload
  | accepts _ _ _ _ _ _ _ _ hload
  | answers _ _ _ hload
  | cancels _ _ _ _ _ _ _ _ _ hload =>
    have heq := hload (stray tr')
    omega
  | starts _ _ _ d _ pending _ _ hload =>
    have heq := hload (stray tr')
    have hle := stray_custody tr' .queued .delivering (some d) (some d) pending (.inr nofun)
    omega
  | fails id slot a d endpoint pending command place input hload =>
    subst place input
    have heq := hload (stray tr')
    have hle : stray tr' .returned (some d) { pending with command := command } ≤
        stray tr' .delivering (some d) pending := by
      refine stray_le fun hown => ?_
      obtain ⟨u, hpub, _⟩ := stray_eq_zero.mp hown
      exact stray_eq_zero.mpr ⟨u, hpub, .inr ⟨rfl, _, hmem, t, id, slot, a, d, endpoint, pending,
        rfl, hp, rfl⟩⟩
    omega
  | dies d pending hload =>
    have heq := hload (stray tr')
    have hle := stray_custody tr' .delivering .died (some d) (some d) pending (.inr nofun)
    omega

variable {result : Except (AdmissionFailure R) Unit}

theorem Owned.replies_act (hw : Owned tr w) (hp : w.threads[t]? = some p)
    (h : Acts w.shared t w.threads.length p i s' p' q) (hn : p.Named w.shared.directory)
    (hreply : (k, result) ∈ s'.replies) : ∃ u, Publishes tr k u ∧
      Warranted (tr ++ [⟨w, .run t i, ⟨s', w.threads.set t p' ++ q.toList⟩⟩]) u result := by
  have hbefore := loads_le_custody (f := stray tr) hp
  have hzero := hw.commands
  have hold (hmem : (k, result) ∈ w.shared.replies) : ∃ u, Publishes tr k u ∧
      Warranted (tr ++ [⟨w, .run t i, ⟨s', w.threads.set t p' ++ q.toList⟩⟩]) u result := by
    obtain ⟨u, hpub, hwarranted⟩ := hw.replies k result hmem
    exact ⟨u, hpub, hwarranted.mono⟩
  cases h.commands hn with
  | accepts id slot a d endpoint pending place input hload replies =>
    subst place input
    rcases mem_cons.mp (replies ▸ hreply) with heq | hmem
    · obtain ⟨rfl, rfl⟩ := Prod.mk.inj heq
      have hload := hload (stray tr)
      have hown : stray tr .delivering (some d) pending = 0 := by omega
      obtain ⟨u, hpub, _⟩ := stray_eq_zero.mp hown
      exact ⟨u, hpub, _, hpub.mono, _, mem_append_right _ (mem_singleton_self _), t, id,
        slot, a, d, endpoint, pending, rfl, hp, rfl⟩
    · exact hold hmem
  | answers d pending _ hload replies =>
    rcases mem_cons.mp (replies ▸ hreply) with heq | hmem
    · obtain ⟨rfl, rfl⟩ := Prod.mk.inj heq
      have hload := hload (stray tr)
      have hown : stray tr .returned (some d) pending = 0 := by omega
      obtain ⟨u, hpub, howner⟩ := stray_eq_zero.mp hown
      refine ⟨u, hpub, Warranted.mono (show Warranted tr u (.error _) from ?_)⟩
      exact howner.imp id fun ⟨_, hret⟩ => ⟨_, hpub, hret⟩
    · exact hold hmem
  | keeps _ _ replies | enters _ _ _ _ _ _ _ replies | numbers _ _ _ _ _ _ _ _ replies
  | exhausts _ _ _ _ _ _ replies | starts _ _ _ _ _ _ _ _ _ replies
  | fails _ _ _ _ _ _ _ _ _ _ replies | dies _ _ _ replies
  | cancels _ _ _ _ _ _ _ _ _ _ replies =>
    exact hold (replies ▸ hreply)

theorem Owned.results_act (hw : Owned tr w) (hp : w.threads[t]? = some p)
    (h : Acts w.shared t w.threads.length p i s' p' q)
    (hresult : p'.stance? = some (.resolved result)) : Warranted tr t result := by
  cases h.resolves.1 with
  | same heq => exact hw.results t p hp result (heq ▸ hresult)
  | entered _ _ _ _ place' =>
    subst place'
    cases hresult
  | refused origin id _ place heq =>
    subst place
    obtain rfl := Stance.resolved.inj (some.inj (heq.symm.trans hresult))
    exact .inl ⟨origin, id, (hw.opening t _ hp rfl).1⟩
  | exhausted pending _ place same heq =>
    obtain rfl := Stance.resolved.inj (some.inj (heq.symm.trans hresult))
    have hload := load_le_custody (f := stray tr) hp
    have hpub : Publishes tr pending.publisher t :=
      hw.awaits t p hp _ (by rcases place with ⟨id, rfl⟩ | ⟨id, d, rfl⟩ <;> rfl)
    have hown : ∃ d, stray tr .queued d pending = 0 := by
      rw [hw.commands] at hload
      rcases place with ⟨id, rfl⟩ | ⟨id, d, rfl⟩
      · exact ⟨none, Nat.eq_zero_of_le_zero hload⟩
      · exact ⟨some d, Nat.eq_zero_of_le_zero hload⟩
    obtain ⟨d, hown⟩ := hown
    obtain ⟨u, hu, hgiven⟩ := given_of_stray hown nofun
    obtain rfl := hw.callers _ _ _ hpub hu
    exact .inl (same ▸ hgiven)
  | replied k result' place ready heq =>
    obtain rfl := Stance.resolved.inj (some.inj (heq.symm.trans hresult))
    obtain ⟨l₁, l₂, hreplies, _⟩ := lookup_eq_some_iff.mp ready
    obtain ⟨u, hu, hwarranted⟩ := hw.replies k result' (by simp [hreplies])
    obtain rfl := hw.callers _ _ _ (hw.awaits t p hp k place) hu
    exact hwarranted
  | dropped _ heq => cases heq.symm.trans hresult

omit [DecidableEq R.Id] in
theorem started_run : started (tr ++ [⟨w, .run t i, ⟨s', w.threads.set t p' ++ q.toList⟩⟩]) =
      started tr ++ q.toList := by
  rw [started_append]
  simp [started]

theorem Owned.act (hw : Owned tr w) (hp : w.threads[t]? = some p)
    (h : Acts w.shared t w.threads.length p i s' p' q) (hn : p.Named w.shared.directory) :
    Owned (tr ++ [⟨w, .run t i, ⟨s', w.threads.set t p' ++ q.toList⟩⟩])
      ⟨s', w.threads.set t p' ++ q.toList⟩ := by
  have hlt := lt_of_get hp
  have hfresh : ∀ u, ¬Publishes tr w.shared.fresh u := fun u hpub =>
    Nat.lt_irrefl _ (hw.spans _ u hpub).1
  have hlen : w.threads.length ≤ (w.threads.set t p' ++ q.toList).length := by
    rw [length_append, length_set]
    exact Nat.le_add_right _ _
  have hgiven (u : ℕ) (hu : u < w.threads.length) (command : R.Command)
      (hg : Given (tr ++ [⟨w, .run t i, ⟨s', w.threads.set t p' ++ q.toList⟩⟩]) u command) :
      Given tr u command := by
    obtain ⟨origin, id, hstart⟩ := hg
    rw [started_run, getElem?_append_left (hw.threads ▸ hu)] at hstart
    exact ⟨origin, id, hstart⟩
  refine ⟨?_, ?_, ?_, ?_, ?_, ?_, ?_, ?_, ?_, ?_⟩
  · rw [started_run, length_append, length_append, length_set, hw.threads]
  · intro k u hpub
    rcases h.publishes hp hpub with hold | ⟨rfl, rfl, _, hsucc⟩
    · obtain ⟨hk, hu⟩ := hw.spans k u hold
      exact ⟨Nat.lt_of_lt_of_le hk h.fresh_le, Nat.lt_of_lt_of_le hu hlen⟩
    · exact ⟨hsucc ▸ Nat.lt_succ_self _, Nat.lt_of_lt_of_le hlt hlen⟩
  · intro k u u' hu hu'
    rcases h.publishes hp hu with hold | ⟨rfl, rfl, _⟩ <;>
      rcases h.publishes hp hu' with hold' | ⟨rfl, hk, _⟩
    · exact hw.callers k u u' hold hold'
    · exact absurd (hk ▸ hold) (hfresh u)
    · exact absurd hold' (hfresh u')
    · rfl
  · intro j k u hj hk
    rcases h.publishes hp hj with hold | ⟨rfl, rfl, ho, _⟩ <;>
      rcases h.publishes hp hk with hold' | ⟨hu, hk, ho', _⟩
    · exact hw.calls j k u hold hold'
    · exact absurd (hu ▸ hold) ((hw.opening t p hp ho').2 j)
    · exact absurd hold' ((hw.opening _ p hp ho).2 k)
    · exact hk.symm
  · refine each_move hw.opening hp (fun _ ho => ?_) (fun u r hne hr ho => ?_) fun r hr ho => ?_
    · rw [h.resolves.2] at ho
      cases ho
    · obtain ⟨hstart, hquiet⟩ := hr ho
      have hu := lt_of_get hstart
      refine ⟨by rw [started_run, getElem?_append_left hu, hstart], fun k hpub => ?_⟩
      rcases h.publishes hp hpub with hold | ⟨hu, _⟩
      · exact hquiet k hold
      · exact hne hu
    · obtain ⟨task, _, _, rfl⟩ := h.started hr
      cases ho
  · intro u r hr command hg
    by_cases hu : u < w.threads.length
    · rw [getElem?_append_left (by simpa using hu)] at hr
      rcases of_moved hr with ⟨rfl, rfl⟩ | ⟨_, hold⟩
      · refine .inr ?_
        have hbegun := hw.begun u p hp command (hgiven u hu command hg)
        cases h.resolves.1 with
        | same heq begun =>
          rw [begun] at hbegun
          rw [heq]
          exact hbegun.resolve_left Bool.false_ne_true
        | entered _ _ _ _ place' => exact place' ▸ rfl
        | refused _ _ _ _ heq | exhausted _ _ _ _ heq | replied _ _ _ _ heq | dropped _ heq =>
          rw [heq]
          rfl
      · exact hw.begun u r hold command (hgiven u hu command hg)
    · obtain ⟨origin, id, hstart⟩ := hg
      rw [started_run, getElem?_append_right (hw.threads ▸ Nat.le_of_not_lt hu)] at hstart
      obtain ⟨_, _, _, htask⟩ := h.started (mem_toList.mp (mem_of_getElem? hstart))
      cases htask
  · refine each_move hw.awaits hp (fun hold k hk => ?_) (fun u r _ hr k hk => (hr k hk).mono)
      fun r hr k hk => ?_
    · cases h.resolves.1 with
      | same heq => exact (hold k (heq ▸ hk)).mono
      | entered origin id command place place' =>
        subst place place'
        obtain rfl := Stance.awaits.inj (some.inj hk)
        exact ⟨_, mem_append_right _ (mem_singleton_self _), i, origin, id, command, rfl, hp,
          get_moved hp _ q⟩
      | refused _ _ _ _ heq | exhausted _ _ _ _ heq | replied _ _ _ _ heq | dropped _ heq =>
        cases heq.symm.trans hk
    · obtain ⟨task, _, _, rfl⟩ := h.started hr
      cases hk
  · exact stray_act hp h hn (fun ho => (hw.opening t p hp ho).1) hw.commands
  · intro k result hreply
    obtain ⟨u, hpub, hwarranted⟩ := hw.replies_act hp h hn hreply
    exact ⟨u, hpub.mono, hwarranted⟩
  · refine each_move hw.results hp (fun _ result hresult => (hw.results_act hp h hresult).mono)
      (fun u r _ hr result hresult => (hr result hresult).mono) fun r hr result hresult => ?_
    obtain ⟨task, _, _, rfl⟩ := h.started hr
    cases hresult

omit [DecidableEq R.Id] in
theorem Pc.isCall_stance (h : p.isCall) : p.stance? = none := by
  cases p with
  | admitCommand | passivate | retireEntity | shutdown => rfl
  | _ => cases h

omit [DecidableEq R.Id] in
theorem started_call :
    started (tr ++ [⟨w, .call p, ⟨w.shared, w.threads ++ [p]⟩⟩]) = started tr ++ [p] := by
  rw [started_append]
  simp [started]

omit [DecidableEq R.Id] in
theorem Owned.call (hw : Owned tr w) (hp : p.isCall) :
    Owned (tr ++ [⟨w, .call p, ⟨w.shared, w.threads ++ [p]⟩⟩]) ⟨w.shared, w.threads ++ [p]⟩ := by
  have hpub {k : Publication} {u : ℕ}
      (h : Publishes (tr ++ [⟨w, .call p, ⟨w.shared, w.threads ++ [p]⟩⟩]) k u) :
      Publishes tr k u := by
    obtain ⟨x, hx, j, origin, id, command, hinput, hrest⟩ := h
    rcases mem_append.mp hx with hx | hx
    · exact ⟨x, hx, j, origin, id, command, hinput, hrest⟩
    · obtain rfl := mem_singleton.mp hx
      cases hinput
  have hstance := Pc.isCall_stance hp
  refine ⟨?_, fun k u h => ?_, fun k t u h h' => hw.callers k t u (hpub h) (hpub h'),
    fun j k t h h' => hw.calls j k t (hpub h) (hpub h'), fun u r hr ho => ?_,
    fun u r hr command hg => ?_, fun u r hr k hk => ?_, ?_, fun k result hreply => ?_,
    fun u r hr result hresult => ?_⟩
  · rw [started_call, length_append, length_append, hw.threads]
  · obtain ⟨hk, hu⟩ := hw.spans k u (hpub h)
    exact ⟨hk, by rw [length_append]; exact Nat.lt_add_right _ hu⟩
  · rcases of_joined hr with hr | ⟨rfl, rfl⟩
    · obtain ⟨hstart, hquiet⟩ := hw.opening u r hr ho
      have hu := lt_of_get hstart
      exact ⟨by rw [started_call, getElem?_append_left hu, hstart], fun k h => hquiet k (hpub h)⟩
    · refine ⟨?_, fun k h => Nat.lt_irrefl _ (hw.spans k _ (hpub h)).2⟩
      rw [started_call, ← hw.threads, getElem?_concat_length]
  · obtain ⟨origin, id, hstart⟩ := hg
    rcases of_joined hr with hr | ⟨rfl, rfl⟩
    · have hu := lt_of_get hr
      rw [started_call, getElem?_append_left (hw.threads ▸ hu)] at hstart
      exact hw.begun u r hr command ⟨origin, id, hstart⟩
    · rw [started_call, ← hw.threads, getElem?_concat_length] at hstart
      rw [some.inj hstart]
      exact .inl rfl
  · rcases of_joined hr with hr | ⟨_, rfl⟩
    · exact (hw.awaits u r hr k hk).mono
    · cases hstance.symm.trans hk
  · rw [custody_call hp]
    exact Nat.eq_zero_of_le_zero (hw.commands ▸ custody_le (fun _ _ _ => stray_mono _) w)
  · obtain ⟨t, ht, hwarranted⟩ := hw.replies k result hreply
    exact ⟨t, ht.mono, hwarranted.mono⟩
  · rcases of_joined hr with hr | ⟨_, rfl⟩
    · exact (hw.results u r hr result hresult).mono
    · cases hstance.symm.trans hresult

variable {config : DirectoryConfig} {hash : R.Id → ℕ}

/-- **Commands and answers along a run.** -/
theorem owned_run (h : Reaches config hash tr w) : Owned tr w := by
  refine h.history (P := Owned) ?_ fun tr w a w' hrun hw hstep => ?_
  · have hnone : ∀ k t, ¬Publishes ([] : RuntimeHistory R) k t := by
      rintro k t ⟨x, hx, _⟩
      cases hx
    exact ⟨rfl, fun k t h => (hnone k t h).elim, fun k t u h => (hnone k t h).elim,
      fun j k t h => (hnone j t h).elim, each_nil _, each_nil _, each_nil _, rfl, nofun, each_nil _⟩
  · rcases EntityRuntime.step_cases hstep with
      ⟨p, rfl, hp, rfl⟩ | ⟨t, i, p, s, p', q, rfl, hp, hact, rfl⟩
    · exact hw.call hp
    · exact hw.act hp hact ((named_run hrun).threads t p hp)

theorem given_of_returned (h : Reaches config hash tr w) (hhonest : Honest tr) {command : R.Command}
    (hpub : Publishes tr k t) (hret : Returned tr k command) : Given tr t command := by
  obtain ⟨x, hx, u, id, slot, a, d, endpoint, pending, hinput, hp, rfl⟩ := hret
  rw [hhonest x hx u id slot a d endpoint pending command hinput hp]
  obtain ⟨pre, post, rfl, hrun, -⟩ := h.of_mem hx
  have hload := load_le_custody (f := stray pre) hp
  rw [(owned_run hrun).commands] at hload
  have hown : stray pre .delivering (some d) pending = 0 := Nat.eq_zero_of_le_zero hload
  obtain ⟨u', hpub', hgiven⟩ := given_of_stray hown nofun
  obtain rfl := (owned_run h).callers _ _ _ hpub hpub'.mono
  exact hgiven.mono

end Entity
