import Bombay.Machine.Log
import Bombay.Machine.Pool

/-!
# Requests to shut an incarnation down

Anybody with an actor reference and its control sender may ask an actor to stop: a parent that
interprets `ShutdownChild`, the holder of an installed actor, the application handle, and the
retirement of an entity.  All of them go through `request_actor_shutdown`, which first looks for the
termination, then closes the user admission, and only then sends `ShutdownRequested` on the control
lane.  The admission has one owner; whoever takes it has closed it.  The actor references hold it
weakly, and the environment of the actor closes or drops it on its own when it retires.

The lanes are those of the `communication` crate.  Closing the admission linearizes: a send that has
acquired its sender before may still publish afterwards, and no later send acquires one.  The
control lane accepts an event as long as there is a consumer.

What the environment does here it does in any order, so nothing rests on how it retires.
-/

set_option autoImplicit false

namespace Local.Shutdown

open Machine List Option

/-! ## The incarnation -/

/-- Who asks. -/
inductive Requester
  /-- The interpreter of `ShutdownChild`, which observes the child when it is accepted. -/
  | child
  /-- `InstalledActor::request_shutdown`. -/
  | established
  /-- `ApplicationLifecycle::shutdown`, which has to upgrade its control sender first. -/
  | application
  /-- `BombayEntityRuntime::retire`. -/
  | entity
  deriving DecidableEq

/-- Why a request is refused. -/
inductive ShutdownRejection
  | alreadyStopping
  | alreadyStopped
  deriving DecidableEq

/-- What has happened to the incarnation, by the threads that did it. -/
inductive Event
  /-- The user admission is closed, by a request or by the environment. -/
  | closed (requester : Option ℕ)
  /-- `ShutdownRequested` enters the control lane. -/
  | sent (requester : ℕ)
  /-- A send of a user message acquires its sender. -/
  | admitted (sender : ℕ)
  /-- The termination is published. -/
  | terminated
  | refused (requester : ℕ) (reason : ShutdownRejection)
  /-- `TerminationObservations::insert_child`. -/
  | observed (requester : ℕ)
  deriving DecidableEq

/-- The admission with its owner and its lock, the lanes, and the termination. -/
structure Incarnation where
  /-- The strong references of the `Admission`. -/
  strong : ℕ
  /-- `Admission::owner`. -/
  owner : Bool
  locked : Bool
  /-- Whether the user lane gives out senders. -/
  admits : Bool
  /-- Whether there is a strong control sender. -/
  control : Bool
  consumer : Bool
  termination : Bool
  log : List Event

/-- An incarnation that runs. -/
def Incarnation.new : Incarnation where
  strong := 1
  owner := true
  locked := false
  admits := true
  control := true
  consumer := true
  termination := false
  log := []

/-! ## Places -/

/-- Where a thread is. -/
inductive Place
  -- `request_actor_shutdown`, and what is around it
  | request (requester : Requester)
  | upgradeControl
  | load (requester : Requester)
  | upgrade (requester : Requester)
  | take (requester : Requester)
  | close (requester : Requester)
  | unlock (requester : Requester) (closed : Bool)
  | inject (requester : Requester)
  | send (requester : Requester)
  | reject (requester : Requester)
  | register
  | returned (requester : Requester) (rejection : Option ShutdownRejection)
  | unwound
  -- a send of a user message
  | message
  | sending
  | settled
  -- the environment, with its strong reference to the admission
  | environment (admission : Bool)
  | retire
  | retireClose

/-- What the surroundings contribute. -/
inductive Input
  | advance
  /-- The user's event injection, or a registered waker, panics. -/
  | panics
  -- what the environment does
  | retire
  | drain
  | dropAdmission
  | dropControl
  | terminate

/-! ## The code -/

abbrev Section := Option (Incarnation × Place × Option Place)

def goto (s : Incarnation) (p : Place) : Section := some (s, p, none)

namespace Incarnation

variable (s : Incarnation)

def write (e : Event) : Incarnation := { s with log := s.log ++ [e] }

/-- `MailboxOwner::close_admission`, or the drop of the owner. -/
def shut (requester : Option ℕ) : Incarnation :=
  { s with admits := false, log := s.log ++ [.closed requester] }

/-- The drop of a strong reference, and of the owner with the last one. -/
def release : Incarnation :=
  if s.strong = 1 ∧ s.owner then { s with strong := 0, owner := false }.shut none
  else { s with strong := s.strong - 1 }

end Incarnation

/-- The code of the requests, the sends and the environment. -/
def act : Code Incarnation Place Input := fun s self _ p i =>
  match p, i with
  | .request .application, .advance =>
    if s.termination then goto (s.write (.refused self .alreadyStopped))
      (.returned .application (some .alreadyStopped))
    else goto s .upgradeControl
  | .request requester, .advance => goto s (.load requester)
  | .upgradeControl, .advance =>
    goto s (if s.control then .load .application else .reject .application)
  -- `recipient.termination.try_get()`
  | .load requester, .advance =>
    if s.termination then goto (s.write (.refused self .alreadyStopped))
      (.returned requester (some .alreadyStopped))
    else goto s (.upgrade requester)
  -- `Admission::close_from_endpoint`
  | .upgrade requester, .advance =>
    if s.strong = 0 then goto s (.reject requester)
    else goto { s with strong := s.strong + 1 } (.take requester)
  | .take requester, .advance =>
    if s.locked then none
    else if s.owner then goto { s with owner := false, locked := true } (.close requester)
    else goto s (.unlock requester false)
  | .close requester, .advance =>
    goto { s.shut (some self) with locked := false } (.unlock requester true)
  | .close _, .panics => goto { s.shut (some self) with locked := false }.release .unwound
  | .unlock requester closed, .advance =>
    goto s.release (if closed then .inject requester else .reject requester)
  -- `control.send(ingress.event(ShutdownRequested))`
  | .inject requester, .advance => goto s (.send requester)
  | .inject _, .panics => goto s .unwound
  | .send requester, .advance =>
    if s.consumer then goto (s.write (.sent self))
      (if requester = .child then .register else .returned requester none)
    else goto s (.reject requester)
  | .send _, .panics => if s.consumer then goto (s.write (.sent self)) .unwound else none
  -- `ActorRef::shutdown_rejection`
  | .reject requester, .advance =>
    if s.termination then goto (s.write (.refused self .alreadyStopped))
      (.returned requester (some .alreadyStopped))
    else goto (s.write (.refused self .alreadyStopping))
      (.returned requester (some .alreadyStopping))
  | .register, .advance => goto (s.write (.observed self)) (.returned .child none)
  -- a send of a user message
  | .message, .advance =>
    if s.admits then goto (s.write (.admitted self)) .sending else goto s .settled
  | .sending, .advance => goto s .settled
  -- the environment
  | .environment true, .retire => goto s .retire
  | .retire, .advance =>
    if s.locked then none
    else if s.owner then goto { s with owner := false, locked := true } .retireClose
    else goto s (.environment true)
  | .retireClose, .advance | .retireClose, .panics =>
    goto { s.shut none with locked := false } (.environment true)
  | .environment true, .dropAdmission => goto s.release (.environment false)
  | .environment admission, .drain => goto { s with consumer := false } (.environment admission)
  | .environment admission, .dropControl =>
    goto { s with control := false } (.environment admission)
  | .environment admission, .terminate =>
    goto { s with termination := true, log := s.log ++ [.terminated] } (.environment admission)
  | _, _ => none

/-- Requests and sends may begin at any time. -/
def Place.joins : Place → Bool
  | request _ | message => true
  | _ => false

/-- A thread runs, or a request begins. -/
def step : Pool Incarnation Place → Schedule Place Input → Option (Pool Incarnation Place) :=
  Pool.step Place.joins act

/-- An active incarnation and its environment. -/
def start : Pool Incarnation Place := ⟨.new, [.environment true]⟩

/-- The incarnation comes to `w` by the history `tr`. -/
abbrev IncarnationRun (tr : List (Transition (Pool Incarnation Place) (Schedule Place Input)))
    (w : Pool Incarnation Place) : Prop := Run step start tr w

/-! ## What may happen when -/

/-- Closings of the admission. -/
def Event.closes : Event → Bool
  | closed _ => true
  | _ => false

/-- Submissions to the control lane. -/
def Event.sends : Event → Bool
  | sent _ => true
  | _ => false

/-- What an event needs of the events before it. -/
def Allowed (before : List Event) : Event → Prop
  | .closed _ => ∀ e ∈ before, e.closes = false
  | .sent t => .closed (some t) ∈ before ∧ ∀ e ∈ before, e.sends = false
  | .admitted _ => ∀ e ∈ before, e.closes = false
  | .terminated => True
  | .refused _ .alreadyStopping => True
  | .refused _ .alreadyStopped => .terminated ∈ before
  | .observed t => .sent t ∈ before ∧ .observed t ∉ before

/-- The threads that have taken the owner and not closed the admission yet. -/
def Place.closing : Place → ℕ
  | close _ | retireClose => 1
  | _ => 0

/-- What the log says of a thread at its place. -/
def Tracks (log : List Event) (t : ℕ) : Place → Prop
  | .unlock _ true | .inject _ | .send _ =>
    .closed (some t) ∈ log ∧ .sent t ∉ log ∧ .observed t ∉ log
  | .register => .sent t ∈ log ∧ .observed t ∉ log
  | .returned requester none => .sent t ∈ log ∧ (.observed t ∈ log ↔ requester = .child)
  | .returned _ (some reason) => .refused t reason ∈ log ∧ .sent t ∉ log ∧ .observed t ∉ log
  | .unwound => .closed (some t) ∈ log ∧ .observed t ∉ log
  | _ => .sent t ∉ log ∧ .observed t ∉ log

/-- What justifies a section to write an event. -/
def Reason (s : Incarnation) (t : ℕ) (p : Place) : Event → Prop
  | .closed _ | .terminated => True
  | .sent u => u = t ∧ ∃ requester, p = .send requester
  | .admitted _ => s.admits = true
  | .refused _ reason => reason = .alreadyStopped → s.termination = true
  | .observed u => u = t ∧ p = .register

/-- **What one section does.**  It writes at most one event, and nothing but that event changes what
the invariants speak of. -/
structure Effect (s : Incarnation) (t : ℕ) (p : Place) (e : Option Event) (s' : Incarnation)
    (p' : Place) : Prop where
  log : s'.log = s.log ++ e.toList
  owner : s'.owner.toNat + p'.closing + e.toList.countP Event.closes = s.owner.toNat + p.closing
  admits : s'.admits = (s.admits && e.toList.all fun x => !x.closes)
  termination : s'.termination = true → s.termination = true ∨ e = some .terminated
  reason : ∀ x, e = some x → Reason s t p x
  tracks : Tracks s.log t p → Tracks s'.log t p'

variable {s s' : Incarnation} {t : ℕ} {p p' : Place}

theorem Effect.quiet (howner : s'.owner.toNat + p'.closing = s.owner.toNat + p.closing := by rfl)
    (htracks : Tracks s.log t p → Tracks s.log t p' := by exact id)
    (hlog : s'.log = s.log := by rfl) (hadmits : s'.admits = s.admits := by rfl)
    (htermination : s'.termination = s.termination := by rfl) : Effect s t p none s' p' where
  log := by rw [hlog]; simp
  owner := by simpa using howner
  admits := by simpa using hadmits
  termination := by rw [htermination]; exact .inl
  reason := nofun
  tracks := by rw [hlog]; exact htracks

variable {e : Event}

theorem Effect.writes
    (hreason : Reason s t p e) (htracks : Tracks s.log t p → Tracks (s.log ++ [e]) t p')
    (he : e.closes = false := by rfl) (hclosing : p'.closing = p.closing := by rfl) :
    Effect s t p (some e) (s.write e) p' where
  log := rfl
  owner := by simp [Incarnation.write, hclosing, he]
  admits := by simp [Incarnation.write, he]
  termination := .inl
  reason := by
    intro x hx
    exact some.inj hx ▸ hreason
  tracks := htracks

theorem Effect.release (hclosing : p'.closing = p.closing)
    (htracks : ∀ log, Tracks log t p → Tracks log t p')
    (hclosed : Tracks s.log t p → Tracks (s.log ++ [.closed none]) t p) :
    ∃ e, Effect s t p e s.release p' := by
  unfold Incarnation.release
  split
  · next h =>
    refine ⟨some (.closed none), rfl, ?_, ?_, .inl, ?_, fun h => htracks _ (hclosed h)⟩
    · simp [Incarnation.shut, hclosing, h.2, Event.closes, Nat.add_comm]
    · simp [Incarnation.shut, Event.closes]
    · intro x hx
      exact some.inj hx ▸ trivial
  · exact ⟨none, .quiet (by rw [hclosing]) (htracks _)⟩

variable {log : List Event}

theorem Tracks.append (h : Tracks log t p)
    (hsent : e ≠ .sent t) (hobs : e ≠ .observed t) : Tracks (log ++ [e]) t p := by
  unfold Tracks at h ⊢
  split at h <;> simp_all [Ne.symm hsent, Ne.symm hobs]

variable {q : Option Place}

theorem goes {u} {r : Place} {e} (h : goto u r = some (s', p', q)) (he : Effect s t p e u r) :
    q = none ∧ ∃ e, Effect s t p e s' p' := by
  cases h
  exact ⟨rfl, e, he⟩

theorem Reason.others {u : ℕ} (h : Reason s t p e)
    (hu : u ≠ t) : e ≠ .sent u ∧ e ≠ .observed u := by
  refine ⟨?_, ?_⟩
  all_goals
    rintro rfl
    exact hu h.1

theorem Tracks.refused {requester : Requester} {reason} (h : .sent t ∉ log ∧ .observed t ∉ log) :
    Tracks (log ++ [.refused t reason]) t (.returned requester (some reason)) := by
  simpa [Tracks] using h

theorem Effect.closes {k : ℕ} {c} (hclosing : p.closing = 1) (hclosing' : p'.closing = 0)
    (htracks : Tracks s.log t p → Tracks (s.log ++ [.closed c]) t p') :
    Effect s t p (some (.closed c)) { s.shut c with locked := false, strong := k } p' where
  log := rfl
  owner := by simp [Incarnation.shut, hclosing, hclosing', Event.closes]
  admits := by simp [Incarnation.shut, Event.closes]
  termination := .inl
  reason := by
    intro x hx
    exact some.inj hx ▸ trivial
  tracks := htracks

theorem Incarnation.release_of_taken (h : s.owner = false) :
    s.release = { s with strong := s.strong - 1 } := by
  rw [Incarnation.release, if_neg]
  rintro ⟨-, howner⟩
  exact absurd (h.symm.trans howner) Bool.false_ne_true

/-- **Every section has an effect.**  Whoever is about to close the admission has its owner. -/
theorem act_effect {n : ℕ} {i : Input}
    (howner : p.closing = 1 → s.owner = false) (h : act s t n p i = some (s', p', q)) :
    q = none ∧ ∃ e, Effect s t p e s' p' := by
  unfold act at h
  split at h
  -- the application looks for the termination before it upgrades
  · split at h
    · next hterminated => exact goes h (.writes (fun _ => hterminated) Tracks.refused)
    · exact goes h .quiet
  · exact goes h .quiet
  · refine goes h (e := none) ?_
    split
    · exact .quiet
    · exact .quiet
  · split at h
    · next hterminated => exact goes h (.writes (fun _ => hterminated) Tracks.refused)
    · exact goes h .quiet
  -- `Admission::close_from_endpoint`
  · split at h
    all_goals exact goes h .quiet
  · split at h
    · cases h
    · split at h
      · next howned => exact goes h (.quiet (by rw [howned]; rfl))
      · exact goes h .quiet
  · exact goes h (.closes (k := s.strong) rfl rfl fun hp => by simpa [Tracks] using hp)
  · -- the wakers panic once the admission is closed
    rw [Incarnation.release_of_taken (s := { s.shut (some t) with locked := false }) (howner rfl)]
      at h
    exact goes h (.closes rfl rfl fun hp => by simpa [Tracks] using hp.2)
  · next requester closed =>
    obtain ⟨e, he⟩ : ∃ e, Effect s t (.unlock requester closed) e s.release
        (if closed then .inject requester else .reject requester) :=
      Effect.release (by cases closed <;> rfl) (fun log hp => by cases closed <;> exact hp)
        fun hp => hp.append nofun nofun
    exact goes h he
  -- `control.send(ingress.event(ShutdownRequested))`
  · exact goes h .quiet
  · exact goes h (.quiet rfl fun hp => ⟨hp.1, hp.2.2⟩)
  · next requester =>
    split at h
    · refine goes h (.writes ⟨rfl, requester, rfl⟩ (fun hp => ?_) rfl (by split <;> rfl))
      split
      · exact ⟨by simp, by simpa using hp.2.2⟩
      · next hchild => exact ⟨by simp, by simpa [hchild] using hp.2.2⟩
    · exact goes h (.quiet rfl fun hp => hp.2)
  · next requester =>
    split at h
    · refine goes h (.writes ⟨rfl, requester, rfl⟩ fun hp => ?_)
      simpa [Tracks] using And.intro hp.1 hp.2.2
    · cases h
  · split at h
    · next hterminated => exact goes h (.writes (fun _ => hterminated) Tracks.refused)
    · exact goes h (.writes nofun Tracks.refused)
  · refine goes h (.writes ⟨rfl, rfl⟩ fun hp => ?_)
    simpa [Tracks] using hp.1
  -- a send of a user message
  · split at h
    · next hadmits => exact goes h (.writes hadmits fun hp => Tracks.append hp nofun nofun)
    · exact goes h .quiet
  · exact goes h .quiet
  -- the environment
  · exact goes h .quiet
  · split at h
    · cases h
    · split at h
      · next howned => exact goes h (.quiet (by rw [howned]; rfl))
      · exact goes h .quiet
  iterate 2
    · exact goes h (.closes (k := s.strong) rfl rfl fun hp => Tracks.append hp nofun nofun)
  · obtain ⟨e, he⟩ : ∃ e, Effect s t (.environment true) e s.release (.environment false) :=
      Effect.release rfl (fun _ hp => hp) fun hp => hp.append nofun nofun
    exact goes h he
  · exact goes h .quiet
  · exact goes h .quiet
  · refine goes h (e := some .terminated)
      ⟨rfl, rfl, by simp [Event.closes], fun _ => .inr rfl, ?_, ?_⟩
    · intro x hx
      exact some.inj hx ▸ trivial
    · exact fun hp => Tracks.append hp nofun nofun
  · cases h

/-! ## The invariant -/

/-- What holds around an incarnation. -/
structure Sound (w : Pool Incarnation Place) : Prop where
  justified : Justified Allowed w.shared.log
  /-- The owner is in the admission, taken, or has closed it. -/
  owner : w.shared.owner.toNat + total Place.closing w.threads +
    w.shared.log.countP Event.closes = 1
  admits : w.shared.admits = w.shared.log.all fun x => !x.closes
  terminated : w.shared.termination = true → .terminated ∈ w.shared.log
  tracks : Each (Tracks w.shared.log) w.threads
  /-- The log speaks of threads that there are. -/
  unborn : ∀ t, w.threads.length ≤ t → .sent t ∉ w.shared.log ∧ .observed t ∉ w.shared.log

theorem start_sound : Sound start where
  justified := .nil
  owner := rfl
  admits := rfl
  terminated := nofun
  tracks := by
    refine each_append (q := some (Place.environment true)) (each_nil _) fun p hp => ?_
    cases hp
    exact ⟨not_mem_nil, not_mem_nil⟩
  unborn := fun _ _ => ⟨not_mem_nil, not_mem_nil⟩

namespace Sound

variable {w : Pool Incarnation Place}

variable {p : Place}

theorem join (h : Sound w) (hp : p.joins) : Sound ⟨w.shared, w.threads ++ [p]⟩ where
  justified := h.justified
  owner := by
    have hzero : p.closing = 0 := by
      unfold Place.joins at hp
      split at hp
      · rfl
      · rfl
      · cases hp
    rw [total_append, total_cons, total_nil, hzero]
    exact h.owner
  admits := h.admits
  terminated := h.terminated
  tracks := by
    refine each_append (q := some p) h.tracks fun r hr => ?_
    obtain rfl := some.inj hr
    unfold Place.joins at hp
    split at hp
    · exact h.unborn _ (Nat.le_refl _)
    · exact h.unborn _ (Nat.le_refl _)
    · cases hp
  unborn := by
    intro t ht
    rw [length_append] at ht
    exact h.unborn t (by omega)

theorem not_closed (h : Sound w) (hcan : 1 ≤ w.shared.owner.toNat + total Place.closing w.threads) :
    ∀ e ∈ w.shared.log, e.closes = false := by
  have hnone : w.shared.log.countP Event.closes = 0 := by
    have := h.owner
    omega
  exact fun e he => Bool.eq_false_iff.mpr (countP_eq_zero.mp hnone e he)

variable {t : ℕ}

theorem taken (h : Sound w) (hp : w.threads[t]? = some p)
    (hclosing : p.closing = 1) : w.shared.owner = false := by
  have hle := le_total Place.closing hp
  have := h.owner
  cases howner : w.shared.owner with
  | false => rfl
  | true =>
    rw [howner] at this
    simp only [Bool.toNat_true] at this
    omega

theorem closer_unique (h : Sound w) {c c'} (hc : .closed c ∈ w.shared.log)
    (hc' : .closed c' ∈ w.shared.log) : c = c' := by
  have heq :=
    h.justified.unique (P := fun e => e.closes = true) (fun before x hx hcloses e he => ?_)
    hc hc' rfl rfl
  · exact Event.closed.inj heq
  · cases x with
    | closed => exact Bool.eq_false_iff.mp (hx e he)
    | _ => cases hcloses

variable {p' : Place} {e : Option Event} {s' : Incarnation}

theorem allowed (h : Sound w) {x : Event} (hp : w.threads[t]? = some p)
    (heffect : Effect w.shared t p e s' p') (hx : e = some x) : Allowed w.shared.log x := by
  have hreason := heffect.reason x hx
  have htracks := h.tracks t p hp
  cases x with
  | closed =>
    refine h.not_closed ?_
    have howner := heffect.owner
    have hle := le_total Place.closing hp
    rw [hx] at howner
    simp only [toList_some, countP_singleton, Event.closes, if_true] at howner
    omega
  | sent =>
    obtain ⟨rfl, requester, rfl⟩ := hreason
    obtain ⟨hclosed, hsent, -⟩ := htracks
    refine ⟨hclosed, fun y hy => ?_⟩
    cases y with
    | sent v =>
      -- an earlier sender would have closed the admission, and that was this thread
      obtain ⟨before, after, hlog, hbefore⟩ := h.justified.of_mem hy
      have hv : .closed (some v) ∈ w.shared.log := hlog ▸ mem_append_left _ hbefore.1
      obtain rfl := some.inj (h.closer_unique hv hclosed)
      exact absurd hy hsent
    | _ => rfl
  | admitted =>
    have hall := h.admits.symm.trans hreason
    exact fun y hy => by simpa using all_eq_true.mp hall y hy
  | terminated => trivial
  | refused _ reason =>
    cases reason with
    | alreadyStopping => trivial
    | alreadyStopped => exact h.terminated (hreason rfl)
  | observed =>
    obtain ⟨rfl, rfl⟩ := hreason
    exact htracks

/-- **One section keeps it.** -/
theorem move (h : Sound w) (hp : w.threads[t]? = some p) (heffect : Effect w.shared t p e s' p') :
    Sound ⟨s', w.threads.set t p'⟩ where
  justified := by
    rw [heffect.log]
    cases he : e with
    | none => simpa using h.justified
    | some => exact h.justified.snoc (h.allowed hp heffect he)
  owner := by
    have hset := total_set Place.closing p' hp
    have howner := heffect.owner
    have := h.owner
    rw [heffect.log, countP_append]
    dsimp only
    omega
  admits := by
    rw [heffect.admits, heffect.log, h.admits, all_append]
  terminated := by
    intro ht
    rw [heffect.log]
    rcases heffect.termination ht with ht | rfl
    · exact mem_append_left _ (h.terminated ht)
    · simp
  tracks := by
    refine each_set h.tracks hp heffect.tracks fun u r hu hr => ?_
    rw [heffect.log]
    cases he : e with
    | none => simpa using hr
    | some x =>
      obtain ⟨hsent, hobs⟩ := (heffect.reason x he).others hu
      exact hr.append hsent hobs
  unborn := by
    intro u hu
    rw [length_set] at hu
    have hlt := lt_of_get hp
    obtain ⟨hsent, hobs⟩ := h.unborn u hu
    rw [heffect.log]
    cases he : e with
    | none => simpa using h.unborn u hu
    | some x =>
      obtain ⟨hsent', hobs'⟩ := (heffect.reason x he).others (u := u) (by omega)
      simp [hsent, hobs, Ne.symm hsent', Ne.symm hobs']

end Sound

variable {tr : List (Transition (Pool Incarnation Place) (Schedule Place Input))}
    {w : Pool Incarnation Place}

/-- **In every run.** -/
theorem sound_run (h : IncarnationRun tr w) : Sound w := by
  refine Pool.invariant h start_sound (fun _ _ _ _ hw hjoins => hw.join hjoins) ?_
  intro tr w t i p s p' q _ hw hp hact
  obtain ⟨rfl, e, heffect⟩ := act_effect (hw.taken hp) hact
  simpa using hw.move hp heffect

/-! ## One request -/

/-- At most one request shuts an incarnation down. -/
structure OneRequest (w : Pool Incarnation Place) : Prop where
  /-- At most one `ShutdownRequested` enters the control lane. -/
  sent : w.shared.log.countP Event.sends ≤ 1
  /-- The admission is closed at most once. -/
  closed : w.shared.log.countP Event.closes ≤ 1
  /-- Whoever submits it has closed the admission before. -/
  sender : ∀ {t : ℕ} {before after : List Event}, w.shared.log = before ++ .sent t :: after →
    .closed (some t) ∈ before
  /-- No user message is admitted once the admission is closed. -/
  sealed : ∀ {c : Option ℕ} {before after : List Event},
    w.shared.log = before ++ .closed c :: after → ∀ m, .admitted m ∉ after
  /-- A request is accepted exactly when it submitted the event. -/
  accepted : ∀ {t : ℕ} {requester : Requester} {rejection : Option ShutdownRejection},
    w.threads[t]? = some (.returned requester rejection) →
    (rejection = none ↔ .sent t ∈ w.shared.log)
  /-- And refused for the reason it was given otherwise. -/
  refused : ∀ {t : ℕ} {requester : Requester} {reason : ShutdownRejection},
    w.threads[t]? = some (.returned requester (some reason)) → .refused t reason ∈ w.shared.log
  /-- Only the request that closed the admission can unwind. -/
  unwound : ∀ {t : ℕ}, w.threads[t]? = some .unwound → .closed (some t) ∈ w.shared.log
  /-- A request that is told that the actor has stopped comes after the termination. -/
  stopped : ∀ {t : ℕ} {before after : List Event},
    w.shared.log = before ++ .refused t .alreadyStopped :: after → .terminated ∈ before
  /-- An accepted child shutdown registers one observation. -/
  observed : ∀ {t : ℕ}, w.threads[t]? = some (.returned .child none) →
    w.shared.log.count (.observed t) = 1
  /-- And nothing else registers one. -/
  unobserved : ∀ {t : ℕ} {requester : Requester} {rejection : Option ShutdownRejection},
    w.threads[t]? = some (.returned requester rejection) →
    ¬(requester = .child ∧ rejection = none) → w.shared.log.count (.observed t) = 0

theorem allowed_sends (before : List Event) (x : Event) (hx : Allowed before x) (hsends : x.sends) :
    ∀ y ∈ before, y.sends = false := by
  cases x with
  | sent => exact hx.2
  | _ => cases hsends

theorem allowed_closes (before : List Event) (x : Event) (hx : Allowed before x)
    (hcloses : x.closes) : ∀ y ∈ before, y.closes = false := by
  cases x with
  | closed => exact hx
  | _ => cases hcloses

theorem allowed_observes (t : ℕ) (before : List Event) (x : Event) (hx : Allowed before x)
    (hobs : x == .observed t) : ∀ y ∈ before, (y == .observed t) = false := by
  obtain rfl := eq_of_beq hobs
  exact fun y hy => beq_eq_false_iff_ne.mpr fun h => hx.2 (h ▸ hy)

/-- **One shutdown request per incarnation.**  However the requests, the sends and the retirement of
the incarnation interleave, one request at most is accepted: the one that closed the admission. -/
theorem one_shutdown_request
    {tr : List (Transition (Pool Incarnation Place) (Schedule Place Input))}
    {w : Pool Incarnation Place} (h : IncarnationRun tr w) : OneRequest w := by
  have hw := sound_run h
  refine ⟨hw.justified.countP_le_one allowed_sends, hw.justified.countP_le_one allowed_closes,
    fun hlog => (hw.justified.reason hlog).1, fun {c before after} hlog m hm => ?_,
    fun {t requester rejection} hp => ?_, fun hp => (hw.tracks _ _ hp).1,
    fun hp => (hw.tracks _ _ hp).1, fun hlog => hw.justified.reason hlog, fun {t} hp => ?_,
    fun {t requester rejection} hp hne => ?_⟩
  · obtain ⟨between, rest, rfl⟩ := append_of_mem hm
    rw [← cons_append, ← append_assoc] at hlog
    have hadmitted : Allowed (before ++ .closed c :: between) (.admitted m) :=
      hw.justified.reason hlog
    exact absurd (hadmitted (.closed c) (by simp)) (by simp [Event.closes])
  · have htracks := hw.tracks t _ hp
    cases rejection with
    | none => exact iff_of_true rfl htracks.1
    | some reason => exact iff_of_false (some_ne_none reason) htracks.2.1
  · have hmem : .observed t ∈ w.shared.log := (hw.tracks t _ hp).2.mpr rfl
    exact Nat.le_antisymm (hw.justified.countP_le_one (allowed_observes t)) (count_pos_iff.mpr hmem)
  · have htracks := hw.tracks t _ hp
    refine count_eq_zero.mpr ?_
    cases rejection with
    | none => exact fun hmem => hne ⟨htracks.2.mp hmem, rfl⟩
    | some => exact htracks.2.2

/-- A parent shuts its child down after one message and before another; the application comes too
late, and the entity runtime after the termination. -/
theorem one_shutdown_request_of_four :
    ∃ tr w, IncarnationRun tr w ∧ OneRequest w ∧
      w.shared.log = [.admitted 1, .closed (some 2), .sent 2, .observed 2,
        .refused 3 .alreadyStopping, .terminated, .refused 4 .alreadyStopped] := by
  have h : ((exec step start
      ([.call .message, .run 1 .advance, .call (.request .child), .call (.request .application)] ++
        List.replicate 9 (.run 2 .advance) ++ List.replicate 7 (.run 3 .advance) ++
        [.call (.request .entity), .run 0 .terminate, .run 4 .advance, .run 4 .advance])).map
          fun p => p.2.shared.log) =
      some [.admitted 1, .closed (some 2), .sent 2, .observed 2, .refused 3 .alreadyStopping,
        .terminated, .refused 4 .alreadyStopped] := by
    decide +kernel
  obtain ⟨⟨tr, w⟩, hexec, heq⟩ := map_eq_some_iff.mp h
  exact ⟨tr, w, exec_run hexec, one_shutdown_request (exec_run hexec), heq⟩

end Local.Shutdown
