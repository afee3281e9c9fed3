import Bombay.Machine.Run
import Bombay.Entity.Lifecycle

/-!
# What one decision can do

`EntitySlot.decide` is a table of five phases by ten kinds of fact, most of it wildcard arms.
`Decides` is the same table read by rows of *behaviour*: nineteen rules, each saying which state
and fact it applies to, what state it installs and which effects it emits.  `decide_follows` is
the only proof in the development that opens the reducer; every invariant of a slot is a case
analysis on `Decides` instead.

`decide` also reports what kind of step each decision was.  The evidence is chosen branch by
branch, apart from the state, so nothing in the code ties the two together.  `Weighs` is the tie: an
ignored fact leaves the slot alone and gives back only what it brought, a self loop keeps the phase,
and a traversal leaves it; the last two never come from a fact about another activation.

`history` is the run of a slot over a list of facts, as a `Machine.Run` of the (total) step
function `slotStep`; `history_run` and `decideAll_effects` connect it with `decideAll`.
-/

set_option autoImplicit false

namespace Entity

open Machine List ActivationId

variable {C E L : Type*}

/-- The effects that return a failed delivery to its caller. -/
def returned (failure : Option (DispatchId × C)) : List (SlotEffect C E L) :=
  failure.toList.map fun p => .reject p.1 p.2 .unavailable

/-- The facts a slot ignores: those that own nothing and do not name what the slot waits for. -/
def SlotEvent.Idle : SlotEvent C E L → EntitySlot C E L → Prop
  | .cancelWaiter a _, .activating st => st.activationId ≠ a
  | .activationFailed a, .activating st => st.activationId ≠ a
  | .beginDrain a, .active st => st.activationId ≠ a
  | .fenceAcknowledged a, .draining st =>
    st.activationId ≠ a ∨ st.progress ≠ .fenceAcknowledgement
  | .forceDrain a _, .draining st => st.activationId ≠ a
  | .terminated a, .retiring b => b ≠ a
  | .cancelWaiter .., _ | .activationFailed .., _ | .beginDrain .., _ | .fenceAcknowledged .., _
  | .forceDrain .., _ | .terminated .., _ => True
  | _, _ => False

/-- What a slot can do with a fact. -/
inductive Decides : EntitySlot C E L → SlotEvent C E L → EntitySlot C E L →
    List (SlotEffect C E L) → Prop
  /-- An inactive slot takes the claim. -/
  | claim (a d c limit) :
      Decides .inactive (.claimActivation a d c limit)
        (.activating ⟨a, [⟨d, c⟩], limit, limit.2⟩) [.startActivation a]
  /-- Every other slot refuses it. -/
  | refuseClaim {s} (a d c limit reason) (h : s ≠ .inactive) :
      Decides s (.claimActivation a d c limit) s [.reject d c reason]
  /-- A slot that is neither active nor has room for a waiter refuses a command. -/
  | refuse {s} (d c reason) (h : s.phase ≠ .active)
      (full : ∀ st, s = .activating st → ¬ st.waiters.length < st.waiterLimit.1) :
      Decides s (.dispatch d c) s [.reject d c reason]
  | wait (st d c) (room : st.waiters.length < st.waiterLimit.1) :
      Decides (.activating st) (.dispatch d c) (.activating (st.push ⟨d, c⟩ room)) []
  | cancel (st d) :
      Decides (.activating st) (.cancelWaiter st.activationId d) (.activating (st.retain d)) []
  | activate (st endpoint lease) :
      Decides (.activating st) (.activationSucceeded st.activationId endpoint lease)
        (.active ⟨st.activationId, endpoint, lease, ReservationCount.fromLen st.waiters.length⟩)
        (st.waiters.map fun w => .deliver st.activationId w.dispatchId endpoint w.command)
  /-- A lease nobody waits for is retired at once. -/
  | stale {s} (a endpoint lease) (h : ∀ st, s = .activating st → st.activationId ≠ a) :
      Decides s (.activationSucceeded a endpoint lease) s
        [.retire a lease (.forced ⟨.retirement, 0⟩)]
  | fail (st) :
      Decides (.activating st) (.activationFailed st.activationId) .inactive
        ((st.waiters.map fun w => .reject w.dispatchId w.command .unavailable)
          ++ [.remove st.activationId])
  | reserve (st d c) :
      Decides (.active st) (.dispatch d c)
        (.active { st with reservations := st.reservations.reserve })
        [.deliver st.activationId d st.endpoint c]
  /-- A delivery nobody reserved only returns its command. -/
  | late {s} (a failure)
      (hactive : ∀ st, s = .active st → st.activationId = a → st.reservations = .drained)
      (hdraining : ∀ st, s = .draining st → st.activationId = a →
        st.progress = .fenceAcknowledgement) :
      Decides s (.deliveryResolved a failure) s (returned failure)
  | resolve (st failure r) (h : st.reservations.get = r.get + 1) :
      Decides (.active st) (.deliveryResolved st.activationId failure)
        (.active { st with reservations := r }) (returned failure)
  | resolveDraining (st failure n) (h : st.progress.get = n.1 + 1) :
      Decides (.draining st) (.deliveryResolved st.activationId failure)
        (.draining { st with progress := .reservations n }) (returned failure)
  /-- The last reservation of a draining slot releases the fence. -/
  | release (st failure) (h : st.progress.get = 1) :
      Decides (.draining st) (.deliveryResolved st.activationId failure)
        (.draining { st with progress := .fenceAcknowledgement })
        (returned failure ++ [.enqueueFence st.activationId st.endpoint])
  /-- Draining with nothing reserved enqueues the fence at once. -/
  | drainFenced (st) (h : st.reservations = .drained) :
      Decides (.active st) (.beginDrain st.activationId)
        (.draining ⟨st.activationId, st.endpoint, st.lease, .fenceAcknowledgement⟩)
        [.enqueueFence st.activationId st.endpoint]
  | drainReserved (st n) (h : st.reservations = .pending n) :
      Decides (.active st) (.beginDrain st.activationId)
        (.draining ⟨st.activationId, st.endpoint, st.lease, .reservations n⟩) []
  | acknowledge (st) (h : st.progress = .fenceAcknowledgement) :
      Decides (.draining st) (.fenceAcknowledged st.activationId) (.retiring st.activationId)
        [.retire st.activationId st.lease .graceful]
  | force (st failure) :
      Decides (.draining st) (.forceDrain st.activationId failure) (.retiring st.activationId)
        [.retire st.activationId st.lease (.forced failure)]
  | terminate (a) : Decides (.retiring a) (.terminated a) .inactive [.remove a]
  | ignore {s e} (h : e.Idle s) : Decides s e s []

/-! ## What the evidence says -/

/-- The activation a fact is about.  A claim brings a new one, and a dispatch is about none. -/
def SlotEvent.names : SlotEvent C E L → Option ActivationId
  | .claimActivation .. | .dispatch .. => none
  | .cancelWaiter a _ | .activationSucceeded a _ _ | .activationFailed a | .deliveryResolved a _
  | .beginDrain a | .fenceAcknowledged a | .forceDrain a _ | .terminated a => some a

/-- The commands a fact brings. -/
def SlotEvent.commands : SlotEvent C E L → List (DispatchId × C)
  | .claimActivation _ d c _ | .dispatch d c => [(d, c)]
  | .deliveryResolved _ failure => failure.toList
  | _ => []

/-- The lease a fact brings, with the activation it was supplied for. -/
def SlotEvent.leases : SlotEvent C E L → List (ActivationId × L)
  | .activationSucceeded a _ lease => [(a, lease)]
  | _ => []

/-- The effects that give back what a fact brought: nothing, its command, or its lease. -/
inductive GivesBack (e : SlotEvent C E L) : List (SlotEffect C E L) → Prop
  | nothing : GivesBack e []
  | command {d : DispatchId} {c : C} (h : (d, c) ∈ e.commands) (reason : Refusal) :
      GivesBack e [.reject d c reason]
  | lease {a : ActivationId} {l : L} (h : (a, l) ∈ e.leases) (mode : RetirementMode) :
      GivesBack e [.retire a l mode]

/-- What the evidence of a decision says about it. -/
inductive Weighs (s : EntitySlot C E L) (e : SlotEvent C E L) : SlotDecision C E L → Prop
  | ignored {effects : List (SlotEffect C E L)} (h : GivesBack e effects) :
      Weighs s e ⟨s, effects, .ignored⟩
  | looped {u : EntitySlot C E L} {effects : List (SlotEffect C E L)} (hp : u.phase = s.phase)
      (hn : ∀ a, e.names = some a → s.activationId = some a) : Weighs s e ⟨u, effects, .selfLoop⟩
  | traversed {u : EntitySlot C E L} {effects : List (SlotEffect C E L)} {edge : LifecycleEdge}
      (hp : u.phase ≠ s.phase) (hn : ∀ a, e.names = some a → s.activationId = some a) :
      Weighs s e ⟨u, effects, .traversed edge⟩

/-- A decision that follows a rule and has the evidence of it. -/
structure Follows (s : EntitySlot C E L) (e : SlotEvent C E L) (d : SlotDecision C E L) : Prop where
  decides : Decides s e d.state d.effects
  weighs : Weighs s e d

theorem follows_ignore {s : EntitySlot C E L} {e : SlotEvent C E L} (h : e.Idle s) :
    Follows s e ⟨s, [], .ignored⟩ := ⟨.ignore h, .ignored .nothing⟩

theorem follows_late (s : EntitySlot C E L) (a : ActivationId) (failure : Option (DispatchId × C))
    (hactive : ∀ st, s = .active st → st.activationId = a → st.reservations = .drained)
    (hdraining : ∀ st, s = .draining st → st.activationId = a →
      st.progress = .fenceAcknowledgement) :
    Follows s (.deliveryResolved a failure) (rejectFailedDelivery s failure .unavailable) := by
  have h := Decides.late (s := s) a failure hactive hdraining
  cases failure with
  | none => exact ⟨h, .ignored .nothing⟩
  | some p => exact ⟨h, .ignored (.command (mem_singleton_self p) _)⟩

theorem follows_stale (s : EntitySlot C E L) (a : ActivationId) (endpoint : E) (lease : L)
    (h : ∀ st, s = .activating st → st.activationId ≠ a) :
    Follows s (.activationSucceeded a endpoint lease) (retireStale s a lease) :=
  ⟨.stale a endpoint lease h, .ignored (.lease (mem_singleton_self (a, lease)) _)⟩

theorem follows_refuseClaim (s : EntitySlot C E L) (a : ActivationId) (d : DispatchId) (c : C)
    (limit : NonZeroUsize) (reason : Refusal) (h : s ≠ .inactive) :
    Follows s (.claimActivation a d c limit) (reject s d c reason) :=
  ⟨.refuseClaim a d c limit reason h, .looped rfl nofun⟩

theorem follows_refuse (s : EntitySlot C E L) (d : DispatchId) (c : C) (reason : Refusal)
    (h : s.phase ≠ .active)
    (full : ∀ st, s = .activating st → ¬ st.waiters.length < st.waiterLimit.1) :
    Follows s (.dispatch d c) (reject s d c reason) :=
  ⟨.refuse d c reason h full, .looped rfl nofun⟩

/-! ## The reducer follows the rules

One lemma per phase; the resolving helpers first. -/

theorem rejectFailedDelivery_eq (s : EntitySlot C E L) (failure : Option (DispatchId × C)) :
    rejectFailedDelivery s failure .unavailable = decision s (returned failure) := by
  cases failure <;> rfl

theorem resolveActiveDelivery_follows (st : ActiveSlot E L) (failure : Option (DispatchId × C)) :
    Follows (.active st) (.deliveryResolved st.activationId failure)
      (resolveActiveDelivery st failure) := by
  obtain ⟨a, endpoint, lease, reservations⟩ := st
  cases reservations with
  | drained => exact follows_late _ _ _ (fun _ h _ => by cases h; rfl) nofun
  | pending n =>
    have hn := n.2
    simp only [resolveActiveDelivery, ReservationCount.resolve, NonZeroUsize.new]
    by_cases hlt : 0 < n.1 - 1
    · simp only [hlt, dif_pos, rejectFailedDelivery_eq]
      exact ⟨.resolve _ _ _ (by simp only [ReservationCount.get]; omega), .looped rfl fun _ h => h⟩
    · simp only [hlt, dif_neg, not_false_eq_true, rejectFailedDelivery_eq]
      exact ⟨.resolve _ _ _ (by simp only [ReservationCount.get]; omega), .looped rfl fun _ h => h⟩

theorem resolveDrainingDelivery_follows (st : DrainingSlot E L)
    (failure : Option (DispatchId × C)) :
    Follows (.draining st) (.deliveryResolved st.activationId failure)
      (resolveDrainingDelivery st failure) := by
  obtain ⟨a, endpoint, lease, progress⟩ := st
  cases progress with
  | fenceAcknowledgement => exact follows_late _ _ _ nofun fun _ h _ => by cases h; rfl
  | reservations n =>
    have hn := n.2
    simp only [resolveDrainingDelivery, NonZeroUsize.new]
    by_cases hlt : 0 < n.1 - 1
    · simp only [hlt, dif_pos, rejectFailedDelivery_eq]
      exact ⟨.resolveDraining _ _ _ (by simp only [DrainProgress.get]; omega),
        .looped rfl fun _ h => h⟩
    · simp only [hlt, dif_neg, not_false_eq_true, rejectFailedDelivery_eq]
      exact ⟨.release _ _ (by simp only [DrainProgress.get]; omega), .looped rfl fun _ h => h⟩

theorem ActivatingSlot.retain_eq_self {state : ActivatingSlot C} {d : DispatchId}
    (h : ¬ (state.retain d).waiters.length < state.waiters.length) : state.retain d = state := by
  obtain ⟨a, waiters, limit, bounded⟩ := state
  simp only [retain, not_lt] at h
  have hall := filter_eq_self.mpr
    (length_filter_eq_length_iff.mp (Nat.le_antisymm (length_filter_le _ _) h))
  simp only [retain, hall]

theorem decideInactive_follows (e : SlotEvent C E L) : Follows .inactive e (decideInactive e) := by
  cases e with
  | claimActivation a d c limit => exact ⟨.claim a d c limit, .traversed nofun nofun⟩
  | dispatch d c => exact follows_refuse _ d c _ nofun nofun
  | activationSucceeded a endpoint lease => exact follows_stale _ a endpoint lease nofun
  | deliveryResolved a failure => exact follows_late _ a failure nofun nofun
  | _ => exact follows_ignore trivial

theorem decideActivating_follows (st : ActivatingSlot C) (e : SlotEvent C E L) :
    Follows (.activating st) e (decideActivating st e) := by
  cases e with
  | claimActivation a d c limit => exact follows_refuseClaim _ a d c limit _ nofun
  | dispatch d c =>
    simp only [decideActivating]
    split_ifs with room
    · exact ⟨.wait st d c room, .looped rfl nofun⟩
    · exact follows_refuse _ d c _ nofun fun _ h => by cases h; exact room
  | cancelWaiter a d =>
    simp only [decideActivating, classify_eq]
    rcases eq_or_ne st.activationId a with rfl | h
    · have hcancel := Decides.cancel (E := E) (L := L) st d
      simp only [if_true]
      split_ifs with hlt
      · exact ⟨hcancel, .looped rfl fun _ h => h⟩
      · rw [ActivatingSlot.retain_eq_self hlt] at hcancel ⊢
        exact ⟨hcancel, .ignored .nothing⟩
    · simp only [h, if_false]
      exact follows_ignore h
  | activationSucceeded a endpoint lease =>
    simp only [decideActivating, finishActivation, classify_eq]
    rcases eq_or_ne st.activationId a with rfl | h
    · simp only [if_true]
      exact ⟨.activate st endpoint lease, .traversed nofun fun _ h => h⟩
    · simp only [h, if_false]
      exact follows_stale _ a endpoint lease fun _ h' => by cases h'; exact h
  | activationFailed a =>
    simp only [decideActivating, failActivation, classify_eq]
    rcases eq_or_ne st.activationId a with rfl | h
    · simp only [if_true]
      exact ⟨.fail st, .traversed nofun fun _ h => h⟩
    · simp only [h, if_false]
      exact follows_ignore h
  | deliveryResolved a failure => exact follows_late _ a failure nofun nofun
  | _ => exact follows_ignore trivial

theorem decideActive_follows (st : ActiveSlot E L) (e : SlotEvent C E L) :
    Follows (.active st) e (decideActive st e) := by
  cases e with
  | claimActivation a d c limit => exact follows_refuseClaim _ a d c limit _ nofun
  | dispatch d c => exact ⟨.reserve st d c, .looped rfl nofun⟩
  | activationSucceeded a endpoint lease => exact follows_stale _ a endpoint lease nofun
  | deliveryResolved a failure =>
    simp only [decideActive, classify_eq]
    rcases eq_or_ne st.activationId a with rfl | h
    · simp only [if_true]
      exact resolveActiveDelivery_follows st failure
    · simp only [h, if_false]
      exact follows_late _ a failure (fun _ h' ha => by cases h'; exact absurd ha h) nofun
  | beginDrain a =>
    simp only [decideActive, classify_eq]
    rcases eq_or_ne st.activationId a with rfl | h
    · simp only [if_true, beginDrain]
      split
      · exact ⟨.drainFenced st (by assumption), .traversed nofun fun _ h => h⟩
      · exact ⟨.drainReserved st _ (by assumption), .traversed nofun fun _ h => h⟩
    · simp only [h, if_false]
      exact follows_ignore h
  | _ => exact follows_ignore trivial

theorem decideDraining_follows (st : DrainingSlot E L) (e : SlotEvent C E L) :
    Follows (.draining st) e (decideDraining st e) := by
  cases e with
  | claimActivation a d c limit => exact follows_refuseClaim _ a d c limit _ nofun
  | dispatch d c => exact follows_refuse _ d c _ nofun nofun
  | activationSucceeded a endpoint lease => exact follows_stale _ a endpoint lease nofun
  | deliveryResolved a failure =>
    simp only [decideDraining, classify_eq]
    rcases eq_or_ne st.activationId a with rfl | h
    · simp only [if_true]
      exact resolveDrainingDelivery_follows st failure
    · simp only [h, if_false]
      exact follows_late _ a failure nofun fun _ h' ha => by cases h'; exact absurd ha h
  | fenceAcknowledged a =>
    simp only [decideDraining, classify_eq]
    rcases eq_or_ne st.activationId a with rfl | h
    · simp only [if_true, acknowledgeFence]
      split
      · rename_i n hn
        exact follows_ignore (Or.inr (by rw [hn]; simp))
      · exact ⟨.acknowledge st (by assumption), .traversed nofun fun _ h => h⟩
    · simp only [h, if_false]
      exact follows_ignore (Or.inl h)
  | forceDrain a failure =>
    simp only [decideDraining, classify_eq]
    rcases eq_or_ne st.activationId a with rfl | h
    · simp only [if_true]
      exact ⟨.force st failure, .traversed nofun fun _ h => h⟩
    · simp only [h, if_false]
      exact follows_ignore h
  | _ => exact follows_ignore trivial

theorem decideRetiring_follows (a : ActivationId) (e : SlotEvent C E L) :
    Follows (.retiring a) e (decideRetiring a e) := by
  cases e with
  | claimActivation b d c limit => exact follows_refuseClaim _ b d c limit _ nofun
  | dispatch d c => exact follows_refuse _ d c _ nofun nofun
  | activationSucceeded b endpoint lease => exact follows_stale _ b endpoint lease nofun
  | deliveryResolved b failure => exact follows_late _ b failure nofun nofun
  | terminated b =>
    simp only [decideRetiring, classify_eq]
    rcases eq_or_ne a b with rfl | h
    · simp only [if_true]
      exact ⟨.terminate a, .traversed nofun fun _ h => h⟩
    · simp only [h, if_false]
      exact follows_ignore h
  | _ => exact follows_ignore trivial

/-- **Every decision follows one of the rules**, and its evidence is right. -/
theorem decide_follows (s : EntitySlot C E L) (e : SlotEvent C E L) : Follows s e (s.decide e) := by
  cases s with
  | inactive => exact decideInactive_follows e
  | activating st => exact decideActivating_follows st e
  | active st => exact decideActive_follows st e
  | draining st => exact decideDraining_follows st e
  | retiring a => exact decideRetiring_follows a e

theorem decide_decides (s : EntitySlot C E L) (e : SlotEvent C E L) :
    Decides s e (s.decide e).state (s.decide e).effects := (decide_follows s e).decides

/-! ## Histories -/

/-- The reducer as a machine.  It accepts every fact in every state. -/
def slotStep (s : EntitySlot C E L) (e : SlotEvent C E L) : Option (EntitySlot C E L) :=
  some (s.decide e).state

/-- The transitions a slot makes over a list of facts. -/
abbrev SlotHistory (C E L : Type*) := List (Transition (EntitySlot C E L) (SlotEvent C E L))

/-- The run of a slot over a list of facts. -/
def history : EntitySlot C E L → List (SlotEvent C E L) → SlotHistory C E L
  | _, [] => []
  | s, e :: es => ⟨s, e, (s.decide e).state⟩ :: history (s.decide e).state es

/-- The effects one transition of a slot emits. -/
def emitted (x : Transition (EntitySlot C E L) (SlotEvent C E L)) : List (SlotEffect C E L) :=
  (x.source.decide x.input).effects

/-- The effects a history emits, in order. -/
def effects (tr : SlotHistory C E L) : List (SlotEffect C E L) := tr.flatMap emitted

@[simp] theorem effects_nil : effects ([] : SlotHistory C E L) = [] := rfl

@[simp] theorem effects_append (tr tr' : SlotHistory C E L) :
    effects (tr ++ tr') = effects tr ++ effects tr' := flatMap_append

@[simp] theorem effects_cons (x : Transition (EntitySlot C E L) (SlotEvent C E L))
    (tr : SlotHistory C E L) : effects (x :: tr) = emitted x ++ effects tr := flatMap_cons

theorem decides_of_step {s u : EntitySlot C E L} {e : SlotEvent C E L}
    (h : slotStep s e = some u) : Decides s e u (emitted ⟨s, e, u⟩) := by
  obtain rfl := Option.some.inj h
  exact decide_decides s e

theorem foldl_accumulate (es : List (SlotEvent C E L)) (acc : SlotDecision C E L) :
    Run slotStep acc.state (history acc.state es) (es.foldl EntitySlot.accumulate acc).state ∧
      (es.foldl EntitySlot.accumulate acc).effects
        = acc.effects ++ effects (history acc.state es) := by
  induction es generalizing acc with
  | nil => exact ⟨.refl, by simp [history]⟩
  | cons e _ ih =>
    obtain ⟨hrun, heff⟩ := ih (EntitySlot.accumulate acc e)
    refine ⟨(Run.single (i := e) rfl).append hrun, ?_⟩
    rw [foldl_cons, heff, history, effects_cons, ← append_assoc]
    rfl

theorem history_run (s : EntitySlot C E L) (es : List (SlotEvent C E L)) :
    Run slotStep s (history s es) (s.decideAll es).state :=
  (foldl_accumulate es (decision s [])).1

theorem decideAll_effects (s : EntitySlot C E L) (es : List (SlotEvent C E L)) :
    (s.decideAll es).effects = effects (history s es) :=
  (foldl_accumulate es (decision s [])).2.trans (nil_append _)

end Entity
