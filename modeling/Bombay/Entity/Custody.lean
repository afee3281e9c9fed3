import Mathlib.Data.Multiset.Filter
import Mathlib.Algebra.Order.Group.Multiset
import Mathlib.Tactic.Abel
import Bombay.Entity.Decides

/-!
# What a slot owns: commands and leases

A slot is handed two kinds of value it must not lose.  A *command* comes with a claim, a dispatch or
a failed delivery, and belongs to a caller who waits for it.  A *lease* comes with a successful
activation, and is the only authority that can ever retire that incarnation.  The reducer has a
wildcard arm in each phase, and one arm that forgot a payload would drop it without a trace.

Both laws are balances of multisets.  `commands_step` and `leases_step` say that one decision
neither creates nor destroys: what the slot held and what the fact supplied is what the slot now
holds, what the effects carry away and (for commands) what a cancellation removed.  Summed over a
history, and over the optional `closeFamily` at its end, they are `commands_conserved` and
`lease_linearity`.

The order of waiters is a statement about sublists: `departed`, the waiters that left by delivery
or rejection, followed by those still waiting, is a sublist of the arrivals (`order_run`).
-/

set_option autoImplicit false

namespace Entity

open Machine List ActivationWaiter EntitySlot SlotEffect SlotEvent

variable {C E L : Type*}

/-! ## Commands -/

/-- A command paired with the dispatch that brought it. -/
def ActivationWaiter.pair (w : ActivationWaiter C) : DispatchId × C := (w.dispatchId, w.command)

/-- The commands a slot retains, oldest first. -/
@[simp] def waiting : EntitySlot C E L → List (DispatchId × C)
  | .activating st => st.waiters.map pair
  | _ => []

/-- The command a `Deliver` effect carries. -/
def SlotEffect.delivered : SlotEffect C E L → Option (DispatchId × C)
  | .deliver _ d _ c => some (d, c)
  | _ => none

/-- The command a `Reject` effect returns. -/
def SlotEffect.rejected : SlotEffect C E L → Option (DispatchId × C)
  | .reject d c _ => some (d, c)
  | _ => none

/-- The commands a transition removes: those of a `CancelWaiter` that names their dispatch and the
activation they wait for. -/
def cancelled (x : Transition (EntitySlot C E L) (SlotEvent C E L)) : List (DispatchId × C) :=
  match x.source, x.input with
  | .activating st, .cancelWaiter a d =>
    if st.activationId = a then (waiting x.source).filter fun p => p.1 = d else []
  | _, _ => []

variable {g : SlotEffect C E L → Option (DispatchId × C)}
    {f : ActivationWaiter C → SlotEffect C E L}

theorem filterMap_map_pair (h : ∀ w, g (f w) = some w.pair) (waiters : List (ActivationWaiter C)) :
    (waiters.map f).filterMap g = waiters.map pair := by
  rw [filterMap_map, ← filterMap_eq_map]
  exact congrArg (fun k => List.filterMap k waiters) (funext h)

theorem filterMap_map_none (h : ∀ w, g (f w) = none)
    (waiters : List (ActivationWaiter C)) : (waiters.map f).filterMap g = [] := by
  rw [filterMap_map, filterMap_eq_nil_iff]
  exact fun w _ => h w

@[simp] theorem filterMap_rejected_returned (failure : Option (DispatchId × C)) :
    (returned failure : List (SlotEffect C E L)).filterMap rejected = failure.toList := by
  cases failure <;> rfl

@[simp] theorem filterMap_delivered_returned (failure : Option (DispatchId × C)) :
    (returned failure : List (SlotEffect C E L)).filterMap delivered = [] := by
  cases failure <;> rfl

variable {s u : EntitySlot C E L} {e : SlotEvent C E L}

/-- **One decision conserves commands.** -/
theorem commands_step (h : slotStep s e = some u) :
    (waiting s : Multiset (DispatchId × C)) + e.commands
      = waiting u + (emitted ⟨s, e, u⟩).filterMap delivered
        + (emitted ⟨s, e, u⟩).filterMap rejected + cancelled ⟨s, e, u⟩ := by
  have hd := decides_of_step h
  generalize emitted ⟨s, e, u⟩ = effs at hd
  cases hd with
  | cancel st d =>
    -- the cancelled waiters and the retained ones are the waiters there were
    have hsplit := Multiset.filter_add_not (fun p : DispatchId × C => p.1 = d)
      (st.waiters.map pair : Multiset (DispatchId × C))
    simp only [cancelled, waiting, ActivatingSlot.retain, commands, if_true,
      Multiset.coe_nil, add_zero, filterMap_nil]
    rw [← hsplit, add_comm, Multiset.filter_coe, Multiset.filter_coe, filter_map, filter_map]
    rfl
  | wait =>
    simp only [waiting, commands, ActivatingSlot.push, cancelled, map_append,
      map_cons, map_nil, filterMap_nil, Multiset.coe_nil, add_zero,
      ← Multiset.coe_add]
    rfl
  | activate =>
    rw [filterMap_map_pair fun _ => rfl, filterMap_map_none fun _ => rfl]
    simp [commands, cancelled]
  | fail =>
    rw [filterMap_append, filterMap_append, filterMap_map_none fun _ => rfl,
      filterMap_map_pair fun _ => rfl]
    simp [commands, cancelled, delivered, rejected, filterMap_cons]
  | refuseClaim | refuse | stale | late =>
    cases s <;> simp [commands, delivered, rejected, cancelled, filterMap_cons]
  | ignore =>
    cases s <;> cases e <;>
      simp_all [commands, cancelled, SlotEvent.Idle]
  | _ =>
    simp [commands, delivered, rejected, cancelled, pair, filterMap_cons]

/-- The commands the facts of a history brought, in order. -/
def supplied (tr : SlotHistory C E L) : List (DispatchId × C) := tr.flatMap (·.input.commands)

/-- The commands cancelled over a history, in order. -/
def cancellations (tr : SlotHistory C E L) : List (DispatchId × C) := tr.flatMap cancelled

variable {tr : SlotHistory C E L}

theorem commands_run (h : Run slotStep s tr u) :
    (waiting s : Multiset (DispatchId × C)) + supplied tr
      = waiting u + (effects tr).filterMap delivered
        + (effects tr).filterMap rejected + cancellations tr := by
  induction h with
  | refl => simp [supplied, cancellations]
  | @snoc tr t u e _ hstep ih =>
    have hone := commands_step hstep
    simp only [supplied, cancellations, effects_append, effects_cons, effects_nil,
      append_nil, flatMap_append, flatMap_cons, flatMap_nil,
      filterMap_append, ← Multiset.coe_add] at ih ⊢
    calc (waiting s : Multiset (DispatchId × C)) + (↑(tr.flatMap (·.input.commands)) + ↑e.commands)
        = ↑(waiting t) + ↑((effects tr).filterMap delivered)
            + ↑((effects tr).filterMap rejected) + ↑(tr.flatMap cancelled)
            + ↑e.commands := by rw [← add_assoc, ih]
      _ = (↑(waiting t) + ↑e.commands) + ↑((effects tr).filterMap delivered)
            + ↑((effects tr).filterMap rejected) + ↑(tr.flatMap cancelled) := by abel
      _ = _ := by rw [hone]; abel

/-! ## Closing a family -/

/-- A history ends where it ends, or with `closeFamily`. -/
def finish (closing : Bool) (s : EntitySlot C E L) :
    EntitySlot C E L × List (SlotEffect C E L) ×
      Option (ActivationId × E × L × Except DrainFailure Unit) :=
  if closing then s.closeFamily else (s, [], none)

theorem commands_finish (closing : Bool) (s : EntitySlot C E L) :
    (waiting s : Multiset (DispatchId × C))
      = waiting (finish closing s).1 + (finish closing s).2.1.filterMap delivered
        + (finish closing s).2.1.filterMap rejected := by
  cases closing with
  | false => simp [finish]
  | true =>
    cases s with
    | activating =>
      simp only [finish, if_true, closeFamily, filterMap_append]
      rw [filterMap_map_none fun _ => rfl, filterMap_map_pair fun _ => rfl]
      simp [delivered, rejected, filterMap_cons]
    | _ => simp [finish, closeFamily]

/-! ## The order of waiters -/

/-- The command a fact adds to the waiters. -/
def arrived (x : Transition (EntitySlot C E L) (SlotEvent C E L)) : List (DispatchId × C) :=
  match x.source, x.input with
  | .inactive, .claimActivation _ d c _ => [(d, c)]
  | .activating st, .dispatch d c =>
    if st.waiters.length < st.waiterLimit.1 then [(d, c)] else []
  | _, _ => []

def SlotEffect.command : SlotEffect C E L → Option (DispatchId × C)
  | .deliver _ d _ c | .reject d c _ => some (d, c)
  | _ => none

/-- The waiters a transition delivers or rejects, in the order of its effects: those of a slot that
stops activating. -/
def departed (x : Transition (EntitySlot C E L) (SlotEvent C E L)) : List (DispatchId × C) :=
  if x.source.phase = .activating ∧ x.target.phase ≠ .activating then
    (emitted x).filterMap SlotEffect.command
  else []

/-- The waiters `closeFamily` rejects, in the order of its effects. -/
def departedAtClose (closing : Bool) (s : EntitySlot C E L) : List (DispatchId × C) :=
  if s.phase = .activating then (finish closing s).2.1.filterMap SlotEffect.command else []

theorem order_step (h : slotStep s e = some u) :
    (departed ⟨s, e, u⟩ ++ waiting u).Sublist (waiting s ++ arrived ⟨s, e, u⟩) := by
  have hd := decides_of_step h
  rw [departed]
  generalize emitted ⟨s, e, u⟩ = effs at hd
  cases hd with
  | wait _ _ _ room =>
    simp [phase, arrived, room, ActivatingSlot.push, pair]
  | cancel =>
    simp only [phase, ne_eq, not_true_eq_false, and_false, if_false, nil_append,
      waiting, arrived, append_nil, ActivatingSlot.retain]
    exact (filter_sublist).map _
  | activate =>
    rw [filterMap_map_pair fun _ => rfl]
    simp [phase, arrived]
  | fail =>
    rw [filterMap_append, filterMap_map_pair fun _ => rfl]
    simp [phase, arrived, SlotEffect.command, filterMap_cons]
  | refuse _ _ _ _ full =>
    cases s with
    | activating st => simp [phase, arrived, full st rfl]
    | _ => simp [phase, arrived]
  | refuseClaim | stale | late | ignore =>
    cases s <;> simp [phase]
  | _ => simp [phase, arrived, pair]

/-- **Waiters leave in the order they came.** -/
theorem order_run (h : Run slotStep s tr u) :
    (tr.flatMap departed ++ waiting u).Sublist (waiting s ++ tr.flatMap arrived) := by
  induction h with
  | refl => simp
  | @snoc tr t u e _ hstep ih =>
    have hone := (order_step hstep).append_left (tr.flatMap departed)
    have hmore := ih.append_right (arrived ⟨t, e, u⟩)
    simp only [flatMap_append, flatMap_cons, flatMap_nil, append_nil,
      ← append_assoc] at hone hmore ⊢
    exact hone.trans hmore

theorem order_finish (closing : Bool) (s : EntitySlot C E L) :
    departedAtClose closing s ++ waiting (finish closing s).1 = waiting s := by
  cases closing with
  | false => simp [departedAtClose, finish]
  | true =>
    cases s with
    | activating =>
      simp only [departedAtClose, finish, if_true, closeFamily, phase, filterMap_append]
      rw [filterMap_map_pair fun _ => rfl]
      simp [SlotEffect.command, filterMap_cons]
    | _ => simp [departedAtClose, finish, closeFamily, phase]

/-! ## The bound on waiters -/

theorem limit_run (h : Run slotStep s tr u) : ∀ st, u = .activating st →
      (∃ x ∈ tr, x.source = .inactive ∧
        ∃ d c, x.input = .claimActivation st.activationId d c st.waiterLimit) ∨
      ∃ st₀, s = .activating st₀ ∧ st₀.activationId = st.activationId ∧
        st₀.waiterLimit = st.waiterLimit := by
  induction h with
  | refl => exact fun st hs => Or.inr ⟨st, hs, rfl, rfl⟩
  | @snoc tr t u e _ hstep ih =>
    intro st hu
    -- either the claim was just made, or the slot was activating under the same limit before
    have hback : (t = .inactive ∧ ∃ d c, e = .claimActivation st.activationId d c st.waiterLimit) ∨
        ∃ st', t = .activating st' ∧ st'.activationId = st.activationId ∧
          st'.waiterLimit = st.waiterLimit := by
      subst hu
      have hd := decides_of_step hstep
      generalize emitted ⟨t, e, .activating st⟩ = effs at hd
      cases hd with
      | claim _ d c => exact Or.inl ⟨rfl, d, c, rfl⟩
      | wait st' | cancel st' => exact Or.inr ⟨st', rfl, rfl, rfl⟩
      | _ => exact Or.inr ⟨st, rfl, rfl, rfl⟩
    rcases hback with ⟨ht, d, c, he⟩ | ⟨st', ht, hid, hlimit⟩
    · exact Or.inl ⟨⟨t, e, u⟩, by simp, ht, d, c, he⟩
    · rcases ih st' ht with ⟨x, hx, hs, d, c, hin⟩ | ⟨st₀, hs, hid₀, hlimit₀⟩
      · exact Or.inl ⟨x, mem_append_left _ hx, hs, d, c, by rw [← hid, ← hlimit]; exact hin⟩
      · exact Or.inr ⟨st₀, hs, hid₀.trans hid, hlimit₀.trans hlimit⟩

/-- **A slot conserves commands.**  Take any slot, any facts and optionally `closeFamily` at the
end.  Counted with multiplicity and with their dispatch identities, the commands the slot held and
those it was supplied are those it still holds, those in its `Deliver` effects, those in its
`Reject` effects and those a matching `CancelWaiter` removed.  Waiters leave in the order they
arrived, and there are never more of them than the non-zero limit fixed at their claim. -/
theorem commands_conserved (s : EntitySlot C E L) (es : List (SlotEvent C E L)) (closing : Bool) :
    ((waiting s : Multiset (DispatchId × C)) + supplied (history s es)
      = waiting (finish closing (s.decideAll es).state).1
        + ((s.decideAll es).effects
            ++ (finish closing (s.decideAll es).state).2.1).filterMap delivered
        + ((s.decideAll es).effects
            ++ (finish closing (s.decideAll es).state).2.1).filterMap rejected
        + cancellations (history s es)) ∧
    ((history s es).flatMap departed ++ departedAtClose closing (s.decideAll es).state
        ++ waiting (finish closing (s.decideAll es).state).1).Sublist
      (waiting s ++ (history s es).flatMap arrived) ∧
    ∀ st, (s.decideAll es).state = .activating st →
      st.waiters.length ≤ st.waiterLimit.1 ∧ 0 < st.waiterLimit.1 ∧
      ((∃ x ∈ history s es, x.source = .inactive ∧
          ∃ d c, x.input = .claimActivation st.activationId d c st.waiterLimit) ∨
        ∃ st₀, s = .activating st₀ ∧ st₀.activationId = st.activationId ∧
          st₀.waiterLimit = st.waiterLimit) := by
  have hrun := history_run s es
  refine ⟨?_, ?_, fun st hst => ⟨st.bounded, st.waiterLimit.2, limit_run hrun st hst⟩⟩
  · have h := commands_run hrun
    rw [commands_finish closing (s.decideAll es).state] at h
    rw [h, decideAll_effects, filterMap_append, filterMap_append, ← Multiset.coe_add,
      ← Multiset.coe_add]
    abel
  · rw [append_assoc, order_finish]
    exact order_run hrun

/-! ## Leases -/

/-- The lease a slot holds, with the activation it belongs to. -/
def held : EntitySlot C E L → List (ActivationId × L)
  | .active st => [(st.activationId, st.lease)]
  | .draining st => [(st.activationId, st.lease)]
  | _ => []

/-- The lease a `Retire` effect carries. -/
def SlotEffect.retired : SlotEffect C E L → Option (ActivationId × L)
  | .retire a lease _ => some (a, lease)
  | _ => none

/-- The lease `closeFamily` returns. -/
def returnedLease (retirement : Option (ActivationId × E × L × Except DrainFailure Unit)) :
    List (ActivationId × L) :=
  retirement.toList.map fun r => (r.1, r.2.2.1)

@[simp] theorem filterMap_retired_returned (failure : Option (DispatchId × C)) :
    (returned failure : List (SlotEffect C E L)).filterMap retired = [] := by
  cases failure <;> rfl

/-- **One decision conserves leases.** -/
theorem leases_step (h : slotStep s e = some u) : (held s : Multiset (ActivationId × L)) + e.leases
      = held u + (emitted ⟨s, e, u⟩).filterMap retired := by
  have hd := decides_of_step h
  generalize emitted ⟨s, e, u⟩ = effs at hd
  cases hd with
  | activate st endpoint =>
    have hnone : (st.waiters.map fun w => (deliver st.activationId w.dispatchId endpoint
        w.command : SlotEffect C E L)).filterMap retired = [] := by
      simp [filterMap_map, Function.comp_def, retired]
    rw [hnone]
    simp [held, leases]
  | fail st =>
    have hnone : (st.waiters.map fun w => (SlotEffect.reject w.dispatchId w.command .unavailable :
        SlotEffect C E L)).filterMap retired = [] := by
      simp [filterMap_map, Function.comp_def, retired]
    rw [filterMap_append, hnone]
    simp [held, leases, retired, filterMap_cons]
  | ignore hidle =>
    cases e <;> first
      | exact hidle.elim
      | simp [leases]
  | _ => simp [held, leases, retired, filterMap_cons]

theorem leases_run (h : Run slotStep s tr u) :
    (held s : Multiset (ActivationId × L)) + tr.flatMap (·.input.leases)
      = held u + (effects tr).filterMap retired := by
  induction h with
  | refl => simp
  | @snoc tr t u e _ hstep ih =>
    have hone := leases_step hstep
    simp only [effects_append, effects_cons, effects_nil, append_nil, flatMap_append,
      flatMap_cons, flatMap_nil, filterMap_append, ← Multiset.coe_add]
    calc (held s : Multiset (ActivationId × L)) + (↑(tr.flatMap (·.input.leases)) + ↑e.leases)
        = (↑(held t) + ↑e.leases) + ↑((effects tr).filterMap retired) := by
          rw [← add_assoc, ih]; abel
      _ = _ := by rw [hone]; abel

theorem leases_finish (closing : Bool) (s : EntitySlot C E L) :
    (held s : Multiset (ActivationId × L))
      = held (finish closing s).1 + (finish closing s).2.1.filterMap retired
        + returnedLease (finish closing s).2.2 := by
  cases closing with
  | false => simp [finish, returnedLease]
  | true =>
    cases s with
    | activating st =>
      have hnone : (st.waiters.map fun w => (SlotEffect.reject w.dispatchId w.command .shutdown :
          SlotEffect C E L)).filterMap retired = [] := by
        simp [filterMap_map, Function.comp_def, retired]
      simp only [finish, if_true, closeFamily, filterMap_append]
      rw [hnone]
      simp [held, returnedLease, retired, filterMap_cons]
    | _ => simp [finish, closeFamily, held, returnedLease]

theorem retiring_step {a} (h : slotStep (.retiring a) e = some u) : u = .retiring a ∨
      e = .terminated a ∧ u = .inactive ∧ emitted ⟨.retiring a, e, u⟩ = [.remove a] := by
  have hd := decides_of_step h
  generalize emitted ⟨.retiring a, e, u⟩ = effs at hd
  cases hd with
  | terminate => exact Or.inr ⟨rfl, rfl, rfl⟩
  | _ => exact Or.inl rfl

/-- **Leases are linear.**  Every lease an `ActivationSucceeded` fact ever supplied, paired with
the activation it was supplied for, is held by the slot, or carried by exactly one `Retire` effect
under that activation, or returned by `closeFamily`; and a retiring slot stays retiring until the
termination of its own incarnation, which emits exactly one `Remove`. -/
theorem lease_linearity (s : EntitySlot C E L) (es : List (SlotEvent C E L)) (closing : Bool) :
    ((held s : Multiset (ActivationId × L)) + (history s es).flatMap (·.input.leases)
      = held (finish closing (s.decideAll es).state).1
        + ((s.decideAll es).effects
            ++ (finish closing (s.decideAll es).state).2.1).filterMap retired
        + returnedLease (finish closing (s.decideAll es).state).2.2) ∧
    (∀ x ∈ history s es, ∀ a, x.source = .retiring a → x.target ≠ .retiring a →
      x.input = .terminated a ∧ x.target = .inactive ∧ emitted x = [.remove a]) ∧
    (∀ a, (s.decideAll es).state = .retiring a →
      finish closing (s.decideAll es).state = (.retiring a, [], none)) := by
  have hrun := history_run s es
  refine ⟨?_, ?_, ?_⟩
  · have h := leases_run hrun
    rw [leases_finish closing (s.decideAll es).state] at h
    rw [h, decideAll_effects, filterMap_append, ← Multiset.coe_add]
    abel
  · intro x hx a hs hne
    obtain ⟨pre, post, -, -, hstep⟩ := hrun.of_mem hx
    obtain ⟨source, e, u⟩ := x
    obtain rfl : source = .retiring a := hs
    rcases retiring_step hstep with rfl | hleft
    · exact absurd rfl hne
    · exact hleft
  · intro a ha
    rw [ha]
    cases closing <;> rfl

end Entity
