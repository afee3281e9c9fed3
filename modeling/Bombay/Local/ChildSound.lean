import Bombay.Local.ChildOrder

/-!
# No operation on the children comes to a branch that panics

`ChildRegistry.Sound` says that in every occurrence the order and the rows agree, and what is known
of the row in which an operation waits.  Every operation keeps it, under two conditions on what
comes from outside (`ChildOp.Standard`): a child that is committed receives the acknowledgement of
its binding, and a startup that ended without its commitment left one of the outcomes for which
`establish_native_child` has an arm.  `Moved` says what a step of retirement hands out.
-/

set_option autoImplicit false

namespace Local

open Machine Engine List Option Occurrence

variable {P : ChildPort}

/-! ## What is known where an operation waits -/

/-- `establish_native_child` has an arm for this outcome of a startup. -/
def StartupOutcome (outcome : ActorExecutionOutcome P.child) : Prop :=
  ∀ (c : RoutedCreation P) (n : Notification P.child), (startupRejection c n outcome).isSome

/-- Answers to a creation are those of a startup: a committed child awaits its binding, and one that
ended left an outcome for which there is an arm. -/
def ChildOp.Standard : ChildOp P → Prop
  | .started (.ok _) acknowledged => acknowledged = true
  | .finish a => ∀ outcome, a.joined = some (.ok outcome) → StartupOutcome outcome
  | _ => True

/-- The occurrences in front of `depth` have handed out everything. -/
def Cleared (os : List (Occurrence P)) (depth : ℕ) : Prop :=
  ∀ o ∈ os.take depth, o.creationOrder = []

variable {os : List (Occurrence P)} {o o' : Occurrence P} {depth : ℕ}

theorem getElem?_set_some (h : os[depth]? = some o) : (os.set depth o')[depth]? = some o' :=
  getElem?_set_self (List.getElem?_eq_some_iff.mp h).1

theorem Cleared.flatMap_take (h : Cleared os depth) :
    (os.take depth).flatMap creationOrder = [] := by
  rw [flatMap_eq_nil_iff]
  exact h

/-- What is still to be handed out begins with the order of the occurrence at `depth`. -/
theorem Cleared.pending_eq (h : Cleared os depth) (ho : os[depth]? = some o) :
    os.flatMap creationOrder = o.creationOrder ++ (os.drop (depth + 1)).flatMap creationOrder := by
  obtain ⟨hlt, rfl⟩ := List.getElem?_eq_some_iff.mp ho
  conv_lhs => rw [← take_append_drop depth os, drop_eq_getElem_cons hlt]
  rw [flatMap_append, h.flatMap_take, nil_append, flatMap_cons]

theorem Cleared.set (h : Cleared os depth) : Cleared (os.set depth o') depth := by
  intro o ho
  rw [take_set_of_le (Nat.le_refl depth)] at ho
  exact h o ho

theorem Cleared.pending_set (h : Cleared os depth) (ho : os[depth]? = some o) :
    (os.set depth o').flatMap creationOrder =
      o'.creationOrder ++ (os.drop (depth + 1)).flatMap creationOrder := by
  rw [h.set.pending_eq (getElem?_set_some ho), drop_set_of_lt (Nat.lt_succ_self depth)]

variable [DecidableEq P.Id]

/-- What is known where `receive_retirement` is. -/
def RetirePoint.Fits (os : List (Occurrence P)) : RetirePoint → Prop
  | enter depth => Cleared os depth ∧ depth ≤ os.length
  | row depth => Cleared os depth ∧ depth < os.length
  | wait depth =>
    Cleared os depth ∧ ∃ o id rest row, os[depth]? = some o ∧ o.creationOrder = id :: rest ∧
      o.creations.lookup id = some row ∧ row.isStarting = false

/-- What is known where an operation is. -/
def Activity.Fits (bindings : Option (List (Occurrence P))) : Activity P → Prop
  | idle => True
  | startup depth c site =>
    ∃ os o cancellation, bindings = some os ∧ os[depth]? = some o ∧
      o.creations.lookup c.id = some (.starting site (some ⟨true, cancellation⟩))
  | rawStartup depth c site =>
    ∃ os o slots, bindings = some os ∧ os[depth]? = some o ∧
      o.creations.lookup c.id = some (.retiringStartup site (.raw slots)) ∧
      ∀ outcome, slots.received = some (.ok outcome) → StartupOutcome outcome
  | retiring point => ∃ os, bindings = some os ∧ point.Fits os
  | panicked => False

/-- **The invariant of the registry.** -/
structure ChildRegistry.Sound (s : ChildRegistry P) : Prop where
  ordered : ∀ {os}, s.bindings = some os → ∀ o ∈ os, o.Ordered
  fits : s.activity.Fits s.bindings

namespace ChildRegistry

variable {s u : ChildRegistry P} {os : List (Occurrence P)} {o : Occurrence P} {depth : ℕ}

theorem sound_new (n : ℕ) : (new n : ChildRegistry P).Sound where
  ordered := by
    rintro os ⟨⟩ o ho
    rw [(mem_replicate.mp ho).2]
    exact ordered_empty
  fits := trivial

variable {o' : Occurrence P}

theorem ordered_set (h : ∀ o ∈ os, o.Ordered) (ho' : o'.Ordered) :
    ∀ o ∈ os.set depth o', o.Ordered := fun o ho =>
  (mem_or_eq_of_mem_set ho).elim (h o) fun e => e ▸ ho'

variable {id : P.Id} {activity : Activity P}

theorem record_eq {row} (hbut : o.OrderedBut id) :
    s.record os depth o id row activity =
      s.put os depth ⟨o.creations.insert id row, o.recordedOrder id row⟩ activity := by
  rw [record, hbut.record_eq row]

theorem Sound.put (h : ∀ o ∈ os, o.Ordered)
    (ho' : o'.Ordered) (hf : activity.Fits (some (os.set depth o'))) :
    (s.put os depth o' activity).Sound where
  ordered := by
    rintro _ ⟨⟩
    exact ordered_set h ho'
  fits := hf

theorem Sound.settle {c} (h : s.Sound) : (s.settle c).Sound :=
  ⟨h.ordered, h.fits⟩

/-! ## Creations -/

variable {c : RoutedCreation P}

theorem Sound.create {allocated}
    (h : s.Sound) (hos : s.bindings = some os) (ho : os[depth]? = some o) :
    (s.create os depth o c allocated).Sound := by
  have hall := h.ordered hos
  have hord := hall o (mem_of_getElem? ho)
  unfold ChildRegistry.create
  split
  · exact h.settle
  · rename_i hid
    have hbut := hord.but_of_absent hid
    cases allocated with
    | error =>
      refine Sound.settle ?_
      rw [record_eq hbut]
      exact .put hall (hbut.record fun h => nomatch h) trivial
    | ok address =>
      have hheld : (CreationBinding.starting (P := P) ⟨c.kind, address, c.route⟩
          (some ⟨true, .armed⟩)).Held := .starting _ _
      show (s.record os depth o c.id _ _).Sound
      rw [record_eq hbut]
      refine .put hall (hbut.record fun _ => hheld) ⟨_, _, .armed, rfl, getElem?_set_some ho, ?_⟩
      rw [lookup_insert, if_pos rfl]

variable {site : Site P}

theorem Sound.started {commitment} {acknowledged : Bool}
    (hop : (ChildOp.started commitment acknowledged).Standard) (h : s.Sound)
    (hos : s.bindings = some os) (ho : os[depth]? = some o) {cancellation}
    (hrow : o.creations.lookup c.id = some (.starting site (some ⟨true, cancellation⟩))) :
    (s.started os depth o c site acknowledged commitment).Sound := by
  have hall := h.ordered hos
  have hbut := (hall o (mem_of_getElem? ho)).remove c.id
  cases commitment with
  | ok installed =>
    obtain rfl : acknowledged = true := hop
    rw [ChildRegistry.started, hrow]
    refine Sound.settle ?_
    rw [record_eq hbut]
    exact .put hall (hbut.record fun _ =>
      .established site installed (.running cancellation)) trivial
  | error =>
    rw [ChildRegistry.started, hrow]
    show (s.record os depth (o.remove c.id) c.id _ _).Sound
    rw [record_eq hbut]
    refine .put hall (hbut.record fun _ => .raw site (.running cancellation))
      ⟨_, _, _, rfl, getElem?_set_some ho, by rw [lookup_insert, if_pos rfl], ?_⟩
    intro outcome hrec
    cases hrec

omit [DecidableEq P.Id] in
theorem received_of_poll {R N : Type} {slots : Slots R N} {join : Option R} {note : Option N}
    {r : R} (h : (slots.receiveFinish join note).1.received = some r) :
    slots.received = some r ∨ join = some r := by
  obtain ⟨owned, received, notice⟩ := slots
  rcases owned with _ | ⟨handle, cancellation⟩
  · cases received <;> cases notice <;> simp_all [Slots.receiveFinish, Slots.poll]
  · cases handle <;> cases received <;> cases notice <;> cases join <;> cases note <;>
      simp_all [Slots.receiveFinish, Slots.poll, Slots.pollNotice]

variable {a : Answer P}

theorem Sound.finish {slots} (h : s.Sound) (hos : s.bindings = some os) (ho : os[depth]? = some o)
    (hrow : o.creations.lookup c.id = some (.retiringStartup site (.raw slots)))
    (hstart : ∀ outcome, slots.received = some (.ok outcome) → StartupOutcome outcome)
    (ha : ∀ outcome, a.joined = some (.ok outcome) → StartupOutcome outcome) :
    (s.finish os depth o c site a).Sound := by
  have hall := h.ordered hos
  have hord := hall o (mem_of_getElem? ho)
  have hid : c.id ∈ o.creationOrder := hord.listed hrow rfl
  have hstage : slots.Stage := by
    obtain ⟨row, hrow', hheld⟩ := hord.held c.id hid
    rw [hrow] at hrow'
    cases hrow'
    cases hheld with
    | raw _ h => exact h
  have hp : Slots.Polled a.joined (a.notification.map unwrapNotification)
      (slots.receiveFinish a.joined (a.notification.map unwrapNotification)) := hstage.receiveFinish
  have hstart' : ∀ outcome, (slots.receiveFinish a.joined
      (a.notification.map unwrapNotification)).1.received = some (.ok outcome) →
      StartupOutcome outcome := fun outcome hr =>
    (received_of_poll hr).elim (hstart outcome) (ha outcome)
  rw [ChildRegistry.finish, hrow]
  simp only
  generalize slots.receiveFinish a.joined (a.notification.map unwrapNotification) =
    polled at hp hstart'
  obtain ⟨slots', ready⟩ := polled
  have hupdate : (o.update c.id (.retiringStartup site (.raw slots'))).Ordered :=
    hord.update hid (.raw site hp.stage)
  cases ready with
  | false =>
    refine .put hall hupdate ⟨_, _, slots', rfl, getElem?_set_some ho, ?_, hstart'⟩
    rw [update, lookup_insert, if_pos rfl]
  | true =>
    obtain ⟨joined, n, rfl⟩ := hp.stage.of_complete (hp.complete rfl)
    cases joined with
    | error =>
      refine Sound.settle ?_
      exact .put hall hupdate trivial
    | ok outcome =>
      obtain ⟨⟨evidence, result⟩, hr⟩ := isSome_iff_exists.mp (hstart' outcome rfl c n)
      simp only [hr]
      refine Sound.settle ?_
      show (s.record os depth (remove _ c.id) c.id _ _).Sound
      rw [record_eq (hupdate.remove c.id)]
      exact .put hall ((hupdate.remove c.id).record fun hr => .startupRejected site hr) trivial

/-! ## Retirement -/

/-- The identities that are still to be handed out, in the order in which they will be. -/
def pending (s : ChildRegistry P) : List P.Id := (s.bindings.getD []).flatMap creationOrder

/-- **What a step of retirement hands out**: nothing, or the result of the identity that was
next. -/
inductive Moved (s u : ChildRegistry P) : Prop
  | kept (hp : u.pending = s.pending) (hr : u.retired = s.retired) (hf : u.failures = s.failures)
  | emitted (id : P.Id) (e : Emission P) (he : e.Exact id) (hp : s.pending = id :: u.pending)
      (hr : u.retired = s.retired ++ e.root.toList)
        (hf : u.failures = s.failures ++ e.failure.toList)

/-- The row at the head of the order has answered, as a row that is held does. -/
theorem settleRow_spec {rest : List P.Id} {r : RowPoll P} (h : s.Sound)
    (hos : s.bindings = some os) (ho : os[depth]? = some o) (hc : Cleared os depth)
    (hid : o.creationOrder = id :: rest) (hr : r.Fine id a) :
    (s.settleRow os depth o id r).Sound ∧ s.Moved (s.settleRow os depth o id r) := by
  have hall := h.ordered hos
  have hord := hall o (mem_of_getElem? ho)
  have hpend : s.pending = id :: rest ++ (os.drop (depth + 1)).flatMap creationOrder := by
    rw [pending, hos, getD_some, hc.pending_eq ho, hid]
  cases r with
  | suspended row =>
    have hmem : id ∈ o.creationOrder := by
      rw [hid]
      exact mem_cons_self
    have hupdate := hord.update hmem hr.1
    constructor
    · refine ⟨?_, os.set depth (o.update id row), rfl, hc.set, o.update id row, id, rest, row,
        getElem?_set_some ho, hid, ?_, hr.2.1⟩
      · rintro _ ⟨⟩
        exact ordered_set hall hupdate
      · rw [update, lookup_insert, if_pos rfl]
    · refine .kept ?_ rfl rfl
      rw [hpend, pending]
      show (os.set depth (o.update id row)).flatMap _ = _
      rw [hc.pending_set ho]
      exact congrArg (· ++ _) hid
  | extracted =>
    obtain ⟨e, hemit, hexact⟩ := hr
    rw [settleRow, hemit]
    constructor
    · refine ⟨?_, os.set depth _, rfl, hc.set, ?_⟩
      · rintro _ ⟨⟩
        exact ordered_set hall (hord.takeOut hid)
      · rw [length_set]
        exact (List.getElem?_eq_some_iff.mp ho).1
    · refine .emitted id e hexact ?_ rfl rfl
      rw [hpend, pending]
      show _ = id :: (os.set depth _).flatMap _
      rw [hc.pending_set ho]
      show _ = id :: (o.creationOrder.tail ++ _)
      rw [hid]
      rfl
  | returned | panicked => exact hr.elim

/-- What is known of the row in which a future is suspended: its startup is not awaited any more. -/
def Entered (entering : Bool) (o : Occurrence P) : Prop :=
  entering = false → ∀ id rest row, o.creationOrder = id :: rest →
    o.creations.lookup id = some row → row.isStarting = false

theorem runRow_spec {entering : Bool} (h : s.Sound) (hos : s.bindings = some os)
    (ho : os[depth]? = some o) (hc : Cleared os depth) (hs : Entered entering o) :
    (s.runRow entering os depth o a).Sound ∧ s.Moved (s.runRow entering os depth o a) := by
  rw [runRow]
  cases hid : o.creationOrder with
  | nil =>
    have hlt := (List.getElem?_eq_some_iff.mp ho).1
    refine ⟨⟨h.ordered, os, hos, ?_, hlt⟩, .kept rfl rfl rfl⟩
    intro o' ho'
    rw [take_add_one, ho] at ho'
    rcases mem_append.mp ho' with ho' | ho'
    · exact hc o' ho'
    · cases mem_singleton.mp ho'
      exact hid
  | cons id rest =>
    obtain ⟨row, hrow, hheld⟩ := (h.ordered hos o (mem_of_getElem? ho)).held id
      (by rw [hid]; exact mem_cons_self)
    simp only [hrow]
    exact settleRow_spec h hos ho hc hid (hheld.receive fun he => hs he id rest row hid hrow)

variable {os os' : List (Occurrence P)}

theorem flatMap_order_requested (h : List.Forall₂ Occurrence.Requested os os') :
    os.flatMap creationOrder = os'.flatMap creationOrder := by
  induction h with
  | nil => rfl
  | cons hr _ ih => rw [flatMap_cons, flatMap_cons, hr.order, ih]

theorem ordered_of_requested
    (h : List.Forall₂ Occurrence.Requested os os') : ∀ o ∈ os', o.Ordered := by
  induction h with
  | nil => simp
  | cons hr _ ih => exact forall_mem_cons.mpr ⟨hr.ordered, ih⟩

theorem enter_spec (h : s.Sound) (hos : s.bindings = some os) (hc : Cleared os depth)
    (hle : depth ≤ os.length) : (s.enter os depth).Sound ∧ s.Moved (s.enter os depth) := by
  have hall := h.ordered hos
  rw [enter]
  cases ho : os[depth]? with
  | none =>
    have hlen : os.length ≤ depth := List.getElem?_eq_none_iff.mp ho
    refine ⟨⟨nofun, trivial⟩, .kept ?_ rfl rfl⟩
    rw [pending, pending, hos]
    have hflat := hc.flatMap_take
    rw [take_of_length_le hlen] at hflat
    exact hflat.symm
  | some o =>
    simp only
    split
    · exact ⟨⟨h.ordered, trivial⟩, .kept rfl rfl rfl⟩
    · have hdrop : ∀ o ∈ os.drop depth, o.Ordered := fun o ho => hall o (mem_of_mem_drop ho)
      obtain ⟨tail, htail, hreq⟩ := requestAll_of_ordered hdrop
      rw [htail]
      have hlen : (os.take depth).length = depth := length_take_of_le hle
      refine ⟨⟨?_, os.take depth ++ tail, rfl, ?_, ?_⟩, .kept ?_ rfl rfl⟩
      · rintro _ ⟨⟩ o' ho'
        rcases mem_append.mp ho' with ho' | ho'
        · exact hall o' (mem_of_mem_take ho')
        · exact ordered_of_requested hreq o' ho'
      · intro o' ho'
        rw [take_append_of_le_length (Nat.le_of_eq hlen.symm)] at ho'
        exact hc o' (mem_of_mem_take ho')
      · rw [length_append, hlen, ← hreq.length_eq, length_drop]
        have := (List.getElem?_eq_some_iff.mp ho).1
        omega
      · rw [pending, pending, hos]
        show (os.take depth ++ tail).flatMap _ = os.flatMap _
        conv_rhs => rw [← take_append_drop depth os]
        rw [flatMap_append, flatMap_append]
        congr 1
        exact (flatMap_order_requested hreq).symm

/-- How a poll of `receive_retirement` goes on. -/
inductive Ran (s : ChildRegistry P) (a : Answer P) (u : ChildRegistry P) : Prop
  | entered (depth : ℕ) (os : List (Occurrence P))
      (hactivity : s.activity = .retiring (.enter depth))
      (hos : s.bindings = some os) (hc : Cleared os depth) (hle : depth ≤ os.length)
      (hu : u = s.enter os depth)
  | looped (entering : Bool) (depth : ℕ) (os : List (Occurrence P)) (o : Occurrence P)
      (hactivity : s.activity = .retiring (if entering then .row depth else .wait depth))
      (hos : s.bindings = some os) (ho : os[depth]? = some o) (hc : Cleared os depth)
      (hnil : entering = false → o.creationOrder ≠ []) (hs : Entered entering o)
      (hu : u = s.runRow entering os depth o a)

theorem run_cases (h : s.Sound) (hstep : s.step (.run a) = some u) : s.Ran a u := by
  have hfits := h.fits
  rw [step] at hstep
  split at hstep
  · rename_i point os hact hos
    rw [hact] at hfits
    obtain ⟨_, hos', hfits⟩ := hfits
    obtain rfl := some.inj (hos.symm.trans hos')
    obtain rfl := some.inj hstep
    cases point with
    | enter depth => exact .entered depth os hact hos hfits.1 hfits.2 rfl
    | row depth =>
      obtain ⟨hc, hlt⟩ := hfits
      refine .looped true depth os os[depth] hact hos (getElem?_eq_getElem hlt) hc
        nofun nofun ?_
      rw [run, getElem?_eq_getElem hlt]
    | wait depth =>
      obtain ⟨hc, o, id, rest, row, ho, hid, hrow, hs⟩ := hfits
      refine .looped false depth os o hact hos ho hc (fun _ => by simp [hid]) ?_ ?_
      · intro _ id' rest' row' hid' hrow'
        rw [hid] at hid'
        cases hid'
        rw [hrow] at hrow'
        cases hrow'
        exact hs
      · rw [run, ho]
  · cases hstep

theorem run_spec (h : s.Sound) (hstep : s.step (.run a) = some u) : u.Sound ∧ s.Moved u := by
  cases run_cases h hstep with
  | entered _ _ _ hos hc hle hu =>
    rw [hu]
    exact enter_spec h hos hc hle
  | looped _ _ _ _ _ hos ho hc _ hs hu =>
    rw [hu]
    exact runRow_spec h hos ho hc hs

/-- **The step lemma**: no operation breaks the agreement or comes to a branch that panics. -/
theorem Sound.step {op : ChildOp P} (h : s.Sound) (hop : op.Standard) (hstep : s.step op = some u) :
    u.Sound := by
  have hfits := h.fits
  cases op with
  | run => exact (run_spec h hstep).1
  | create =>
    rw [ChildRegistry.step] at hstep
    split at hstep
    · rename_i os _ hos
      obtain ⟨o, ho, rfl⟩ := map_eq_some_iff.mp hstep
      exact h.create hos ho
    · cases hstep
  | started =>
    rw [ChildRegistry.step] at hstep
    split at hstep
    · rename_i depth c site os hact hos
      obtain ⟨o, ho, rfl⟩ := map_eq_some_iff.mp hstep
      rw [hact] at hfits
      obtain ⟨_, _, cancellation, hos', ho', hrow⟩ := hfits
      obtain rfl := some.inj (hos.symm.trans hos')
      obtain rfl := some.inj (ho.symm.trans ho')
      exact .started hop h hos ho hrow
    · cases hstep
  | finish =>
    rw [ChildRegistry.step] at hstep
    split at hstep
    · rename_i depth c site os hact hos
      obtain ⟨o, ho, rfl⟩ := map_eq_some_iff.mp hstep
      rw [hact] at hfits
      obtain ⟨_, _, slots, hos', ho', hrow, hstart⟩ := hfits
      obtain rfl := some.inj (hos.symm.trans hos')
      obtain rfl := some.inj (ho.symm.trans ho')
      exact h.finish hos ho hrow hstart hop
    · cases hstep
  | abandon =>
    rw [ChildRegistry.step] at hstep
    split at hstep
    all_goals first
      | cases hstep; exact ⟨h.ordered, trivial⟩
      | cases hstep
  | retire =>
    rw [ChildRegistry.step] at hstep
    split at hstep
    · rename_i os _ hos
      cases hstep
      exact ⟨h.ordered, os, hos, by simp [Cleared], Nat.zero_le _⟩
    · cases hstep
      exact h
    · cases hstep
  | drop =>
    rw [ChildRegistry.step] at hstep
    split at hstep
    · cases hstep
      exact ⟨h.ordered, trivial⟩
    · cases hstep

end ChildRegistry

end Local
