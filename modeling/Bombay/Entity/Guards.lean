import Bombay.Entity.Admission

/-!
# The guards and the claim of a task group

`active` counts the guards that are out: one for each task that `spawn_owned` has begun and that has
not called `finish`.  `shutdown` says whether a claim is out.  Both are totals over the threads,
`Pc.guards` and `Pc.claiming`, and from the two totals follows what the one shutdown may rely on.  A
thread that may touch the task group has a guard, or holds family admission, or is the claimant.  So
while a claimant has seen the group idle, nobody but the claimant changes it; and once the group is
closed nobody does at all.
-/

set_option autoImplicit false

namespace Entity

open Machine Option EntityTaskState

variable {R : LocalEntityRuntime}

/-! ## Who has a guard -/

/-- The guards a return holds. -/
def Return.guards : Return R → ℕ
  | .finish | .diagnose .. | .completeRetirement .. => 1
  | _ => 0

/-- The guards a purpose holds. -/
def Purpose.guards : Purpose R → ℕ
  | .task ret => ret.guards
  | _ => 0

/-- The guards a continuation holds. -/
def Cont.guards : Cont R → ℕ
  | .interpret _ _ ret => ret.guards
  | .closeSlots .. => 0

/-- How many guards a thread has: its own, if it is a task, and that of a task which it has begun
and not yet spawned. -/
def Pc.guards : Pc R → ℕ
  | .submitOrInactive _ _ purpose | .submit _ _ _ purpose => purpose.guards
  | .acquire _ _ ret | .next _ _ ret | .interpretEffect _ _ _ ret | .takeSlot _ _ _ ret
  | .retainRetired _ _ _ ret => ret.guards
  | .begin _ cont | .track _ cont => cont.guards
  | .spawn _ cont => cont.guards + 1
  | .task _ | .retirementFailed _ | .diagnose .. | .completeRetirement .. | .publishRetirement ..
  | .finish _ => 1
  | .panicked place => place.guards
  | _ => 0

@[simp] theorem After.guards_pc (after : After R) : after.pc.guards = 0 := by
  cases after <;> rfl

@[simp] theorem Return.guards_pc (ret : Return R) : ret.pc.guards = ret.guards := by
  rcases ret with _ | _ | _ | _ | ⟨_, _, _, _ | _, _⟩ | _ <;> rfl

@[simp] theorem Cont.guards_pc (cont : Cont R) : cont.pc.guards = cont.guards := by
  cases cont <;> rfl

@[simp] theorem Purpose.guards_ret (purpose : Purpose R) (id : R.Id)
    (installed : InstalledSlotEvidence) : (purpose.ret id installed).guards = purpose.guards := by
  cases purpose <;> rfl

theorem guards_submitOwned (id : R.Id) (slot : Option SlotRef) (event : R.Event)
    (ret : SlotRef → Return R) (h : ∀ slot, (ret slot).guards = 1) :
    (submitOwned id slot event ret).guards = 1 := by
  cases slot with
  | none => rfl
  | some slot => exact h slot

@[simp] theorem guards_terminated (id : R.Id) (slot : Option SlotRef) (a : ActivationId)
    (mode : RetirementMode) : (terminated id slot a mode).guards = 1 :=
  guards_submitOwned id slot _ _ fun _ => rfl

/-! ## Who has the claim -/

/-- The shutdown that has claimed the family, until it has closed the group or given the claim
back. -/
@[simp] def Pc.claiming : Pc R → ℕ
  | .waitIdle .. | .idle .. | .takeTasks .. | .join .. | .recordDrain _ | .takeFamily .. | .rows _
  | .closeSlots .. | .hasPending .. | .sweep .. | .complete _ | .closeGroup .. | .dropClaim _ => 1
  | .submitOrInactive _ _ purpose | .submit _ _ _ purpose => purpose.closing.toNat
  | .acquire _ _ ret | .next _ _ ret | .interpretEffect _ _ _ ret | .takeSlot _ _ _ ret
  | .retainRetired _ _ _ ret => ret.closed.toNat
  | .begin _ cont | .spawn _ cont | .track _ cont => cont.closing.toNat
  | .panicked place => place.claiming
  | _ => 0

@[simp] theorem After.claiming_pc (after : After R) : after.pc.claiming = 0 := by
  cases after <;> rfl

@[simp] theorem Return.claiming_pc (ret : Return R) : ret.pc.claiming = ret.closed.toNat := by
  rcases ret with _ | _ | _ | _ | ⟨_, _, _, _ | _, _⟩ | _ <;> rfl

@[simp] theorem Cont.claiming_pc (cont : Cont R) : cont.pc.claiming = cont.closing.toNat := by
  cases cont <;> rfl

theorem claiming_submitOwned (id : R.Id) (slot : Option SlotRef) (event : R.Event)
    (ret : SlotRef → Return R) (h : ∀ slot, (ret slot).closed = false) :
    (submitOwned id slot event ret).claiming = 0 := by
  cases slot with
  | none => rfl
  | some slot => exact congrArg Bool.toNat (h slot)

@[simp] theorem claiming_terminated (id : R.Id) (slot : Option SlotRef) (a : ActivationId)
    (mode : RetirementMode) : (terminated id slot a mode).claiming = 0 :=
  claiming_submitOwned id slot _ _ fun _ => rfl

variable {p : Pc R}

/-- Whoever has the claim is shutting down. -/
theorem Pc.closing_of_claiming (h : p.claiming ≠ 0) : p.closing := by
  induction p with
  | panicked _ ih => exact ih h
  | submitOrInactive _ _ purpose | submit _ _ _ purpose =>
    cases hc : purpose.closing <;> simp_all [Pc.closing]
  | acquire _ _ ret | next _ _ ret | interpretEffect _ _ _ ret | takeSlot _ _ _ ret
  | retainRetired _ _ _ ret => cases hc : ret.closed <;> simp_all [Pc.closing]
  | begin _ cont | spawn _ cont | track _ cont =>
    cases hc : cont.closing <;> simp_all [Pc.closing]
  | _ => first | rfl | exact absurd rfl h

/-- A call begins with nothing. -/
theorem Pc.isCall_guards (h : p.isCall) : p.guards = 0 ∧ p.claiming = 0 := by
  cases p with
  | admitCommand | passivate | retireEntity | shutdown => exact ⟨rfl, rfl⟩
  | _ => cases h

/-! ## Who may touch the group -/

/-- A thread that has the right to work on the task group. -/
def Pc.Owns (p : Pc R) : Prop := p.guards ≠ 0 ∨ p.holds ∨ p.claiming ≠ 0

/-- A return holds a guard, the admission or the claim. -/
theorem Return.owns (ret : Return R) : ret.guards ≠ 0 ∨ ret.holds ∨ ret.closed.toNat ≠ 0 := by
  cases ret <;> simp [Return.guards, Return.holds, Return.closed]

theorem Purpose.owns (purpose : Purpose R) :
    purpose.guards ≠ 0 ∨ purpose.holds ∨ purpose.closing.toNat ≠ 0 := by
  cases purpose with
  | task ret => exact ret.owns
  | dispatch | dropWait | passivate => exact .inr (.inl rfl)

theorem Cont.owns (cont : Cont R) : cont.guards ≠ 0 ∨ cont.holds ∨ cont.closing.toNat ≠ 0 := by
  cases cont with
  | interpret _ _ ret => exact ret.owns
  | closeSlots => simp [Cont.closing]

/-! ## What a section does to the group -/

namespace EntityTaskState

/-- The guards the group counts. -/
def guards : EntityTaskState R → ℕ
  | .opened st => st.active
  | .closed => 0

/-- How many claims are out. -/
def claiming : EntityTaskState R → ℕ
  | .opened st => if st.shutdown = .claimed then 1 else 0
  | .closed => 0

theorem claiming_le_one (x : EntityTaskState R) : x.claiming ≤ 1 := by
  cases x with
  | opened =>
    rw [claiming]
    split_ifs <;> omega
  | closed => exact Nat.zero_le _

/-- There is an epoch while a guard is out. -/
def EpochFits : EntityTaskState R → Prop
  | .opened st => st.active = 0 ↔ st.idleEpoch = none
  | .closed => True

/-- The group is open before and after, with the same guards and the same claim. -/
def SameCounts (x y : EntityTaskState R) : Prop :=
  ∃ st st', x = .opened st ∧ y = .opened st' ∧ st'.active = st.active ∧
    st'.idleEpoch = st.idleEpoch ∧ st'.shutdown = st.shutdown

variable {x y : EntityTaskState R}

theorem SameCounts.opened (h : x.SameCounts y) : x ≠ .closed ∧ y ≠ .closed := by
  obtain ⟨st, st', rfl, rfl, _⟩ := h
  exact ⟨by simp, by simp⟩

/-- What is the same for `SameCounts` is the same for the counts. -/
theorem SameCounts.counts (h : x.SameCounts y) :
    y.guards = x.guards ∧ y.claiming = x.claiming ∧ (x.EpochFits → y.EpochFits) := by
  obtain ⟨st, st', rfl, rfl, hactive, hepoch, hshutdown⟩ := h
  refine ⟨hactive, ?_, fun hfits => ?_⟩
  · rw [claiming, claiming, hshutdown]
  · rw [EpochFits, hactive, hepoch]
    exact hfits

/-- `begin` makes a guard. -/
theorem counts_begin {epoch} (h : x.begin epoch = some y) :
    y.guards = x.guards + 1 ∧ y.claiming = x.claiming ∧ (x.EpochFits → y.EpochFits) ∧
      y ≠ .closed := by
  cases x with
  | opened st =>
    cases h
    refine ⟨rfl, rfl, fun hfits => ?_, by simp⟩
    show st.active + 1 = 0 ↔ (if st.active = 0 then some epoch else st.idleEpoch) = none
    split_ifs with hzero
    · simp
    · have : st.idleEpoch ≠ none := fun hnone => hzero (hfits.mpr hnone)
      simp [this]
  | closed => cases h

/-- `finish` drops a guard. -/
theorem counts_finish {epoch} (h : x.finish = some (y, epoch)) :
    y.guards + 1 = x.guards ∧ y.claiming = x.claiming ∧ (x.EpochFits → y.EpochFits) ∧
      y ≠ .closed := by
  cases x with
  | opened st =>
    rw [finish] at h
    split at h
    · cases h
    · next hone =>
      cases h
      exact ⟨hone.symm, rfl, fun _ => by simp [EpochFits], by simp⟩
    · next n hn hactive =>
      cases h
      refine ⟨hactive.symm, rfl, fun hfits => ?_, by simp⟩
      have hepoch : st.idleEpoch ≠ none := fun hnone => by
        have := hfits.mpr hnone
        omega
      have hpos : n ≠ 0 := fun hzero => hn (by omega)
      simp [EpochFits, hepoch, hpos]
  | closed => cases h

/-- `claim` finds no claim and makes one. -/
theorem counts_claim (h : x.claim = some y) :
    y.guards = x.guards ∧ x.claiming = 0 ∧ y.claiming = 1 ∧ (x.EpochFits → y.EpochFits) ∧
      y ≠ .closed := by
  cases x with
  | opened =>
    rw [claim] at h
    split at h
    · next havailable =>
      cases h
      exact ⟨rfl, by simp [claiming, havailable], by simp [claiming], id, by simp⟩
    · cases h
  | closed => cases h

theorem of_close (h : x.close = some y) :
    y = .closed ∧ (x = .closed ∨ ∃ st, x = .opened st ∧ st.active = 0 ∧ st.tasks = [] ∧
      st.shutdown = .claimed) := by
  cases x with
  | opened st =>
    rw [close] at h
    split_ifs at h with hassert
    cases h
    exact ⟨rfl, .inr ⟨st, rfl, hassert.1, List.isEmpty_iff.mp hassert.2.2.1, hassert.2.2.2⟩⟩
  | closed => cases h; exact ⟨rfl, .inl rfl⟩

/-- Only a group without guards closes. -/
theorem counts_close (h : x.close = some y) : x.guards = 0 ∧ y.guards = 0 ∧ y.claiming = 0 := by
  obtain ⟨rfl, rfl | ⟨st, rfl, hactive, _⟩⟩ := of_close h
  · exact ⟨rfl, rfl, rfl⟩
  · exact ⟨hactive, rfl, rfl⟩

theorem counts_dropClaim (x : EntityTaskState R) (records : List (EntityTaskRecord R)) :
    (x.dropClaim records).guards = x.guards ∧ (x.dropClaim records).claiming = 0 ∧
      (x.EpochFits → (x.dropClaim records).EpochFits) := by
  cases x with
  | opened => exact ⟨rfl, by simp [dropClaim, claiming], id⟩
  | closed => exact ⟨rfl, rfl, id⟩

theorem sameCounts_track {task : ℕ} (h : x.track task = some y) : x.SameCounts y := by
  cases x with
  | opened st => cases h; exact ⟨st, _, rfl, rfl, rfl, rfl, rfl⟩
  | closed => cases h

theorem sameCounts_retirementFailed {retirement}
    (h : x.retirementFailed retirement = some y) : x.SameCounts y := by
  cases x with
  | opened st => cases h; exact ⟨st, _, rfl, rfl, rfl, rfl, rfl⟩
  | closed => cases h

theorem sameCounts_retainRetired {row : R.Row} {keeps : Retirement R → Bool}
    (h : x.retainRetired row keeps = some y) : x.SameCounts y := by
  cases x with
  | opened st => cases h; exact ⟨st, _, rfl, rfl, rfl, rfl, rfl⟩
  | closed => cases h

variable {rows : List R.Row}

theorem sameCounts_recordDrain (h : x.recordDrain rows = some y) : x.SameCounts y := by
  cases x with
  | opened st => cases h; exact ⟨st, _, rfl, rfl, rfl, rfl, rfl⟩
  | closed => cases h

theorem sameCounts_takeTasks {records} (h : x.takeTasks = some (y, records)) : x.SameCounts y := by
  cases x with
  | opened st =>
    rw [takeTasks] at h
    split at h
    · cases h; exact ⟨st, _, rfl, rfl, rfl, rfl, rfl⟩
    · cases h
  | closed => cases h

theorem sameCounts_complete {n : ℕ} {retirements}
    (h : x.complete = some (y, n, rows, retirements)) : x.SameCounts y := by
  cases x with
  | opened st =>
    rw [complete] at h
    split at h
    · cases h; exact ⟨st, _, rfl, rfl, rfl, rfl, rfl⟩
    · cases h
  | closed => cases h

end EntityTaskState

/-- What a section of a thread, from `p` to `p'`, does to the guards and the claim. -/
inductive Group (s : Shared R) (p : Pc R) (s' : Shared R) (p' : Pc R) (q : Option (Pc R)) : Prop
  /-- Nothing, or a guard goes to the task it is for. -/
  | pass (tasks : s'.tasks = s.tasks)
      (guards : p'.guards + total Pc.guards q.toList = p.guards)
      (claiming : p'.claiming = p.claiming)
  | begin (owns : p.Owns) (epoch : Publication) (tasks : s.tasks.begin epoch = some s'.tasks)
      (guards : p'.guards = p.guards + 1) (claiming : p'.claiming = p.claiming) (start : q = none)
  | finish (epoch : Option Publication) (tasks : s.tasks.finish = some (s'.tasks, epoch))
      (guards : p'.guards + 1 = p.guards) (claiming : p'.claiming = p.claiming) (start : q = none)
  /-- A record or a retirement goes to the group. -/
  | note (owns : p.Owns) (tasks : s.tasks.SameCounts s'.tasks) (rows : s'.tasks.rows = s.tasks.rows)
      (guards : p'.guards = p.guards) (claiming : p'.claiming = p.claiming) (start : q = none)
  | claim (tasks : s.tasks.claim = some s'.tasks) (guards : p'.guards = p.guards)
      (claiming : p.claiming = 0) (claiming' : p'.claiming = 1) (start : q = none)
  /-- The claimant works on its group. -/
  | work (tasks : s.tasks.SameCounts s'.tasks) (guards : p'.guards = p.guards)
      (claiming : p.claiming = 1) (claiming' : p'.claiming = 1) (start : q = none)
  | close (tasks : s.tasks.close = some s'.tasks) (guards : p'.guards = p.guards)
      (claiming : p.claiming = 1) (claiming' : p'.claiming = 0) (start : q = none)
  | drop (records : List (EntityTaskRecord R)) (tasks : s'.tasks = s.tasks.dropClaim records)
      (guards : p'.guards = p.guards) (claiming : p.claiming = 1) (claiming' : p'.claiming = 0)
      (start : q = none)

variable [DecidableEq R.Id] {s s' : Shared R} {self fresh : ℕ} {p p' : Pc R} {q : Option (Pc R)}
  {i : Input R}

/-- Every section is one of these. -/
theorem Acts.group (h : Acts s self fresh p i s' p' q) : Group s p s' p' q := by
  cases h with
  | retained _ _ _ ret _ _ htasks =>
    exact .note ret.owns (EntityTaskState.sameCounts_retainRetired htasks)
      (rows_retainRetired htasks) rfl rfl rfl
  | begun _ cont _ _ htasks => exact .begin cont.owns _ htasks rfl rfl rfl
  | spawned => exact .pass rfl rfl rfl
  | tracked _ cont _ _ htasks =>
    exact .note cont.owns (sameCounts_track htasks)
      (rows_track htasks) (by simp [Pc.guards]) (by simp) rfl
  | recorded _ _ _ htasks =>
    exact .note (.inl Nat.one_ne_zero) (sameCounts_retirementFailed htasks)
      (rows_retirementFailed htasks) (by simp [Pc.guards]) (by simp) rfl
  | finishedLast _ _ _ _ htasks | finished _ _ _ htasks =>
    exact .finish _ htasks rfl rfl rfl
  | claimed _ _ htasks => exact .claim htasks rfl rfl rfl rfl
  | tookTasks _ _ _ _ _ htasks =>
    exact .work (sameCounts_takeTasks htasks) rfl rfl rfl rfl
  | drained _ _ _ _ _ htasks =>
    exact .work (sameCounts_recordDrain htasks) rfl rfl rfl rfl
  | completed _ _ _ _ _ _ _ _ htasks =>
    exact .work (sameCounts_complete htasks) rfl rfl rfl rfl
  | groupClosed _ _ _ _ _ _ htasks =>
    exact .close htasks rfl rfl rfl rfl
  | claimDropped claim => exact .drop claim.tasks rfl rfl rfl rfl rfl
  | delivered | fenced =>
    refine .pass rfl ?_ ?_
    · rw [guards_submitOwned _ _ _ _ fun _ => rfl]
      rfl
    · rw [claiming_submitOwned _ _ _ _ fun _ => rfl]
      rfl
  -- a continuation has what its caller had
  | released | absent | submitted | busy | emptied | transientDone | retired =>
    exact .pass rfl (by simp [Pc.guards]) (by simp)
  | _ => exact .pass rfl rfl rfl

/-! ## The invariant -/

omit [DecidableEq R.Id] in
/-- What the group counts follows the threads. -/
theorem Group.counts (h : Group s p s' p' q) (hle : p.claiming ≤ s.tasks.claiming) :
    s'.tasks.guards + p.guards = s.tasks.guards + p'.guards + total Pc.guards q.toList ∧
      s'.tasks.claiming + p.claiming = s.tasks.claiming + p'.claiming ∧
      (s.tasks.EpochFits → s'.tasks.EpochFits) := by
  cases h with
  | pass tasks =>
    rw [tasks]
    exact ⟨by omega, by omega, id⟩
  | begin _ _ tasks _ _ start =>
    obtain ⟨hg, hc, hfits, _⟩ := counts_begin tasks
    rw [start, toList_none, total_nil]
    exact ⟨by omega, by omega, hfits⟩
  | finish _ tasks _ _ start =>
    obtain ⟨hg, hc, hfits, _⟩ := counts_finish tasks
    rw [start, toList_none, total_nil]
    exact ⟨by omega, by omega, hfits⟩
  | note _ tasks _ _ _ start | work tasks _ _ _ start =>
    obtain ⟨hg, hc, hfits⟩ := tasks.counts
    rw [start, toList_none, total_nil]
    exact ⟨by omega, by omega, hfits⟩
  | claim tasks _ _ _ start =>
    obtain ⟨hg, hc, hc', hfits, _⟩ := counts_claim tasks
    rw [start, toList_none, total_nil]
    exact ⟨by omega, by omega, hfits⟩
  | close tasks _ _ _ start =>
    obtain ⟨hg, hg', hc'⟩ := counts_close tasks
    have hone := s.tasks.claiming_le_one
    obtain ⟨hclosed, _⟩ := of_close tasks
    rw [start, toList_none, total_nil]
    exact ⟨by omega, by omega, fun _ => hclosed ▸ trivial⟩
  | drop records tasks _ _ _ start =>
    obtain ⟨hg, hc, hfits⟩ := EntityTaskState.counts_dropClaim s.tasks records
    have hone := s.tasks.claiming_le_one
    rw [start, tasks, toList_none, total_nil]
    exact ⟨by omega, by omega, hfits⟩

omit [DecidableEq R.Id] in
/-- Only the claimant closes the group. -/
theorem Group.closed (h : Group s p s' p' q) (hclosed : s'.tasks = .closed) :
    s.tasks = .closed ∨ p.claiming = 1 := by
  cases h with
  | pass tasks => exact .inl (tasks ▸ hclosed)
  | begin _ _ tasks => exact absurd hclosed (counts_begin tasks).2.2.2
  | finish _ tasks => exact absurd hclosed (counts_finish tasks).2.2.2
  | note _ tasks => exact absurd hclosed tasks.opened.2
  | claim tasks => exact absurd hclosed (counts_claim tasks).2.2.2.2
  | work _ _ claiming | close _ _ claiming | drop _ _ _ claiming => exact .inr claiming

/-- What the group counts is what the threads have. -/
structure Counted (w : Pool (Shared R) (Pc R)) : Prop where
  guards : w.shared.tasks.guards = total Pc.guards w.threads
  claiming : w.shared.tasks.claiming = total Pc.claiming w.threads
  epoch : w.shared.tasks.EpochFits
  closed : w.shared.tasks = .closed → w.shared.admission = .closed

theorem Acts.claiming_started (h : Acts s self fresh p i s' p' q) :
    total Pc.claiming q.toList = 0 := by
  refine total_eq_zero fun r hr => ?_
  obtain ⟨task, _, _, rfl⟩ := h.started (mem_toList.mp hr)
  rfl

variable {w : Pool (Shared R) (Pc R)}

/-- A section keeps the counts. -/
theorem Counted.act {t : ℕ} (hw : Counted w) (hg : Gated w)
    (hp : w.threads[t]? = some p) (h : Acts w.shared t w.threads.length p i s' p' q) :
    Counted ⟨s', w.threads.set t p' ++ q.toList⟩ := by
  have hguards := total_move Pc.guards p' q hp
  have hclaims := total_move Pc.claiming p' q hp
  have hnone := h.claiming_started
  obtain ⟨hg', hc', hfits⟩ := h.group.counts (hw.claiming ▸ le_total Pc.claiming hp)
  rw [hw.guards] at hg'
  rw [hw.claiming] at hc'
  refine ⟨?_, ?_, hfits hw.epoch, fun hclosed => ?_⟩
  · show s'.tasks.guards = total Pc.guards (w.threads.set t p' ++ q.toList)
    omega
  · show s'.tasks.claiming = total Pc.claiming (w.threads.set t p' ++ q.toList)
    omega
  · have hbefore : w.shared.admission = .closed := by
      rcases h.group.closed hclosed with hbefore | hone
      · exact hw.closed hbefore
      · exact hg.closed t p hp (Pc.closing_of_claiming (by omega))
    show s'.admission = .closed
    cases ha : s'.admission with
    | opened => cases (h.opened ha).symm.trans hbefore
    | closed => rfl

/-- **The group counts its guards and its claim** along every run. -/
theorem counted_run {config} {hash : R.Id → ℕ} {tr} (h : Reaches config hash tr w) : Counted w := by
  refine h.invariant ⟨rfl, rfl, ?_, fun hclosed => by cases hclosed⟩ (fun w p hw hp => ?_)
    fun tr w t i p s p' q hrun hw hp hact => hw.act (gated_run hrun) hp hact
  · show (0 = 0 ↔ none = none)
    simp
  · obtain ⟨hguards, hclaims⟩ := Pc.isCall_guards hp
    exact ⟨by simp [hguards, hw.guards], by simp [hclaims, hw.claiming], hw.epoch, hw.closed⟩

/-! ## What follows from the counts -/

section Pooled

variable {w : Pool (Shared R) (Pc R)} {t u : ℕ} {r : Pc R}

omit [DecidableEq R.Id]

/-- Nobody holds an admission that is closed. -/
theorem Gated.not_holds (hg : Gated w) (hclosed : w.shared.admission = .closed)
    (hp : w.threads[t]? = some p) : p.holds = false := by
  cases hh : p.holds with
  | false => rfl
  | true => cases (hg.opened t (hg.held t p hp hh)).symm.trans hclosed

/-- While somebody owns a guard, the admission or the claim, the group is open. -/
theorem Counted.opened_of_owns (hw : Counted w) (hg : Gated w) (hp : w.threads[t]? = some p)
    (ho : p.Owns) : w.shared.tasks ≠ .closed := by
  intro hclosed
  have hguards : total Pc.guards w.threads = 0 := by rw [← hw.guards, hclosed]; rfl
  have hclaims : total Pc.claiming w.threads = 0 := by rw [← hw.claiming, hclosed]; rfl
  have hg0 := le_total Pc.guards hp
  have hc0 := le_total Pc.claiming hp
  have hfree := hg.not_holds (hw.closed hclosed) hp
  rcases ho with hne | hh | hne
  · omega
  · cases hfree.symm.trans hh
  · omega

/-- There is one claim. -/
theorem Counted.claiming_of_other (hw : Counted w) (hp : w.threads[t]? = some p)
    (hr : w.threads[u]? = some r) (hne : t ≠ u) (hclaims : r.claiming ≠ 0) : p.claiming = 0 := by
  have hsum := add_le_total Pc.claiming hp hr hne
  have hone := w.shared.tasks.claiming_le_one
  have hall := hw.claiming
  omega

/-- Only the claimant changes the drained rows. -/
theorem Group.rows (h : Group s p s' p' q) (hclaims : p.claiming = 0) :
    s'.tasks.rows = s.tasks.rows := by
  cases h with
  | pass tasks => rw [tasks]
  | begin _ _ tasks => exact rows_begin tasks
  | finish _ tasks => exact rows_finish tasks
  | note _ _ rows => exact rows
  | claim tasks => exact EntityTaskState.rows_claim tasks
  | work | close | drop => omega

/-- **An idle group is the claimant's own**: no section of another thread changes it. -/
theorem Counted.still (hw : Counted w) (hg : Gated w) (hp : w.threads[t]? = some p)
    (hr : w.threads[u]? = some r) (hne : t ≠ u) (hclaims : r.claiming ≠ 0)
    (hidle : w.shared.tasks.guards = 0) (h : Group w.shared p s' p' q) :
    s'.tasks = w.shared.tasks := by
  have hzero : p.guards = 0 := by
    have := le_total Pc.guards hp
    have := hw.guards
    omega
  have hnot : p.claiming = 0 := hw.claiming_of_other hp hr hne hclaims
  have hfree : p.holds = false :=
    hg.not_holds (hg.closed u r hr (Pc.closing_of_claiming hclaims)) hp
  have howns : ¬p.Owns := by
    rintro (hne | hh | hne)
    · exact hne hzero
    · cases hfree.symm.trans hh
    · exact hne hnot
  cases h with
  | pass tasks => exact tasks
  | begin owns | note owns => exact absurd owns howns
  | finish | work | close | drop => omega
  | claim tasks =>
    have := (counts_claim tasks).2.1
    have := le_total Pc.claiming hr
    have := hw.claiming
    omega

end Pooled

end Entity
