import Bombay.Entity.Incarnation
import Bombay.Entity.Records

/-!
# Family shutdown is affine and lossless

Any number of shutdowns may be called, and each may be dropped at each of its waits.  One of them at
most gets to the end.  It has drained the directory, or a claimant before it has; and its result has
the failure of every task the family ever had.
-/

set_option autoImplicit false

namespace Entity

open Machine List Option EntityTaskState Pc

variable {R : LocalEntityRuntime}

/-! ## The result -/

/-- Whether it is `Settled` or `Unsettled`. -/
def EntityShutdown.final : EntityShutdown R → Bool
  | .settled .. | .unsettled .. => true
  | .alreadyClaimed => false

def After.reports : After R → ℕ
  | .stop (.shutdown result) => result.final.toNat
  | _ => 0

def Return.reports : Return R → ℕ
  | .release after => after.reports
  | _ => 0

def Purpose.reports : Purpose R → ℕ
  | .task ret => ret.reports
  | _ => 0

def Cont.reports : Cont R → ℕ
  | .interpret _ _ ret => ret.reports
  | .closeSlots .. => 0

/-- Whether a thread has closed the group, and so will return a result or has returned it. -/
def Pc.reports : Pc R → ℕ
  | .release after => after.reports
  | .submitOrInactive _ _ purpose | .submit _ _ _ purpose => purpose.reports
  | .acquire _ _ ret | .next _ _ ret | .interpretEffect _ _ _ ret | .takeSlot _ _ _ ret
  | .retainRetired _ _ _ ret => ret.reports
  | .begin _ cont | .spawn _ cont | .track _ cont => cont.reports
  | .report .. => 1
  | .returned outcome => (After.stop outcome).reports
  | .panicked place => place.reports
  | _ => 0

theorem After.reports_pc (after : After R) : after.pc.reports = after.reports := by
  cases after <;> rfl

theorem Return.reports_pc (ret : Return R) : ret.pc.reports = ret.reports := by
  rcases ret with _ | _ | _ | _ | ⟨_, _, _, _ | _, _⟩ | _ <;> rfl

theorem Cont.reports_pc (cont : Cont R) : cont.pc.reports = cont.reports := by
  cases cont <;> rfl

theorem Purpose.reports_ret (purpose : Purpose R) (id : R.Id) (installed : InstalledSlotEvidence) :
    (purpose.ret id installed).reports = purpose.reports := by
  cases purpose <;> rfl

theorem reports_submitOwned (id : R.Id) (slot : Option SlotRef) (event : R.Event)
    (ret : SlotRef → Return R) (h : ∀ slot, (ret slot).reports = 0) :
    (submitOwned id slot event ret).reports = 0 := by
  cases slot with
  | none => rfl
  | some slot => exact h slot

theorem EntityShutdown.final_classify (represented : ℕ) (entities : List (FamilyRow R))
    (failures : List R.TaskFailure) : (classify represented entities failures).final = true := by
  rw [classify]
  split_ifs <;> rfl

namespace EntityTaskState

/-- Whether the group is closed. -/
def closings : EntityTaskState R → ℕ
  | .opened _ => 0
  | .closed => 1

variable {x y : EntityTaskState R}

theorem closings_eq_zero (h : x ≠ .closed) : x.closings = 0 := by
  cases x with
  | opened => rfl
  | closed => exact absurd rfl h

theorem SameCounts.closings (h : x.SameCounts y) : y.closings = x.closings := by
  rw [closings_eq_zero h.opened.1, closings_eq_zero h.opened.2]

theorem closings_begin {epoch} (h : x.begin epoch = some y) : y.closings = x.closings := by
  cases x with
  | opened => cases h; rfl
  | closed => cases h

theorem closings_claim (h : x.claim = some y) : y.closings = x.closings := by
  rw [closings_eq_zero (counts_claim h).2.2.2.2]
  cases x with
  | opened => rfl
  | closed => cases h

theorem closings_finish {epoch} (h : x.finish = some (y, epoch)) : y.closings = x.closings := by
  rw [closings_eq_zero (counts_finish h).2.2.2]
  cases x with
  | opened => rfl
  | closed => cases h

theorem closings_dropClaim (x : EntityTaskState R) (tasks : List (EntityTaskRecord R)) :
    (x.dropClaim tasks).closings = x.closings := by
  cases x <;> rfl

end EntityTaskState

variable [DecidableEq R.Id] {s s' : Shared R} {self fresh : ℕ} {p p' : Pc R} {q : Option (Pc R)}
  {i : Input R}

theorem Acts.reports (h : Acts s self fresh p i s' p' q)
    (hopen : p.claiming ≠ 0 → s.tasks ≠ .closed) :
    s'.tasks.closings + p.reports = s.tasks.closings + p'.reports := by
  cases h with
  | retained _ _ _ _ _ _ htasks =>
    exact congrArg (· + _) (sameCounts_retainRetired htasks).closings
  | begun _ _ _ _ htasks =>
    exact congrArg (· + _) (closings_begin htasks)
  | tracked _ _ _ _ htasks =>
    rw [Cont.reports_pc]
    exact congrArg (· + _) (sameCounts_track htasks).closings
  | recorded _ _ _ htasks =>
    rw [terminated, reports_submitOwned _ _ _ _ fun _ => rfl]
    exact (sameCounts_retirementFailed htasks).closings
  | finishedLast _ _ _ _ htasks | finished _ _ _ htasks =>
    exact closings_finish htasks
  | claimed _ _ htasks => exact closings_claim htasks
  | tookTasks _ _ _ _ _ htasks =>
    exact (sameCounts_takeTasks htasks).closings
  | drained _ _ _ _ _ htasks =>
    exact (sameCounts_recordDrain htasks).closings
  | completed _ _ _ _ _ _ _ _ htasks =>
    exact (sameCounts_complete htasks).closings
  | groupClosed _ _ _ _ tasks _ htasks =>
    rw [closings_eq_zero (hopen Nat.one_ne_zero)]
    show tasks.closings + 0 = 0 + 1
    rw [(of_close htasks).1]
    rfl
  | reported =>
    show _ = _ + (EntityShutdown.final _).toNat
    rw [EntityShutdown.final_classify]
    rfl
  | claimDropped => exact closings_dropClaim ..
  | delivered | fenced => rw [reports_submitOwned _ _ _ _ fun _ => rfl]; rfl
  | retired => rw [terminated, reports_submitOwned _ _ _ _ fun _ => rfl]; rfl
  | released => rw [After.reports_pc]; rfl
  | busy | emptied | transientDone => rw [Return.reports_pc]; rfl
  | absent _ _ purpose | submitted _ _ _ purpose =>
    show _ = _ + (purpose.ret _ _).reports
    rw [Purpose.reports_ret]
    rfl
  | _ => rfl

variable {config : DirectoryConfig} {hash : R.Id → ℕ} {tr : RuntimeHistory R}
    {w : Pool (Shared R) (Pc R)}

theorem reported_run (h : Reaches config hash tr w) :
    total reports w.threads = w.shared.tasks.closings := by
  refine h.invariant rfl (fun w p hw hp => ?_) fun tr w t i p s p' q hrun hw hp hact => ?_
  · cases p with
    | admitCommand | passivate | retireEntity | shutdown => simpa [reports] using hw
    | _ => cases hp
  · have hmove := total_move reports p' q hp
    have hnone : total reports q.toList = 0 := by
      refine total_eq_zero fun r hr => ?_
      obtain ⟨task, _, _, rfl⟩ := hact.started (mem_toList.mp hr)
      rfl
    have := hact.reports fun hne =>
      (counted_run hrun).opened_of_owns (gated_run hrun) hp (.inr (.inr hne))
    show total reports (w.threads.set t p' ++ q.toList) = s.tasks.closings
    omega

/-! ## The drain -/

/-- Whether the drain of a thread has passed the shard, with its rows not yet in the group or
already out of it. -/
def Pc.hasTaken (shard : ℕ) : Pc R → ℕ
  | .takeFamily _ k _ => if shard < k then 1 else 0
  | .closeGroup .. => 1
  | .panicked place => place.hasTaken shard
  | _ => 0

/-- Whether the rows of the directory are in the group, or have been reported. -/
def EntityTaskState.drains (x : EntityTaskState R) : ℕ := x.rows.isSome.toNat + x.closings

/-- The section at this place takes the rows of the shard from the directory. -/
def Pc.drainsShard (s : Shared R) (shard : ℕ) : Pc R → Bool
  | .takeFamily _ k _ => k = shard ∧ k < s.directory.shardCount
  | _ => false

/-- In this transition the rows of the shard are taken from the directory. -/
def drainsShard (shard : ℕ)
    (x : Transition (Pool (Shared R) (Pc R)) (Schedule (Pc R) (Input R))) : Bool :=
  match x.input with
  | .call _ => false
  | .run t _ => x.source.threads[t]?.any (Pc.drainsShard x.source.shared shard)

section Places

omit [DecidableEq R.Id]

variable (shard : ℕ)

theorem After.hasTaken_pc (after : After R) : after.pc.hasTaken shard = 0 := by
  cases after <;> rfl

theorem Return.hasTaken_pc (ret : Return R) : ret.pc.hasTaken shard = 0 := by
  rcases ret with _ | _ | _ | _ | ⟨_, _, _, _ | _, _⟩ | _ <;> rfl

theorem Cont.hasTaken_pc (cont : Cont R) : cont.pc.hasTaken shard = 0 := by
  cases cont <;> rfl

theorem hasTaken_submitOwned (id : R.Id) (slot : Option SlotRef) (event : R.Event)
    (ret : SlotRef → Return R) : (submitOwned id slot event ret).hasTaken shard = 0 := by
  cases slot <;> rfl

theorem EntityTaskState.SameCounts.drains {x y : EntityTaskState R} (h : x.SameCounts y)
    (hrows : y.rows = x.rows) : y.drains = x.drains := by
  rw [EntityTaskState.drains, EntityTaskState.drains, hrows, h.closings]

end Places

/-- A shard is taken once, and its rows go to the group and from there to the result. -/
theorem Acts.drains (h : Acts s self fresh p i s' p' q) (hopen : p.claiming ≠ 0 → s.tasks ≠ .closed)
    (hknows : p.stage.Holds s.tasks) (hpanic : p.Panics s → ∃ n rows retirements failures entities,
      p = .report n rows retirements failures entities)
    (shard : ℕ) (hshard : shard < s.directory.shardCount) :
    s.tasks.drains + p.hasTaken shard + (p.drainsShard s shard).toNat =
      s'.tasks.drains + p'.hasTaken shard := by
  cases h with
  | retained _ _ _ _ _ _ htasks =>
    exact ((sameCounts_retainRetired htasks).drains (rows_retainRetired htasks)).symm
  | begun _ _ tasks _ htasks =>
    show s.tasks.rows.isSome.toNat + s.tasks.closings = tasks.rows.isSome.toNat + tasks.closings
    rw [rows_begin htasks, closings_begin htasks]
  | tracked _ _ _ _ htasks =>
    rw [Cont.hasTaken_pc]
    exact ((sameCounts_track htasks).drains (rows_track htasks)).symm
  | recorded _ _ _ htasks =>
    rw [terminated, hasTaken_submitOwned]
    exact ((sameCounts_retirementFailed htasks).drains (rows_retirementFailed htasks)).symm
  | finishedLast _ tasks _ _ htasks | finished _ tasks _ htasks =>
    show s.tasks.rows.isSome.toNat + s.tasks.closings = tasks.rows.isSome.toNat + tasks.closings
    rw [rows_finish htasks, closings_finish htasks]
  | claimed tasks _ htasks =>
    show s.tasks.rows.isSome.toNat + s.tasks.closings = tasks.rows.isSome.toNat + tasks.closings
    rw [rows_claim htasks, closings_claim htasks]
  | tookTasks _ _ _ _ _ htasks =>
    exact ((sameCounts_takeTasks htasks).drains (rows_takeTasks htasks)).symm
  | drainStarted =>
    show _ = _ + (if shard < 0 then 1 else 0)
    rw [if_neg (Nat.not_lt_zero _)]
    rfl
  | drainedShard _ next _ hnext =>
    simp only [hasTaken, Pc.drainsShard]
    by_cases heq : next = shard
    · subst heq
      simp [hnext]
    · have hiff : shard < next + 1 ↔ shard < next := by omega
      simp [heq, hiff]
  | drained _ next _ _ _ htasks =>
    have hrows : s.tasks.rows = none := hknows
    have hdone : shard < next := by omega
    have hnot : ¬next < s.directory.shardCount := by omega
    simp only [hasTaken, Pc.drainsShard, EntityTaskState.drains, hrows,
      rows_recordDrain htasks,
      (sameCounts_recordDrain htasks).closings, if_pos hdone]
    simp [hnot]
    omega
  | completed _ _ tasks _ _ _ _ _ htasks =>
    obtain ⟨_, _, hrows, _⟩ := hknows
    show s.tasks.rows.isSome.toNat + s.tasks.closings = tasks.rows.isSome.toNat + tasks.closings + 1
    rw [hrows, rows_complete htasks, (sameCounts_complete htasks).closings]
    simp
    omega
  | groupClosed _ _ _ _ tasks _ htasks =>
    obtain ⟨_, _, hrows⟩ := hknows
    show s.tasks.rows.isSome.toNat + s.tasks.closings + 1 = tasks.rows.isSome.toNat + tasks.closings
    rw [hrows, closings_eq_zero (hopen Nat.one_ne_zero), (of_close htasks).1]
    rfl
  | claimDropped claim =>
    show s.tasks.rows.isSome.toNat + s.tasks.closings =
      (s.tasks.dropClaim claim.tasks).rows.isSome.toNat + (s.tasks.dropClaim claim.tasks).closings
    rw [rows_dropClaim, closings_dropClaim]
  | delivered | fenced => rw [hasTaken_submitOwned]; rfl
  | retired => rw [terminated, hasTaken_submitOwned]; rfl
  | released => rw [After.hasTaken_pc]; rfl
  | busy | emptied | transientDone => rw [Return.hasTaken_pc]; rfl
  | panic _ _ h =>
    obtain ⟨_, _, _, _, _, rfl⟩ := hpanic h
    rfl
  | _ => rfl

theorem Acts.shardCount (h : Acts s self fresh p i s' p' q) :
    s'.directory.shardCount = s.directory.shardCount := by
  cases h with
  | routeClaimed _ _ _ _ _ _ _ claimed =>
    rw [LocalDirectory.claim] at claimed
    split at claimed
    · cases claimed
    · cases claimed
      rfl
  | _ => rfl

theorem shardCount_run (h : Reaches config hash tr w) :
    w.shared.directory.shardCount = config.shards.1 :=
  h.invariant rfl (fun _ _ hw _ => hw) fun _ _ _ _ _ _ _ _ _ hw _ hact => hact.shardCount.trans hw

variable {shard : ℕ}

theorem drained_run (h : Reaches config hash tr w) (hshard : shard < config.shards.1) :
    tr.countP (drainsShard shard) = w.shared.tasks.drains + total (hasTaken shard) w.threads := by
  refine h.history rfl fun tr w a w' hrun hcount hstep => ?_
  rw [countP_append, hcount]
  rcases EntityRuntime.step_cases hstep with
    ⟨p, rfl, hp, rfl⟩ | ⟨t, i, p, s, p', q, rfl, hp, hact, rfl⟩
  · cases p with
    | admitCommand | passivate | retireEntity | shutdown => simp [drainsShard, hasTaken]
    | _ => cases hp
  · have hmove := total_move (hasTaken shard) p' q hp
    have hnone : total (hasTaken shard) q.toList = 0 := by
      refine total_eq_zero fun r hr => ?_
      obtain ⟨task, _, _, rfl⟩ := hact.started (mem_toList.mp hr)
      rfl
    have hdrains := hact.drains
      (fun hne => (counted_run hrun).opened_of_owns (gated_run hrun) hp (.inr (.inr hne)))
      (informed_run hrun t p hp) (panics_report hrun hp)
      shard (by rw [shardCount_run hrun]; exact hshard)
    have hone : [(⟨w, .run t i, ⟨s, w.threads.set t p' ++ q.toList⟩⟩ :
        Transition (Pool (Shared R) (Pc R)) (Schedule (Pc R) (Input R)))].countP (drainsShard shard)
        = (p.drainsShard w.shared shard).toNat := by
      cases hd : p.drainsShard w.shared shard <;> simp [drainsShard, hp, hd]
    show _ = s.tasks.drains + total (hasTaken shard) (w.threads.set t p' ++ q.toList)
    rw [hone]
    omega

/-! ## Once the group is closed -/

/-- A thread that has panicked did so in the last loop of `shutdown`. -/
def PanicsLate (w : Pool (Shared R) (Pc R)) : Prop :=
  ∀ place, .panicked place ∈ w.threads → ∃ n rows retirements failures entities,
    place = .report n rows retirements failures entities

variable {place : Pc R}

omit [DecidableEq R.Id] in
theorem not_panicked_submitOwned {id : R.Id} {slot} {event : R.Event}
    {ret : SlotRef → Return R} : submitOwned id slot event ret ≠ .panicked place := by
  cases slot <;> simp [submitOwned]

theorem Acts.panicked (h : Acts s self fresh p i s' (.panicked place) q) :
    p = place ∧ p.Panics s := by
  generalize hp' : Pc.panicked place = p' at h
  cases h with
  | panic _ _ h => exact ⟨(Pc.panicked.inj hp').symm, h⟩
  | delivered | fenced | retired | recorded => exact absurd hp'.symm not_panicked_submitOwned
  | released after => cases after <;> cases hp'
  | busy _ _ ret | emptied _ _ ret | transientDone _ ret =>
    rcases ret with _ | _ | _ | _ | ⟨_, _, _, _ | _, _⟩ | _ <;> cases hp'
  | tracked _ cont => cases cont <;> cases hp'
  | _ => cases hp'

theorem panicsLate_run (h : Reaches config hash tr w) : PanicsLate w := by
  refine h.invariant (P := PanicsLate) (fun _ hmem => by cases hmem) (fun w p hw hp => ?_)
    fun tr w t i p s p' q hrun hw hp hact => ?_
  · intro place hmem
    rcases mem_append.mp hmem with hmem | hmem
    · exact hw place hmem
    · obtain rfl := mem_singleton.mp hmem
      cases hp
  · intro place hmem
    rcases mem_append.mp hmem with hmem | hmem
    · rcases mem_or_eq_of_mem_set hmem with hmem | rfl
      · exact hw place hmem
      · obtain ⟨rfl, hpanic⟩ := hact.panicked
        exact panics_report hrun hp hpanic
    · obtain ⟨task, _, _, hq⟩ := hact.started (mem_toList.mp hmem)
      cases hq

section Closed

omit [DecidableEq R.Id]

theorem total_failed (threads : List (Pc R)) (c : R.TaskFailure → Bool)
    (failures : List R.TaskFailure) :
    total (EntityTaskRecord.fails c threads) (failures.map .failed) = failures.countP c := by
  induction failures with
  | nil => rfl
  | cons failure _ ih =>
    rw [map_cons, total_cons, ih, countP_cons, EntityTaskRecord.fails]
    cases hc : c failure <;> simp [Nat.add_comm]

theorem total_fails (threads : List (Pc R)) (c : R.TaskFailure → Bool) :
    total (fails c) threads = (threads.filterMap failure?).countP c := by
  induction threads with
  | nil => rfl
  | cons p _ ih =>
    rw [total_cons, ih, fails]
    cases hf : p.failure? with
    | none => simp [hf]
    | some failure =>
      rw [filterMap_cons_some hf, countP_cons, any_some]
      cases hc : c failure <;> simp [Nat.add_comm]

/-- Whoever has nothing to do with the group has no record, unless it has the result. -/
theorem Pc.records_of_not_owns {p : Pc R} (h : ¬p.Owns) (hreports : p.reports = 0) :
    p.records = [] := by
  induction p with
  | panicked _ ih => exact ih h hreports
  | submitOrInactive _ _ purpose | submit _ _ _ purpose => exact absurd purpose.owns h
  | acquire _ _ ret | next _ _ ret | interpretEffect _ _ _ ret | takeSlot _ _ _ ret
  | retainRetired _ _ _ ret => exact absurd ret.owns h
  | begin _ cont | track _ cont => exact absurd cont.owns h
  | spawn => exact absurd (.inl (Nat.succ_ne_zero _)) h
  | release => exact absurd (.inr (.inl rfl)) h
  | returned outcome =>
    cases outcome with
    | shutdown result =>
      cases result with
      | alreadyClaimed => rfl
      | _ => cases hreports
    | _ => rfl
  | report => cases hreports
  | _ =>
    first
    | rfl
    | exact absurd (.inr (.inr Nat.one_ne_zero)) h

def EntityShutdown.failures : EntityShutdown R → List R.TaskFailure
  | .unsettled _ _ failures => failures
  | .settled .. | .alreadyClaimed => []

theorem EntityShutdown.records_failures (result : EntityShutdown R) :
    result.records = result.failures.map .failed := by
  cases result <;> rfl

theorem total_runs_failed (u : ℕ) (failures : List R.TaskFailure) :
    total (EntityTaskRecord.runs u) (failures.map .failed) = 0 := by
  refine total_eq_zero fun r hr => ?_
  obtain ⟨failure, _, rfl⟩ := mem_map.mp hr
  rfl

/-- What a join of the thread returns. -/
def Pc.joinFailure? : Pc R → Option R.TaskFailure
  | .ended ending => ending.failure?
  | _ => none

/-- Places at which `begin`, `track`, `finish` or `retirement_failed` is about to run. -/
def Pc.entersGroup : Pc R → Bool
  | .begin .. | .track .. | .finish _ | .retirementFailed _ => true
  | _ => false

theorem Pc.owns_of_entersGroup (h : p.entersGroup) : p.Owns := by
  cases p with
  | begin _ cont | track _ cont => exact cont.owns
  | finish | retirementFailed => exact .inl Nat.one_ne_zero
  | _ => cases h

theorem failure_of_not_works (hpanics : PanicsLate w) (hp : p ∈ w.threads) (hworks : p.works = 0) :
    p.failure? = p.joinFailure? := by
  cases p with
  | finish | publishIdle | exit => cases hworks
  | panicked place =>
    obtain ⟨_, _, _, _, _, rfl⟩ := hpanics place hp
    rfl
  | _ => rfl

end Closed

variable {config : DirectoryConfig} {hash : R.Id → ℕ} {tr : RuntimeHistory R}
  {w : Pool (Shared R) (Pc R)} {t : ℕ}

theorem not_owns_of_closed (h : Reaches config hash tr w) (hclosed : w.shared.tasks = .closed)
    (hp : w.threads[t]? = some p) : ¬p.Owns :=
  fun howns => (counted_run h).opened_of_owns (gated_run h) hp howns hclosed

theorem closed_of_reports (h : Reaches config hash tr w) (hp : w.threads[t]? = some p)
    (hreports : p.reports ≠ 0) : w.shared.tasks = .closed := by
  have hle := le_total reports hp
  rw [reported_run h] at hle
  cases hx : w.shared.tasks with
  | opened =>
    rw [hx] at hle
    exact absurd (Nat.le_zero.mp hle) hreports
  | closed => rfl

theorem reports_sole (h : Reaches config hash tr w) {u : ℕ} {r : Pc R}
    (hp : w.threads[t]? = some p) (hr : w.threads[u]? = some r) (hreports : p.reports = 1)
    (hreports' : r.reports ≠ 0) : t = u := by
  by_contra hne
  have hle := add_le_total reports hp hr hne
  rw [reported_run h, closed_of_reports h hp (by omega)] at hle
  simp only [closings] at hle
  omega

theorem booked_of_closed (h : Reaches config hash tr w) (hp : w.threads[t]? = some p)
    (hreports : p.reports = 1) (f : EntityTaskRecord R → ℕ) : booked f w = total f p.records := by
  have hclosed := closed_of_reports h hp (by omega)
  rw [booked, hclosed]
  show 0 + _ = _
  rw [Nat.zero_add]
  refine total_sole hp fun u r hu hr => ?_
  have hnone : r.reports = 0 := by
    by_contra hne
    exact hu (reports_sole h hp hr hreports hne).symm
  rw [records_of_not_owns (not_owns_of_closed h hclosed hr) hnone, total_nil]

/-- The call `t` has returned `Settled` or `Unsettled`. -/
def Concludes (w : Pool (Shared R) (Pc R)) (t : ℕ) (result : EntityShutdown R) : Prop :=
  w.threads[t]? = some (.returned (.shutdown result)) ∧ result.final

/-- The section that drains a shard takes all its rows and leaves it empty. -/
theorem takes_of_drainsShard {i} (h : Reaches config hash tr w) (hp : w.threads[t]? = some p)
    (hact : Acts w.shared t w.threads.length p i s p' q) (hd : p.drainsShard w.shared shard) :
    ∃ claim rows, p = .takeFamily claim shard rows ∧
      p' = .takeFamily claim (shard + 1) (rows ++ w.shared.directory.shards shard) ∧
      s.directory.shards shard = [] := by
  cases p with
  | takeFamily claim m rows =>
    obtain ⟨rfl, hm⟩ : m = shard ∧ m < w.shared.directory.shardCount := by
      simpa [Pc.drainsShard] using hd
    cases hact with
    | drainedShard => exact ⟨claim, rows, rfl, rfl, Function.update_self ..⟩
    | drained => omega
    | panic _ _ hpanic =>
      obtain ⟨_, _, _, _, _, hreport⟩ := panics_report h hp hpanic
      cases hreport
  | _ => cases hd

/-- What holds of the shutdowns of a family that came to `w` by the history `tr`. -/
structure AffineShutdown (config : DirectoryConfig) (tr : RuntimeHistory R)
    (w : Pool (Shared R) (Pc R)) : Prop where
  /-- There is an idle epoch exactly while the group is not idle. -/
  epoch : ∀ st, w.shared.tasks = .opened st → (st.active = 0 ↔ st.idleEpoch = none)
  /-- `begin`, `track`, `finish` and `retirement_failed` never run after `close`. -/
  opened : ∀ p ∈ w.threads, p.entersGroup → w.shared.tasks ≠ .closed
  /-- No assertion of the group or of its claims fails.  The one that is left comes after
  `complete`. -/
  panics : PanicsLate w
  /-- One call at most returns `Settled` or `Unsettled`. -/
  sole : ∀ t u result result', Concludes w t result → Concludes w u result' → t = u
  /-- When it has, every task has ended, and the result has each failure once. -/
  failures : ∀ t result, Concludes w t result → (∀ p ∈ w.threads, p.works = 0) ∧
    result.failures.Perm (w.threads.filterMap Pc.joinFailure?)
  /-- No shard of the directory is drained twice, and for a result each has been drained. -/
  drained : ∀ shard < config.shards.1, tr.countP (drainsShard shard) ≤ 1 ∧
    ∀ t result, Concludes w t result → tr.countP (drainsShard shard) = 1
  /-- What drains a shard takes all its rows and leaves it empty. -/
  takes : ∀ x ∈ tr, ∀ shard, drainsShard shard x → x.target.shared.directory.shards shard = [] ∧
    ∃ (t : ℕ) (claim : _) (rows : _), x.source.threads[t]? = some (.takeFamily claim shard rows) ∧
      x.target.threads[t]? =
        some (.takeFamily claim (shard + 1) (rows ++ x.source.shared.directory.shards shard))

variable {result : EntityShutdown R}

omit [DecidableEq R.Id] in
theorem Concludes.reports (h : Concludes w t result) :
    (Pc.returned (.shutdown result) : Pc R).reports = 1 := by
  show result.final.toNat = 1
  rw [h.2]
  rfl

theorem shutdown_failures (h : Reaches config hash tr w) (ht : Concludes w t result) :
    (∀ p ∈ w.threads, p.works = 0) ∧
      result.failures.Perm (w.threads.filterMap Pc.joinFailure?) := by
  have hbooked := booked_of_closed h ht.1 ht.reports
  have hrecords : (Pc.returned (.shutdown result) : Pc R).records = result.failures.map .failed :=
    result.records_failures
  rw [hrecords] at hbooked
  have hover : ∀ p ∈ w.threads, p.works = 0 := by
    intro p hp
    by_contra hne
    obtain ⟨u, hu⟩ := mem_iff_getElem?.mp hp
    have hone := (booked_run h).works u p hu hne
    rw [hbooked, total_runs_failed] at hone
    cases hone
  refine ⟨hover, ?_⟩
  have hsame : w.threads.filterMap Pc.joinFailure? = w.threads.filterMap failure? :=
    filterMap_congr fun p hp => (failure_of_not_works (panicsLate_run h) hp (hover p hp)).symm
  rw [hsame]
  classical
  refine perm_iff_count.mpr fun failure => ?_
  have howed := (booked_run h).owed (· == failure)
  rw [hbooked, total_failed, total_fails] at howed
  exact howed

omit [DecidableEq R.Id] in
theorem Pc.hasTaken_le (shard : ℕ) (p : Pc R) : p.hasTaken shard ≤ p.claiming := by
  induction p with
  | panicked _ ih => exact ih
  | takeFamily _ k =>
    show (if shard < k then 1 else 0) ≤ 1
    split_ifs <;> omega
  | closeGroup => exact Nat.le_refl 1
  | _ => exact Nat.zero_le _

theorem rows_of_hasTaken (h : Reaches config hash tr w) (hp : w.threads[t]? = some p)
    (htaken : p.hasTaken shard ≠ 0) : w.shared.tasks.rows = none := by
  have hknows := informed_run h t p hp
  cases p with
  | takeFamily => exact hknows
  | closeGroup => exact hknows.2.2
  | panicked place =>
    obtain ⟨_, _, _, _, _, rfl⟩ := panicsLate_run h place (mem_of_getElem? hp)
    exact absurd rfl htaken
  | _ => exact absurd rfl htaken

theorem hasTaken_of_rows (h : Reaches config hash tr w) (shard : ℕ)
    (hrows : w.shared.tasks.rows.isSome) : total (hasTaken shard) w.threads = 0 := by
  refine total_eq_zero fun p hp => ?_
  obtain ⟨t, ht⟩ := mem_iff_getElem?.mp hp
  by_contra hne
  rw [rows_of_hasTaken h ht hne] at hrows
  cases hrows

theorem hasTaken_le_claiming (h : Reaches config hash tr w) (shard : ℕ) :
    total (hasTaken shard) w.threads ≤ w.shared.tasks.claiming := by
  rw [(counted_run h).claiming]
  exact total_le fun p _ => p.hasTaken_le shard

theorem drains_of_closed (h : Reaches config hash tr w)
    (hshard : shard < config.shards.1) (hclosed : w.shared.tasks = .closed) :
    tr.countP (drainsShard shard) = 1 := by
  have hle := hasTaken_le_claiming h shard
  rw [hclosed] at hle
  rw [drained_run h hshard, hclosed, Nat.le_zero.mp hle]
  rfl

theorem drains_le_one (h : Reaches config hash tr w)
    (hshard : shard < config.shards.1) : tr.countP (drainsShard shard) ≤ 1 := by
  cases hx : w.shared.tasks with
  | closed => exact Nat.le_of_eq (drains_of_closed h hshard hx)
  | opened st =>
    rw [drained_run h hshard, hx]
    show (opened st).rows.isSome.toNat + 0 + _ ≤ 1
    rw [← hx]
    have hle := hasTaken_le_claiming h shard
    have hone := w.shared.tasks.claiming_le_one
    cases hrows : w.shared.tasks.rows with
    | none =>
      simp only [isSome_none, Bool.toNat_false]
      omega
    | some =>
      rw [hasTaken_of_rows h shard (by rw [hrows]; rfl)]
      simp

/-- **Family shutdown is affine and lossless**, however many shutdowns are called and dropped, and
whatever the tasks do. -/
theorem affine_shutdown (h : Reaches config hash tr w) : AffineShutdown config tr w where
  epoch st hst := by
    have hfits := (counted_run h).epoch
    rw [hst] at hfits
    exact hfits
  opened p hp henters := by
    obtain ⟨t, ht⟩ := mem_iff_getElem?.mp hp
    exact (counted_run h).opened_of_owns (gated_run h) ht (owns_of_entersGroup henters)
  panics := panicsLate_run h
  sole t u result result' ht hu :=
    reports_sole h ht.1 hu.1 ht.reports (by rw [hu.reports]; exact Nat.one_ne_zero)
  failures t result ht := shutdown_failures h ht
  drained shard hshard := by
    refine ⟨drains_le_one h hshard, fun t result ht => ?_⟩
    exact drains_of_closed h hshard
      (closed_of_reports h ht.1 (by rw [ht.reports]; exact Nat.one_ne_zero))
  takes x hx shard hd := by
    obtain ⟨_, _, _, hpre, hstep⟩ := h.of_mem hx
    obtain ⟨v, a, v'⟩ := x
    dsimp only at hpre hstep
    rcases EntityRuntime.step_cases hstep with ⟨p, rfl, -⟩ | ⟨t, i, p, s, p', q, rfl, hp, hact, rfl⟩
    · cases hd
    · have hd : p.drainsShard v.shared shard := by simpa [drainsShard, hp] using hd
      obtain ⟨claim, rows, rfl, rfl, hempty⟩ := takes_of_drainsShard hpre hp hact hd
      exact ⟨hempty, t, claim, rows, hp, get_moved hp _ q⟩

/-- Admit a command to entity 5, whose activation panics.  The first shutdown is dropped as it waits
for the task; the second finds the task's record, joins it, and finishes. -/
def failingShutdown : List (Schedule (Pc numbers) (Input numbers)) :=
  [.call (.admitCommand 0 5 7)] ++ sections 11 0 ++
  [.call .shutdown] ++ sections 3 2 ++ [.run 2 (.dropped true)] ++ sections 1 2 ++
  [.run 1 (.aborted 9)] ++ sections 3 1 ++
  [.call .shutdown] ++ sections 30 3

def Pc.shutdown? : Pc R → Option (EntityShutdown R)
  | .returned (.shutdown result) => some result
  | _ => none

omit [DecidableEq R.Id] in
theorem Pc.of_shutdown? (h : p.shutdown? = some result) : p = .returned (.shutdown result) := by
  rw [shutdown?.eq_def] at h
  split at h
  · rw [some.inj h]
  · cases h

/-- That shutdown returns the failure of the activation. -/
theorem affine_shutdown_failing :
    ∃ tr w result, Reaches (R := numbers) oneShard (fun _ => 0) tr w ∧ Concludes w 3 result ∧
      result.failures = [9] ∧ AffineShutdown oneShard tr w := by
  have hexec : ((exec (EntityRuntime.step (R := numbers)) (EntityRuntime.new oneShard fun _ => 0)
      failingShutdown).map fun r =>
        (r.2.threads[3]?.bind (shutdown? (R := numbers))).map fun result =>
          (result.final, result.failures)) = some (some (true, [9])) := by decide +kernel
  obtain ⟨⟨tr, w⟩, hrun, hw⟩ := map_eq_some_iff.mp hexec
  obtain ⟨result, hbind, hresult⟩ := map_eq_some_iff.mp hw
  obtain ⟨p, hp, hret⟩ := bind_eq_some_iff.mp hbind
  obtain ⟨hfinal, hfail⟩ := Prod.mk.inj hresult
  rw [of_shutdown? hret] at hp
  exact ⟨tr, w, result, exec_run hrun, ⟨hp, hfinal⟩, hfail, affine_shutdown (exec_run hrun)⟩

end Entity
