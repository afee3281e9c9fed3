import Bombay.Entity.Names
import Bombay.Entity.Guards

/-!
# The claimant of a family shutdown

A shutdown that has the claim waits until the group is idle, takes and joins the records, drains the
directory, closes the slots, and waits and joins again.  `Pc.stage` says how far it is, and
`Stage.Holds` what it then knows of the group: that it is idle, that its records are taken, that the
directory has been drained.  `Counted.still` makes that knowledge stable.

A claimant that is dropped gives everything back, so the next one starts from what is in the group.

The knowledge is what the assertions of the source need: `panics_report` says that none of them can
fail, up to the last loop of `shutdown`, which runs after the group is closed.
-/

set_option autoImplicit false

namespace Entity

open Machine EntityTaskState

variable {R : LocalEntityRuntime}

/-! ## Stages -/

def EntityTaskRecord.Ended : EntityTaskRecord R → Prop
  | .running _ => False
  | .joined | .failed _ => True

def EntityTaskState.records : EntityTaskState R → List (EntityTaskRecord R)
  | .opened st => st.tasks
  | .closed => []

/-- How far a shutdown is. -/
inductive Stage (R : LocalEntityRuntime)
  /-- It relies on nothing. -/
  | outside
  | drained
  | idle (again : Bool)
  | joining (tasks : List (EntityTaskRecord R)) (again : Bool) (index : ℕ)
  | taking
  | settled (tasks : List (EntityTaskRecord R))
  | completed

/-- The stage of a thread that may interpret a closed slot. -/
def Stage.ofClosed : Bool → Stage R
  | true => .drained
  | false => .outside

def Pc.stage : Pc R → Stage R
  | .waitIdle _ again | .idle _ again _ => .ofClosed again
  | .takeTasks _ again => .idle again
  | .join owned again index => .joining owned.tasks again index
  | .takeFamily .. => .taking
  | .rows _ | .closeSlots .. | .sweep .. => .drained
  | .hasPending owned _ | .complete owned => .settled owned.tasks
  | .closeGroup .. => .completed
  | .submitOrInactive _ _ purpose | .submit _ _ _ purpose => .ofClosed purpose.closing
  | .acquire _ _ ret | .next _ _ ret | .interpretEffect _ _ _ ret | .takeSlot _ _ _ ret
  | .retainRetired _ _ _ ret => .ofClosed ret.closed
  | .begin _ cont | .spawn _ cont | .track _ cont => .ofClosed cont.closing
  | _ => .outside

@[simp] theorem After.stage_pc (after : After R) : after.pc.stage = .outside := by
  cases after <;> rfl

@[simp] theorem Return.stage_pc (ret : Return R) : ret.pc.stage = .ofClosed ret.closed := by
  rcases ret with _ | _ | _ | _ | ⟨_, _, _, _ | _, _⟩ | _ <;> rfl

@[simp] theorem Cont.stage_pc (cont : Cont R) : cont.pc.stage = .ofClosed cont.closing := by
  cases cont <;> rfl

theorem stage_submitOwned (id : R.Id) (slot : Option SlotRef) (event : R.Event)
    (ret : SlotRef → Return R) (h : ∀ slot, (ret slot).closed = false) :
    (submitOwned id slot event ret).stage = .outside := by
  cases slot with
  | none => rfl
  | some slot => exact congrArg Stage.ofClosed (h slot)

@[simp] theorem stage_terminated (id : R.Id) (slot : Option SlotRef) (a : ActivationId)
    (mode : RetirementMode) : (terminated id slot a mode).stage = .outside :=
  stage_submitOwned id slot _ _ fun _ => rfl

theorem Pc.claiming_of_stage {p : Pc R} (h : p.stage ≠ .outside) : p.claiming ≠ 0 := by
  cases p with
  | submitOrInactive _ _ purpose | submit _ _ _ purpose =>
    cases hc : purpose.closing <;> simp_all [Pc.stage, Stage.ofClosed]
  | acquire _ _ ret | next _ _ ret | interpretEffect _ _ _ ret | takeSlot _ _ _ ret
  | retainRetired _ _ _ ret =>
    cases hc : ret.closed <;> simp_all [Pc.stage, Stage.ofClosed]
  | begin _ cont | spawn _ cont | track _ cont =>
    cases hc : cont.closing <;> simp_all [Pc.stage, Stage.ofClosed]
  | _ =>
    first
    | exact Nat.one_ne_zero
    | exact absurd rfl h

/-- What a shutdown knows of the group at its stage. -/
def Stage.Holds (x : EntityTaskState R) : Stage R → Prop
  | .outside => True
  | .drained => x.rows.isSome
  | .idle again => x.guards = 0 ∧ (again → x.rows.isSome)
  | .joining tasks again index =>
    x.guards = 0 ∧ x.records = [] ∧ (again → x.rows.isSome) ∧
      ∀ j < index, ∀ r, tasks[j]? = some r → r.Ended
  | .taking => x.rows = none
  | .settled tasks =>
    x.guards = 0 ∧ x.records = [] ∧ x.rows.isSome ∧ ∀ r ∈ tasks, r.Ended
  | .completed => x.guards = 0 ∧ x.records = [] ∧ x.rows = none

variable {x : EntityTaskState R}

theorem Stage.holds_ofClosed {b : Bool} : (Stage.ofClosed b).Holds x ↔ (b → x.rows.isSome) := by
  cases b with
  | false | true => simp [Stage.ofClosed, Stage.Holds]

theorem Stage.Holds.stable {y} {stage : Stage R} (h : stage.Holds x)
    (hrows : y.rows = x.rows) (hsame : x.guards = 0 → y = x) : stage.Holds y := by
  cases stage with
  | outside => trivial
  | drained =>
    show y.rows.isSome
    rw [hrows]
    exact h
  | taking => exact hrows.trans h
  | idle | joining | settled | completed => exact hsame h.1 ▸ h

namespace EntityTaskState

variable {x y : EntityTaskState R}

theorem records_takeTasks {records}
    (h : x.takeTasks = some (y, records)) : y.records = [] ∧ x.records = records := by
  cases x with
  | opened =>
    rw [takeTasks] at h
    split at h
    · cases h; exact ⟨rfl, rfl⟩
    · cases h
  | closed => cases h

variable {n : ℕ}

theorem records_complete {rows} {retirements}
    (h : x.complete = some (y, n, rows, retirements)) : y.records = x.records := by
  cases x with
  | opened =>
    rw [complete] at h
    split at h
    · cases h; rfl
    · cases h
  | closed => cases h

theorem guards_of_idle (hfits : x.EpochFits) (h : x.idleEpoch? = none) : x.guards = 0 := by
  cases x with
  | opened => exact hfits.mpr h
  | closed => rfl

variable {st : OpenTasks R}

theorem rows_notStarted (hdrain : st.drain = .notStarted) : (opened st).rows = none := by
  rw [rows, hdrain]

theorem rows_started {taken}
    (hdrain : st.drain = .started n taken) : (opened st).rows = some taken := by
  rw [rows, hdrain]

end EntityTaskState

/-! ## The step -/

theorem ended_succ {tasks : List (EntityTaskRecord R)} {index : ℕ} {r : EntityTaskRecord R}
    (h : ∀ j < index, ∀ r, tasks[j]? = some r → r.Ended) (hr : r.Ended) :
    ∀ j < index + 1, ∀ r', (tasks.set index r)[j]? = some r' → r'.Ended := by
  intro j hj r' hr'
  rcases of_moved hr' with ⟨_, rfl⟩ | ⟨hne, hold⟩
  · exact hr
  · exact h j (by omega) r' hold

variable [DecidableEq R.Id] {s s' : Shared R} {self fresh : ℕ} {p p' : Pc R} {q : Option (Pc R)}
  {i : Input R}

theorem Acts.stage_holds (h : Acts s self fresh p i s' p' q) (hfits : s.tasks.EpochFits)
    (hk : p.stage.Holds s.tasks) : p'.stage.Holds s'.tasks := by
  cases h with
  | retained _ _ _ _ tasks _ htasks =>
    refine Stage.holds_ofClosed.mpr fun hc => ?_
    rw [show ({ s with tasks := tasks } : Shared R).tasks.rows = s.tasks.rows from
      rows_retainRetired htasks]
    exact Stage.holds_ofClosed.mp hk hc
  | begun _ _ tasks _ htasks =>
    refine Stage.holds_ofClosed.mpr fun hc => ?_
    show tasks.rows.isSome
    rw [rows_begin htasks]
    exact Stage.holds_ofClosed.mp hk hc
  | tracked _ _ tasks _ htasks =>
    rw [Cont.stage_pc]
    refine Stage.holds_ofClosed.mpr fun hc => ?_
    show tasks.rows.isSome
    rw [rows_track htasks]
    exact Stage.holds_ofClosed.mp hk hc
  | waiting | woken | drainedShard | copied | familyClosed | allClosed | swept | allSwept
  | pendingNone | allEmpty => exact hk
  | waited _ _ _ idle =>
    exact ⟨guards_of_idle hfits idle, Stage.holds_ofClosed.mp hk⟩
  | tookTasks _ _ tasks _ _ htasks =>
    obtain ⟨hguards, _, _⟩ := (sameCounts_takeTasks htasks).counts
    refine ⟨hguards.trans hk.1, (records_takeTasks htasks).1, fun hagain => ?_,
      fun j hj => absurd hj (Nat.not_lt_zero j)⟩
    show tasks.rows.isSome
    rw [rows_takeTasks htasks]
    exact hk.2 hagain
  | joined
  | joinFailed =>
    exact ⟨hk.1, hk.2.1, hk.2.2.1, ended_succ hk.2.2.2 trivial⟩
  | joinSkipped _ _ index record hrecord ended =>
    refine ⟨hk.1, hk.2.1, hk.2.2.1, fun j hj r hr => ?_⟩
    by_cases hlt : j < index
    · exact hk.2.2.2 j hlt r hr
    · obtain rfl : j = index := by omega
      obtain rfl := Option.some.inj (hrecord.symm.trans hr)
      cases record with
      | running handle => exact absurd rfl (ended handle)
      | joined | failed => trivial
  | joinedAgain claim index ended =>
    refine ⟨hk.1, hk.2.1, hk.2.2.1 rfl, fun r hr => ?_⟩
    obtain ⟨j, hj⟩ := List.mem_iff_getElem?.mp hr
    have hlt := lt_of_get hj
    have hle : claim.tasks.length ≤ index := List.getElem?_eq_none_iff.mp ended
    exact hk.2.2.2 j (by omega) r hj
  | drainStarted _ _ _ opened hdrain =>
    show s.tasks.rows = none
    rw [opened]
    exact rows_notStarted hdrain
  | drainedBefore _ _ _ _ _ opened hdrain =>
    show s.tasks.rows.isSome
    rw [opened, rows_started hdrain]
    rfl
  | drained _ _ _ tasks _ htasks =>
    show tasks.rows.isSome
    rw [rows_recordDrain htasks]
    rfl
  | pendingSome => exact hk.2.2.1
  | completed _ _ _ _ _ _ _ _ htasks =>
    obtain ⟨hguards, _, _⟩ := (sameCounts_complete htasks).counts
    exact ⟨hguards.trans hk.1, (records_complete htasks).trans hk.2.1, rows_complete htasks⟩
  | delivered | fenced =>
    rw [stage_submitOwned _ _ _ _ fun _ => rfl]
    trivial
  | busy | emptied | transientDone =>
    rw [Return.stage_pc]
    exact hk
  | absent | submitted =>
    refine Stage.holds_ofClosed.mpr fun hc => ?_
    rw [Purpose.closing_ret] at hc
    exact Stage.holds_ofClosed.mp hk hc
  | released | retired | recorded =>
    simp [Stage.Holds]
  | _ =>
    first
    | exact hk
    | trivial

/-- The knowledge of all threads. -/
def Informed (w : Pool (Shared R) (Pc R)) : Prop :=
  Each (fun _ p => p.stage.Holds w.shared.tasks) w.threads

variable {config : DirectoryConfig} {hash : R.Id → ℕ} {tr : RuntimeHistory R}
    {w : Pool (Shared R) (Pc R)}

theorem informed_run (h : Reaches config hash tr w) : Informed w := by
  refine h.invariant (P := Informed) (each_nil _) (fun w p hw hp => ?_)
    fun tr w t i p s p' q hrun hw hp hact => ?_
  · refine each_append (q := some p) hw fun r hr => ?_
    obtain rfl := Option.some.inj hr
    cases p with
    | admitCommand | passivate | retireEntity | shutdown => trivial
    | _ => cases hp
  · have hcounted := counted_run hrun
    have hgated := gated_run hrun
    intro u r hr
    by_cases hu : u < w.threads.length
    · rw [List.getElem?_append_left (by simpa using hu)] at hr
      rcases of_moved hr with ⟨rfl, rfl⟩ | ⟨hne, hold⟩
      · exact hact.stage_holds hcounted.epoch (hw u p hp)
      · by_cases hout : r.stage = .outside
        · rw [hout]
          trivial
        · have hclaims := Pc.claiming_of_stage hout
          exact (hw u r hold).stable
            (hact.group.rows (hcounted.claiming_of_other hp hold (Ne.symm hne) hclaims))
            fun hidle => hcounted.still hgated hp hold (Ne.symm hne) hclaims hidle hact.group
    · rw [List.getElem?_append_right (by simpa using Nat.le_of_not_lt hu)] at hr
      obtain ⟨task, _, _, rfl⟩ := hact.started (Option.mem_toList.mp (List.mem_of_getElem? hr))
      trivial

/-! ## No panic -/

namespace EntityTaskState

omit [DecidableEq R.Id]

variable {x : EntityTaskState R}

theorem opened_of_claiming (h : x.claiming ≠ 0) :
    ∃ st, x = .opened st ∧ st.shutdown = .claimed := by
  cases x with
  | opened st =>
    rw [claiming] at h
    split_ifs at h with hclaimed
    · exact ⟨st, rfl, hclaimed⟩
    · exact absurd rfl h
  | closed => exact absurd rfl h

theorem finish_ne_none (h : x.guards ≠ 0) : x.finish ≠ none := by
  cases x with
  | opened =>
    rw [finish]
    split
    · next hzero => exact absurd hzero h
    · simp
    · simp
  | closed => exact absurd rfl h

theorem takeTasks_ne_none (h : x.claiming ≠ 0) : x.takeTasks ≠ none := by
  obtain ⟨st, rfl, hclaimed⟩ := opened_of_claiming h
  simp [takeTasks, hclaimed]

theorem complete_ne_none (h : x.rows.isSome) : x.complete ≠ none := by
  cases x with
  | opened st =>
    cases hdrain : st.drain with
    | notStarted => simp [rows, hdrain] at h
    | started => simp [complete, hdrain]
  | closed => cases h

theorem failures_ne_none {tasks : List (EntityTaskRecord R)} (h : ∀ r ∈ tasks, r.Ended) :
    failures tasks ≠ none := by
  induction tasks with
  | nil => simp [failures]
  | cons r _ ih =>
    have hrest := ih fun r' hr' => h r' (List.mem_cons_of_mem _ hr')
    cases r with
    | running => exact (h _ (List.mem_cons_self ..)).elim
    | joined => exact hrest
    | failed =>
      rw [failures, ne_eq, Option.map_eq_none_iff]
      exact hrest

theorem close_ne_none (hclaims : x.claiming ≠ 0) (hfits : x.EpochFits) (hguards : x.guards = 0)
    (hrecords : x.records = []) : x.close ≠ none := by
  obtain ⟨st, rfl, hclaimed⟩ := opened_of_claiming hclaims
  have hepoch : st.idleEpoch = none := hfits.mp hguards
  rw [close, if_pos ⟨hguards, by simp [hepoch], List.isEmpty_iff.mpr hrecords, hclaimed⟩]
  simp

end EntityTaskState

/-- **No section of the task group panics.**  What is left is the last assertion of `shutdown`,
after the group is closed. -/
theorem panics_report {t : ℕ} (h : Reaches config hash tr w)
    (hp : w.threads[t]? = some p) (hpanic : p.Panics w.shared) :
    ∃ n rows retirements failures entities, p = .report n rows retirements failures entities := by
  have hcounted := counted_run h
  have hopen : p.Owns → w.shared.tasks ≠ .closed := hcounted.opened_of_owns (gated_run h) hp
  have hclaims : p.claiming ≤ w.shared.tasks.claiming := hcounted.claiming ▸ le_total Pc.claiming hp
  have hguards : p.guards ≤ w.shared.tasks.guards := hcounted.guards ▸ le_total Pc.guards hp
  have hknows := informed_run h t p hp
  cases p with
  | retainRetired _ _ _ ret =>
    have := hopen ret.owns
    cases hx : w.shared.tasks <;> simp_all [Pc.Panics, retainRetired]
  | begin _ cont =>
    have := hopen cont.owns
    cases hx : w.shared.tasks <;> simp_all [Pc.Panics, EntityTaskState.begin]
  | track _ cont =>
    have := hopen cont.owns
    cases hx : w.shared.tasks <;> simp_all [Pc.Panics, track]
  | task work =>
    obtain ⟨slot, hslot, _⟩ := (named_run h).threads t _ hp
    cases work with
    | activation => cases hslot.symm.trans hpanic
    | _ => exact hpanic.elim
  | retirementFailed =>
    have := hopen (.inl Nat.one_ne_zero)
    cases hx : w.shared.tasks <;> simp_all [Pc.Panics, retirementFailed]
  | finish =>
    exact absurd hpanic (finish_ne_none (Nat.one_le_iff_ne_zero.mp hguards))
  | takeTasks =>
    exact absurd hpanic (takeTasks_ne_none (Nat.one_le_iff_ne_zero.mp hclaims))
  | recordDrain => exact absurd hpanic (hopen (.inr (.inr Nat.one_ne_zero)))
  | takeFamily =>
    have := hopen (.inr (.inr Nat.one_ne_zero))
    cases hx : w.shared.tasks <;> simp_all [Pc.Panics, recordDrain]
  | rows =>
    have hsome : w.shared.tasks.rows.isSome := hknows
    rw [show w.shared.tasks.rows = none from hpanic] at hsome
    cases hsome
  | complete =>
    obtain ⟨_, _, hrows, hended⟩ := hknows
    rcases hpanic with hnone | hnone
    · exact absurd hnone (failures_ne_none hended)
    · exact absurd hnone (complete_ne_none hrows)
  | closeGroup =>
    obtain ⟨hidle, hrecords, _⟩ := hknows
    exact absurd hpanic (close_ne_none (Nat.one_le_iff_ne_zero.mp hclaims)
      hcounted.epoch hidle hrecords)
  | report n rows retirements failures entities =>
    exact ⟨n, rows, retirements, failures, entities, rfl⟩
  | _ => exact hpanic.elim

end Entity
