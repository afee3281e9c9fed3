import Bombay.Entity.Claimant

/-!
# The records of an entity family's tasks

Every task that `spawn_owned` starts has one record: `running` while it may still fail, in the hands
of the thread that is about to track it, in the group, or in the claim of a shutdown.  A join turns
the record into what the task ended with, and a claimant that is dropped puts its records back, some
of them joined and some not.  So at every moment the failures in the records, together with those
of the tasks whose records are still `running`, are the failures of all tasks (`Booked.owed`).

Failures need not be comparable and records have no names once they are joined.  So records are
weighed, and the claim is made for every test `c` of failures.
-/

set_option autoImplicit false

namespace Entity

open Machine List Option EntityTaskRecord EntityTaskState

variable {R : LocalEntityRuntime}

/-! ## Tasks and their records -/

def Pc.failure? : Pc R → Option R.TaskFailure
  | .finish ending | .publishIdle _ ending | .exit ending | .ended ending => ending.failure?
  | .panicked place => place.failure?
  | _ => none

/-- The records in a result are its failures. -/
def EntityShutdown.records : EntityShutdown R → List (EntityTaskRecord R)
  | .unsettled _ _ failures => failures.map .failed
  | .settled .. | .alreadyClaimed => []

def After.records : After R → List (EntityTaskRecord R)
  | .stop (.shutdown result) => result.records
  | _ => []

def Return.records : Return R → List (EntityTaskRecord R)
  | .closeSlot owned .. | .sweep owned _ => owned.tasks
  | .release after => after.records
  | _ => []

def Purpose.records : Purpose R → List (EntityTaskRecord R)
  | .task ret => ret.records
  | _ => []

def Cont.records : Cont R → List (EntityTaskRecord R)
  | .interpret _ _ ret => ret.records
  | .closeSlots owned _ => owned.tasks

/-- The records in the hands of a thread. -/
def Pc.records : Pc R → List (EntityTaskRecord R)
  | .waitIdle owned _ | .idle owned .. | .takeTasks owned _ | .join owned .. | .recordDrain owned
  | .takeFamily owned .. | .rows owned | .closeSlots owned _ | .hasPending owned _
  | .sweep owned _ | .complete owned | .dropClaim owned => owned.tasks
  | .release after => after.records
  | .submitOrInactive _ _ purpose | .submit _ _ _ purpose => purpose.records
  | .acquire _ _ ret | .next _ _ ret | .interpretEffect _ _ _ ret | .takeSlot _ _ _ ret
  | .retainRetired _ _ _ ret => ret.records
  | .begin _ cont | .spawn _ cont => cont.records
  | .track handle cont => .running handle :: cont.records
  | .closeGroup _ _ _ failures | .report _ _ _ failures _ => failures.map .failed
  | .returned outcome => (After.stop outcome).records
  | .panicked place => place.records
  | _ => []

/-- Whether a thread is a task that can still be joined. -/
def Pc.works : Pc R → ℕ
  | .spawn _ cont => cont.guards
  | .publishIdle .. | .exit _ => 1
  | .panicked place => place.works
  | p => p.guards

theorem After.books_pc (after : After R) :
    after.pc.records = after.records ∧ after.pc.works = 0 ∧ after.pc.failure? = none := by
  cases after <;> exact ⟨rfl, rfl, rfl⟩

theorem Return.books_pc (ret : Return R) :
    ret.pc.records = ret.records ∧ ret.pc.works = ret.guards ∧ ret.pc.failure? = none := by
  rcases ret with _ | _ | _ | _ | ⟨_, _, _, _ | _, _⟩ | _ <;> exact ⟨rfl, rfl, rfl⟩

theorem Cont.books_pc (cont : Cont R) :
    cont.pc.records = cont.records ∧ cont.pc.works = cont.guards ∧ cont.pc.failure? = none := by
  cases cont <;> exact ⟨rfl, rfl, rfl⟩

theorem Purpose.records_ret (purpose : Purpose R) (id : R.Id) (installed : InstalledSlotEvidence) :
    (purpose.ret id installed).records = purpose.records := by
  cases purpose <;> rfl

theorem books_submitOwned (id : R.Id) (slot : Option SlotRef) (event : R.Event)
    (ret : SlotRef → Return R) (h : ∀ slot, (ret slot).records = [] ∧ (ret slot).guards = 1) :
    (submitOwned id slot event ret).records = [] ∧ (submitOwned id slot event ret).works = 1 ∧
      (submitOwned id slot event ret).failure? = none := by
  cases slot with
  | none => exact ⟨rfl, rfl, rfl⟩
  | some slot => exact ⟨(h slot).1, (h slot).2, rfl⟩

theorem books_terminated (id : R.Id) (slot : Option SlotRef) (a : ActivationId)
    (mode : RetirementMode) : (terminated id slot a mode).records = [] ∧
      (terminated id slot a mode).works = 1 ∧ (terminated id slot a mode).failure? = none :=
  books_submitOwned id slot _ _ fun _ => ⟨rfl, rfl⟩

theorem EntityShutdown.records_classify (represented : ℕ) (entities : List (FamilyRow R))
    (failures : List R.TaskFailure) :
    (classify represented entities failures).records = failures.map .failed := by
  rw [classify]
  split_ifs with hsettled
  · rw [List.isEmpty_iff.mp (Bool.and_eq_true_iff.mp hsettled).1]
    rfl
  · rfl

def EntityTaskRecord.ofJoin : Option R.TaskFailure → EntityTaskRecord R
  | none => .joined
  | some failure => .failed failure

/-! ## What a section does to the records

Records are compared by weighing them: `f` gives each record a weight, and a record of a task that
returned is worth nothing. -/

variable {tasks : List (EntityTaskRecord R)}

theorem total_failures {f : EntityTaskRecord R → ℕ} (hf : f .joined = 0)
    {failures} (h : EntityTaskState.failures tasks = some failures) :
    total f (failures.map .failed) = total f tasks := by
  induction tasks generalizing failures with
  | nil =>
    obtain rfl := some.inj h
    rfl
  | cons r _ ih =>
    cases r with
    | running => cases h
    | joined =>
      rw [total_cons, hf, Nat.zero_add]
      exact ih h
    | failed =>
      obtain ⟨rest, hrest, rfl⟩ := map_eq_some_iff.mp h
      rw [map_cons, total_cons, total_cons, ih hrest]

/-- What a section does to the records of tasks. -/
inductive Books (s : Shared R) (self fresh : ℕ) (p : Pc R) (s' : Shared R) (p' : Pc R)
    (q : Option (Pc R)) : Prop
  /-- The records may change hands, and the task goes on. -/
  | keep (records : ∀ f : EntityTaskRecord R → ℕ, f .joined = 0 →
        total f s'.tasks.records + total f p'.records = total f s.tasks.records + total f p.records)
      (joinable : s'.joinable = s.joinable) (works : p'.works = p.works)
      (failure : p'.failure? = p.failure?) (start : q = none)
  | spawn (task : Task R) (tasks : s'.tasks = s.tasks)
      (records : p'.records = .running fresh :: p.records) (joinable : s'.joinable = s.joinable)
      (works : p'.works = p.works) (failure : p.failure? = none) (failure' : p'.failure? = none)
      (start : q = some (.task task))
  | fail (tasks : s'.tasks = s.tasks) (records : p'.records = p.records)
      (joinable : s'.joinable = s.joinable) (works : p.works = 1) (works' : p'.works = 1)
      (failure : p.failure? = none) (start : q = none)
  | exit (ending : Ending R) (place : p = .exit ending) (place' : p' = .ended ending)
      (tasks : s'.tasks = s.tasks) (joinable : s'.joinable = (self, ending.failure?) :: s.joinable)
      (start : q = none)
  | join (handle : ℕ) (result : Option R.TaskFailure) (tasks : s'.tasks = s.tasks)
      (ready : s.joinable.lookup handle = some result)
      (records : ∀ f : EntityTaskRecord R → ℕ,
        total f p'.records + f (.running handle) = total f p.records + f (.ofJoin result))
      (joinable : s'.joinable = s.joinable) (works : p.works = 0) (works' : p'.works = 0)
      (failure : p.failure? = none) (failure' : p'.failure? = none) (start : q = none)

theorem Books.same {s s' : Shared R} {self fresh : ℕ} {p p' : Pc R}
    (tasks : s'.tasks.records = s.tasks.records) (joinable : s'.joinable = s.joinable)
    (records : p'.records = p.records) (works : p'.works = p.works)
    (failure : p'.failure? = p.failure?) : Books s self fresh p s' p' none :=
  .keep (fun f _ => by rw [tasks, records]) joinable works failure rfl

namespace EntityTaskState

variable {x y : EntityTaskState R}

theorem records_begin {epoch} (h : x.begin epoch = some y) : y.records = x.records := by
  cases x with
  | opened => cases h; rfl
  | closed => cases h

theorem records_claim (h : x.claim = some y) : y.records = x.records := by
  cases x with
  | opened =>
    rw [claim] at h
    split at h
    · cases h; rfl
    · cases h
  | closed => cases h

theorem records_track {task : ℕ} (h : x.track task = some y) :
    y.records = x.records ++ [.running task] := by
  cases x with
  | opened => cases h; rfl
  | closed => cases h

theorem records_finish {epoch} (h : x.finish = some (y, epoch)) : y.records = x.records := by
  cases x with
  | opened =>
    rw [finish] at h
    split at h
    · cases h
    · cases h; rfl
    · cases h; rfl
  | closed => cases h

theorem records_retirementFailed {retirement}
    (h : x.retirementFailed retirement = some y) : y.records = x.records := by
  cases x with
  | opened => cases h; rfl
  | closed => cases h

theorem records_retainRetired {row : R.Row} {keeps : Retirement R → Bool}
    (h : x.retainRetired row keeps = some y) : y.records = x.records := by
  cases x with
  | opened => cases h; rfl
  | closed => cases h

theorem records_recordDrain {rows} (h : x.recordDrain rows = some y) : y.records = x.records := by
  cases x with
  | opened => cases h; rfl
  | closed => cases h

theorem records_close (h : x.close = some y) : y.records = x.records := by
  obtain ⟨rfl, rfl | ⟨st, rfl, _, htasks, _⟩⟩ := of_close h
  · rfl
  · exact htasks.symm

theorem records_dropClaim (hopen : x ≠ .closed) (tasks : List (EntityTaskRecord R)) :
    (x.dropClaim tasks).records = x.records ++ tasks := by
  cases x with
  | opened => rfl
  | closed => exact absurd rfl hopen

end EntityTaskState

theorem total_joined {index handle : ℕ} (running : tasks[index]? = some (.running handle))
    (r : EntityTaskRecord R) (f : EntityTaskRecord R → ℕ) :
    total f (tasks.set index r) + f (.running handle) = total f tasks + f r :=
  total_set f r running

variable [DecidableEq R.Id] {s s' : Shared R} {self fresh : ℕ} {p p' : Pc R} {q : Option (Pc R)}
  {i : Input R}

/-- **The books of one section.**  A claim is dropped while the group is open. -/
theorem Acts.books (h : Acts s self fresh p i s' p' q)
    (hopen : p.claiming ≠ 0 → s.tasks ≠ .closed) : Books s self fresh p s' p' q := by
  cases h with
  | retained _ _ _ _ _ _ htasks =>
    exact .same (records_retainRetired htasks) rfl rfl rfl rfl
  | begun _ _ _ _ htasks =>
    exact .same (records_begin htasks) rfl rfl rfl rfl
  | spawned task => exact .spawn task rfl rfl rfl rfl rfl rfl rfl
  | tracked _ cont tasks _ htasks =>
    refine .keep (fun f _ => ?_) rfl cont.books_pc.2.1 cont.books_pc.2.2 rfl
    show total f tasks.records + total f cont.pc.records = _
    rw [EntityTaskState.records_track htasks, cont.books_pc.1, total_append, Pc.records, total_cons,
      total_cons, total_nil]
    omega
  | aborted | diagnoseAborted => exact .fail rfl rfl rfl rfl rfl rfl rfl
  | recorded _ _ _ htasks =>
    exact .same (records_retirementFailed htasks) rfl (books_terminated ..).1
      (books_terminated ..).2.1 (books_terminated ..).2.2
  | finishedLast _ _ _ _ htasks | finished _ _ _ htasks =>
    exact .same (records_finish htasks) rfl rfl rfl rfl
  | exited ending => exact .exit ending rfl rfl rfl rfl rfl
  | claimed _ _ htasks =>
    exact .same (records_claim htasks) rfl rfl rfl rfl
  | tookTasks claim _ tasks records _ htasks =>
    obtain ⟨hnone, hall⟩ := records_takeTasks htasks
    refine .keep (fun f _ => ?_) rfl rfl rfl rfl
    show total f tasks.records + total f (claim.tasks ++ records) = _
    rw [hnone, hall, total_append, total_nil, Pc.records]
    omega
  | joined _ _ _ handle running ended =>
    exact .join handle none rfl ended (total_joined running .joined) rfl rfl rfl rfl rfl rfl
  | joinFailed _ _ _ handle failure running ended =>
    exact .join handle (some failure) rfl ended (total_joined running (.failed failure)) rfl rfl rfl
      rfl rfl rfl
  | drained _ _ _ _ _ htasks =>
    exact .same (records_recordDrain htasks) rfl rfl rfl rfl
  | completed _ failures tasks _ _ _ _ hfail htasks =>
    refine .keep (fun f hf => ?_) rfl rfl rfl rfl
    show total f tasks.records + total f (failures.map .failed) = _
    rw [records_complete htasks, total_failures hf hfail]
    rfl
  | groupClosed _ _ _ _ _ _ htasks =>
    exact .same (records_close htasks) rfl rfl rfl rfl
  | reported =>
    exact .same rfl rfl (EntityShutdown.records_classify ..) rfl rfl
  | claimDropped claim =>
    refine .keep (fun f _ => ?_) rfl rfl rfl rfl
    show total f (s.tasks.dropClaim claim.tasks).records + 0 = _
    rw [records_dropClaim (hopen Nat.one_ne_zero), total_append]
    rfl
  | delivered | fenced =>
    obtain ⟨hrecords, hworks, hfailure⟩ := books_submitOwned _ _ _ (fun _ => .finish)
      fun _ => ⟨rfl, rfl⟩
    exact .same rfl rfl hrecords hworks hfailure
  | retired =>
    exact .same rfl rfl (books_terminated ..).1 (books_terminated ..).2.1 (books_terminated ..).2.2
  | released after =>
    exact .same rfl rfl after.books_pc.1 after.books_pc.2.1 after.books_pc.2.2
  | busy _ _ ret | emptied _ _ ret | transientDone _ ret =>
    exact .same rfl rfl ret.books_pc.1 ret.books_pc.2.1 ret.books_pc.2.2
  | absent _ _ purpose | submitted _ _ _ purpose =>
    exact .same rfl rfl (purpose.records_ret ..) (purpose.guards_ret ..) rfl
  | _ => exact .same rfl rfl rfl rfl rfl

theorem Acts.not_ended (h : Acts s self fresh p i s' p' q) (ending : Ending R) :
    p ≠ .ended ending := by
  rintro rfl
  cases h with
  | panic _ _ h => exact h

omit [DecidableEq R.Id]

/-! ## The records of all tasks -/

/-- The weight of all records, in the group and in the hands of the threads. -/
def booked (f : EntityTaskRecord R → ℕ) (w : Pool (Shared R) (Pc R)) : ℕ :=
  total f w.shared.tasks.records + total (fun p => total f p.records) w.threads

/-- Whether a record is that of the task `t`, not yet joined. -/
def EntityTaskRecord.runs (t : ℕ) : EntityTaskRecord R → ℕ
  | .running handle => if handle = t then 1 else 0
  | _ => 0

/-- Whether a task has failed with a failure that `c` looks for. -/
def Pc.fails (c : R.TaskFailure → Bool) (p : Pc R) : ℕ := (p.failure?.any c).toNat

/-- Whether the record is that of a task that has failed with a failure that `c` looks for. -/
def EntityTaskRecord.fails (c : R.TaskFailure → Bool) (threads : List (Pc R)) :
    EntityTaskRecord R → ℕ
  | .running handle => ((threads[handle]?.bind Pc.failure?).any c).toNat
  | .failed failure => (c failure).toNat
  | .joined => 0

section Moves

variable {w : Pool (Shared R) (Pc R)} {t : ℕ}

theorem booked_move (f : EntityTaskRecord R → ℕ) (s' : Shared R) (p' : Pc R)
    (hp : w.threads[t]? = some p) (hq : ∀ r, q = some r → r.records = []) :
    booked f ⟨s', w.threads.set t p' ++ q.toList⟩ +
        (total f w.shared.tasks.records + total f p.records) =
      booked f w + (total f s'.tasks.records + total f p'.records) := by
  have hmove := total_move (fun p => total f p.records) p' q hp
  have hnone : total (fun p => total f p.records) q.toList = 0 := by
    refine total_eq_zero fun r hr => ?_
    show total f r.records = 0
    rw [hq r (mem_toList.mp hr), total_nil]
  simp only [booked]
  omega

variable {l : List (Pc R)}

theorem failure_move (hp : l[t]? = some p) (hfailure : p'.failure? = p.failure?)
    (hq : ∀ r, q = some r → r.failure? = none) (handle : ℕ) :
    (l.set t p' ++ q.toList)[handle]?.bind Pc.failure? = l[handle]?.bind Pc.failure? := by
  by_cases hlt : handle < l.length
  · rw [getElem?_append_left (by simpa using hlt)]
    by_cases ht : handle = t
    · subst ht
      rw [getElem?_set_self hlt, hp]
      exact hfailure
    · rw [getElem?_set_ne (Ne.symm ht)]
  · rw [getElem?_append_right (by simpa using Nat.le_of_not_lt hlt),
      getElem?_eq_none (Nat.le_of_not_lt hlt)]
    cases hr : q.toList[handle - (l.set t p').length]? with
    | none => rfl
    | some r => exact hq r (mem_toList.mp (mem_of_getElem? hr))

theorem fails_move (hp : l[t]? = some p) (hfailure : p'.failure? = p.failure?)
    (hq : ∀ r, q = some r → r.failure? = none) (c : R.TaskFailure → Bool) :
    fails c (l.set t p' ++ q.toList) = fails c l := by
  funext r
  cases r with
  | running => rw [fails, fails, failure_move hp hfailure hq]
  | joined | failed => rfl

theorem total_fails_move (hp : l[t]? = some p) (hfailure : p'.failure? = p.failure?)
    (hq : ∀ r, q = some r → r.failure? = none) (c : R.TaskFailure → Bool) :
    total (Pc.fails c) (l.set t p' ++ q.toList) = total (Pc.fails c) l := by
  have hmove := total_move (Pc.fails c) p' q hp
  have hsame : p'.fails c = p.fails c := by rw [Pc.fails, Pc.fails, hfailure]
  have hnone : total (Pc.fails c) q.toList = 0 := by
    refine total_eq_zero fun r hr => ?_
    rw [Pc.fails, hq r (mem_toList.mp hr)]
    rfl
  omega

theorem fails_fail (p' : Pc R) (hp : l[t]? = some p)
    (hnone : p.failure? = none) (c : R.TaskFailure → Bool) (r : EntityTaskRecord R) :
    r.fails c (l.set t p') = r.fails c l + p'.fails c * r.runs t := by
  cases r with
  | running handle =>
    simp only [fails, runs]
    by_cases ht : handle = t
    · subst ht
      rw [getElem?_set_self (lt_of_get hp), hp, if_pos rfl]
      simp [hnone, Pc.fails]
    · rw [getElem?_set_ne (Ne.symm ht), if_neg ht]
      simp
  | joined | failed => simp [fails, runs]

theorem booked_fail (p' : Pc R) (hp : l[t]? = some p)
    (hnone : p.failure? = none) (c : R.TaskFailure → Bool) :
    booked (fails c (l.set t p')) w = booked (fails c l) w + p'.fails c * booked (runs t) w := by
  have hrecords := total_add_mul (fails_fail p' hp hnone c)
  have hthr := total_add_mul (fun r : Pc R => hrecords r.records) w.threads
  rw [booked, booked, booked, hrecords, hthr, Nat.mul_add]
  omega

end Moves

/-- Every task has one record until it is joined, and the records have all failures. -/
structure Booked (w : Pool (Shared R) (Pc R)) : Prop where
  bounded : ∀ t, w.threads.length ≤ t → booked (runs t) w = 0
  works : Each (fun t p => p.works ≠ 0 → booked (runs t) w = 1) w.threads
  joinable : ∀ t result, w.shared.joinable.lookup t = some result →
    ∃ ending, w.threads[t]? = some (.ended ending) ∧ ending.failure? = result
  owed : ∀ c, booked (fails c w.threads) w = total (Pc.fails c) w.threads

section Step

variable {w : Pool (Shared R) (Pc R)} {t : ℕ}

variable {result : Option R.TaskFailure}

theorem Booked.joinable_move (hw : Booked w) (hp : w.threads[t]? = some p)
    (hover : ∀ ending, p ≠ .ended ending) {u : ℕ} (hu : w.shared.joinable.lookup u = some result) :
    ∃ ending, (w.threads.set t p' ++ q.toList)[u]? = some (.ended ending) ∧
      ending.failure? = result := by
  obtain ⟨ending, hended, hresult⟩ := hw.joinable u result hu
  have hne : u ≠ t := by
    rintro rfl
    exact hover ending (some.inj (hp.symm.trans hended))
  refine ⟨ending, ?_, hresult⟩
  rw [getElem?_append_left (by simpa using lt_of_get hended), getElem?_set_ne (Ne.symm hne)]
  exact hended

theorem booked_replace (f : EntityTaskRecord R → ℕ) (s' : Shared R) (p' : Pc R)
    (hp : w.threads[t]? = some p) :
    booked f ⟨s', w.threads.set t p' ++ none.toList⟩ +
        (total f w.shared.tasks.records + total f p.records) =
      booked f w + (total f s'.tasks.records + total f p'.records) :=
  booked_move f s' p' hp nofun

/-- A thread that does not begin to work moves, and every record keeps its weight. -/
theorem Booked.same (hw : Booked w) (hp : w.threads[t]? = some p)
    (hsame : ∀ f : EntityTaskRecord R → ℕ, f .joined = 0 →
      booked f ⟨s', w.threads.set t p' ++ none.toList⟩ = booked f w)
    (works : p'.works ≠ 0 → p.works ≠ 0)
    (joinable : ∀ u result, s'.joinable.lookup u = some result →
      ∃ ending, (w.threads.set t p' ++ none.toList)[u]? = some (.ended ending) ∧
        ending.failure? = result)
    (owed : ∀ c, booked (fails c (w.threads.set t p' ++ none.toList)) w =
      total (Pc.fails c) (w.threads.set t p' ++ none.toList)) :
    Booked ⟨s', w.threads.set t p' ++ none.toList⟩ := by
  refine ⟨fun u hu => ?_, ?_, joinable, fun c => (hsame _ rfl).trans (owed c)⟩
  · rw [hsame _ rfl]
    exact hw.bounded u (by simpa using hu)
  · refine each_move hw.works hp (fun hold hworks => ?_) (fun u r _ hold hworks => ?_) nofun
    · rw [hsame _ rfl]
      exact hold (works hworks)
    · rw [hsame _ rfl]
      exact hold hworks

theorem Booked.owed_same (hw : Booked w) (hp : w.threads[t]? = some p)
    (failure : p'.failure? = p.failure?) (c : R.TaskFailure → Bool) :
    booked (fails c (w.threads.set t p' ++ none.toList)) w =
      total (Pc.fails c) (w.threads.set t p' ++ none.toList) := by
  rw [fails_move (q := none) hp failure nofun, total_fails_move (q := none) hp failure nofun]
  exact hw.owed c

theorem Booked.keep (hw : Booked w) (hp : w.threads[t]? = some p)
    (hover : ∀ ending, p ≠ .ended ending) (records : ∀ f : EntityTaskRecord R → ℕ, f .joined = 0 →
      total f s'.tasks.records + total f p'.records =
        total f w.shared.tasks.records + total f p.records)
    (joinable : s'.joinable = w.shared.joinable) (works : p'.works = p.works)
    (failure : p'.failure? = p.failure?) : Booked ⟨s', w.threads.set t p' ++ none.toList⟩ := by
  refine hw.same hp (fun f hf => ?_) (fun hworks => works ▸ hworks)
    (fun u result hu => hw.joinable_move hp hover (joinable ▸ hu)) (hw.owed_same hp failure)
  have := booked_replace f s' p' hp
  have := records f hf
  omega

theorem Booked.spawn (hw : Booked w) (hp : w.threads[t]? = some p)
    (hover : ∀ ending, p ≠ .ended ending) (task : Task R) (tasks : s'.tasks = w.shared.tasks)
    (records : p'.records = .running w.threads.length :: p.records)
    (joinable : s'.joinable = w.shared.joinable) (works : p'.works = p.works)
    (failure : p'.failure? = p.failure?) :
    Booked ⟨s', w.threads.set t p' ++ (some (.task task)).toList⟩ := by
  have hmove (f : EntityTaskRecord R → ℕ) :
      booked f ⟨s', w.threads.set t p' ++ (some (.task task)).toList⟩ =
        booked f w + f (.running w.threads.length) := by
    have := booked_move (q := some (.task task)) f s' p' hp (by rintro _ ⟨⟩; rfl)
    rw [tasks, records, total_cons] at this
    omega
  have hstart : ∀ r, some (Pc.task task) = some r → r.failure? = none := by
    rintro _ ⟨⟩
    rfl
  -- a thread that was there before is not the new one
  have hother (u : ℕ) (hu : u ≠ w.threads.length) :
      booked (runs u) ⟨s', w.threads.set t p' ++ (some (.task task)).toList⟩ =
        booked (runs u) w := by
    rw [hmove, runs, if_neg (Ne.symm hu), Nat.add_zero]
  have hold {u : ℕ} {r : Pc R} (hr : w.threads[u]? = some r) : u ≠ w.threads.length :=
    Nat.ne_of_lt (lt_of_get hr)
  refine ⟨fun u hu => ?_, ?_, fun u result hu => ?_, fun c => ?_⟩
  · have hlen : w.threads.length + 1 ≤ u := by simpa using hu
    rw [hother u (by omega)]
    exact hw.bounded u (by omega)
  · intro u r hr
    rcases of_joined hr with hr | ⟨hlen, rfl⟩
    · rcases of_moved hr with ⟨rfl, rfl⟩ | ⟨_, hr⟩
      · intro hworks
        rw [hother u (hold hp)]
        exact hw.works u p hp (works ▸ hworks)
      · intro hworks
        rw [hother u (hold hr)]
        exact hw.works u r hr hworks
    · intro _
      obtain rfl : u = w.threads.length := by simpa using hlen
      rw [hmove, hw.bounded _ (Nat.le_refl _), runs, if_pos rfl]
  · exact hw.joinable_move hp hover (joinable ▸ hu)
  · show booked (fails c (w.threads.set t p' ++ (some (Pc.task task)).toList)) _ =
      total (Pc.fails c) (w.threads.set t p' ++ (some (Pc.task task)).toList)
    rw [fails_move hp failure hstart, total_fails_move hp failure hstart, hmove, hw.owed c,
      fails, getElem?_eq_none (Nat.le_refl _)]
    rfl

theorem Booked.fail (hw : Booked w) (hp : w.threads[t]? = some p)
    (hover : ∀ ending, p ≠ .ended ending) (tasks : s'.tasks = w.shared.tasks)
    (records : p'.records = p.records) (joinable : s'.joinable = w.shared.joinable)
    (works : p.works = 1) (failure : p.failure? = none) :
    Booked ⟨s', w.threads.set t p' ++ none.toList⟩ := by
  refine hw.same hp (fun f _ => ?_) (fun _ => by omega)
    (fun u result hu => hw.joinable_move hp hover (joinable ▸ hu)) fun c => ?_
  · have := booked_replace f s' p' hp
    rw [tasks, records] at this
    omega
  · have hown : booked (runs t) w = 1 := hw.works t p hp (by omega)
    have hmove := total_set (Pc.fails c) p' hp
    have hnone : p.fails c = 0 := by rw [Pc.fails, failure]; rfl
    rw [toList_none, append_nil, booked_fail p' hp failure, hw.owed c, hown]
    omega

theorem Booked.exit (hw : Booked w) {ending : Ending R}
    (hp : w.threads[t]? = some (.exit ending)) (tasks : s'.tasks = w.shared.tasks)
    (joinable : s'.joinable = (t, ending.failure?) :: w.shared.joinable) :
    Booked ⟨s', w.threads.set t (.ended ending) ++ none.toList⟩ := by
  refine hw.same hp (fun f _ => ?_) (fun hworks => absurd rfl hworks) (fun u result hu => ?_)
    (hw.owed_same hp rfl)
  · have := booked_replace f s' (.ended ending) hp
    rw [tasks] at this
    simpa [Pc.records] using this
  · by_cases ht : u = t
    · subst ht
      have hresult : ending.failure? = result := by
        rw [joinable, lookup_cons_self] at hu
        exact some.inj hu
      refine ⟨ending, ?_, hresult⟩
      simp [getElem?_set_self (lt_of_get hp)]
    · refine hw.joinable_move hp (by simp) ?_
      rw [joinable, lookup_cons, beq_false_of_ne ht] at hu
      exact hu

theorem Booked.join (hw : Booked w) (hp : w.threads[t]? = some p)
    (hover : ∀ ending, p ≠ .ended ending) {handle : ℕ}
    (tasks : s'.tasks = w.shared.tasks) (ready : w.shared.joinable.lookup handle = some result)
    (records : ∀ f : EntityTaskRecord R → ℕ,
      total f p'.records + f (.running handle) = total f p.records + f (.ofJoin result))
    (joinable : s'.joinable = w.shared.joinable) (works' : p'.works = 0)
    (failure : p'.failure? = p.failure?) : Booked ⟨s', w.threads.set t p' ++ none.toList⟩ := by
  have hmove (f : EntityTaskRecord R → ℕ) :
      booked f ⟨s', w.threads.set t p' ++ none.toList⟩ + f (.running handle) =
        booked f w + f (.ofJoin result) := by
    have := booked_replace f s' p' hp
    have := records f
    rw [tasks] at *
    omega
  have hjoined (u : ℕ) : (ofJoin result).runs u = 0 := by
    cases result <;> rfl
  obtain ⟨ending, hended, hresult⟩ := hw.joinable handle result ready
  refine ⟨fun u hu => ?_, ?_, fun u result hu => ?_, fun c => ?_⟩
  · have := hmove (runs u)
    have := hw.bounded u (by simpa using hu)
    have := hjoined u
    omega
  · intro u r hr hworks
    rw [toList_none, append_nil] at hr
    rcases of_moved hr with ⟨_, rfl⟩ | ⟨_, hr⟩
    · exact absurd works' hworks
    · have hne : handle ≠ u := by
        rintro rfl
        obtain rfl := some.inj (hended.symm.trans hr)
        exact hworks rfl
      have hsum := hmove (runs u)
      rw [hjoined, runs, if_neg hne] at hsum
      exact hsum.trans (hw.works u r hr hworks)
  · exact hw.joinable_move hp hover (joinable ▸ hu)
  · show booked (fails c (w.threads.set t p' ++ none.toList)) _ =
      total (Pc.fails c) (w.threads.set t p' ++ none.toList)
    have hsum := hmove (fails c w.threads)
    have hworth : (running handle).fails c w.threads = (ofJoin result).fails c w.threads := by
      rw [fails, hended, ← hresult]
      cases hf : ending.failure? <;>
        simp [Pc.failure?, hf, ofJoin, fails]
    rw [fails_move (q := none) hp failure nofun, total_fails_move (q := none) hp failure nofun,
      ← hw.owed c]
    omega

end Step

variable [DecidableEq R.Id]

variable {w : Pool (Shared R) (Pc R)}

theorem Booked.act {t : ℕ} (hw : Booked w)
    (hp : w.threads[t]? = some p) (h : Acts w.shared t w.threads.length p i s' p' q)
    (hopen : p.claiming ≠ 0 → w.shared.tasks ≠ .closed) :
    Booked ⟨s', w.threads.set t p' ++ q.toList⟩ := by
  have hover := h.not_ended
  cases h.books hopen with
  | keep records joinable works failure start =>
    subst start
    exact hw.keep hp hover records joinable works failure
  | spawn task tasks records joinable works failure failure' start =>
    subst start
    exact hw.spawn hp hover task tasks records joinable works (failure'.trans failure.symm)
  | fail tasks records joinable works _ failure start =>
    subst start
    exact hw.fail hp hover tasks records joinable works failure
  | exit _ place place' tasks joinable start =>
    subst start place place'
    exact hw.exit hp tasks joinable
  | join _ _ tasks ready records joinable _ works' failure failure' start =>
    subst start
    exact hw.join hp hover tasks ready records joinable works' (failure'.trans failure.symm)

omit [DecidableEq R.Id] in
theorem Pc.isCall_books (h : p.isCall) : p.records = [] ∧ p.works = 0 ∧ p.failure? = none := by
  cases p with
  | admitCommand | passivate | retireEntity | shutdown => exact ⟨rfl, rfl, rfl⟩
  | _ => cases h

omit [DecidableEq R.Id] in
theorem Booked.call (hw : Booked w) (hp : p.isCall) : Booked ⟨w.shared, w.threads ++ [p]⟩ := by
  obtain ⟨hrecords, hworks, hfailure⟩ := Pc.isCall_books hp
  have hsame (f : EntityTaskRecord R → ℕ) : booked f ⟨w.shared, w.threads ++ [p]⟩ = booked f w := by
    simp [booked, hrecords]
  have hfails (c : R.TaskFailure → Bool) : fails c (w.threads ++ [p]) = fails c w.threads := by
    funext r
    cases r with
    | running handle =>
      rw [fails, fails]
      by_cases hlt : handle < w.threads.length
      · rw [getElem?_append_left hlt]
      · rw [getElem?_append_right (Nat.le_of_not_lt hlt), getElem?_eq_none (Nat.le_of_not_lt hlt)]
        cases handle - w.threads.length with
        | zero => simp [hfailure]
        | succ => simp
    | joined | failed => rfl
  refine ⟨fun u hu => ?_, ?_, fun u result hu => ?_, fun c => ?_⟩
  · rw [hsame]
    exact hw.bounded u (by simp at hu; omega)
  · intro u r hr hne
    rw [hsame]
    rcases of_joined hr with hr | ⟨_, rfl⟩
    · exact hw.works u r hr hne
    · exact absurd hworks hne
  · obtain ⟨ending, hended, hresult⟩ := hw.joinable u result hu
    refine ⟨ending, ?_, hresult⟩
    rw [getElem?_append_left (lt_of_get hended)]
    exact hended
  · show booked (fails c (w.threads ++ [p])) _ = total (Pc.fails c) (w.threads ++ [p])
    rw [hfails, hsame, hw.owed c]
    simp [Pc.fails, hfailure]

/-- **The records along a run.** -/
theorem booked_run {config} {hash : R.Id → ℕ} {tr} (h : Reaches config hash tr w) : Booked w := by
  refine h.invariant ⟨fun _ _ => rfl, each_nil _, fun _ _ hu => ?_, fun _ => rfl⟩
    (fun w p hw hp => hw.call hp) fun tr w t i p s p' q hrun hw hp hact =>
      hw.act hp hact fun hne => ?_
  · cases hu
  · exact (counted_run hrun).opened_of_owns (gated_run hrun) hp (.inr (.inr hne))

end Entity
