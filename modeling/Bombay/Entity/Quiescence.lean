import Bombay.Entity.Shutdown
import Bombay.Entity.Commands

/-!
# What a settled family leaves behind

When a shutdown has returned `Settled`, every slot of the family is inactive, no slot has an effect
queued, and no thread has a command in its hands.  Three things make it so.

* A queued effect has somebody who will interpret it: whoever dispatches the slot, or whoever is
  about to (`watched_run`).  Those are all threads that own a part of the task group, so that a
  closed group has none of them.
* A slot in use is mapped, or its row is in the hands of a shutdown (`represented_run`).
* A shard that a shutdown has passed stays empty (`emptied_run`): admission is closed.
-/

set_option autoImplicit false

namespace Entity

open Machine List EntityTaskState LocalDirectory Shared SlotExecution

variable {R : LocalEntityRuntime}

/-! ## Who interprets the effects of a slot -/

section Places

variable (k : SlotRef)

def Cont.interprets : Cont R → ℕ
  | .interpret _ source _ => share k source.slot? 1
  | .closeSlots .. => 0

/-- Whether a thread is in the loop that interprets the effects of the slot. -/
def Pc.interprets : Pc R → ℕ
  | .next _ source _ | .interpretEffect _ source _ _ => share k source.slot? 1
  | .takeSlot _ slot _ _ | .retainRetired _ slot _ _ => share k (some slot) 1
  | .begin _ cont | .spawn _ cont | .track _ cont => cont.interprets k
  | .panicked place => place.interprets
  | _ => 0

/-- Whether a thread is about to dispatch the slot. -/
def Pc.acquires : Pc R → ℕ
  | .acquire _ slot _ => share k (some slot) 1
  | .panicked place => place.acquires
  | _ => 0

theorem Cont.watches_pc (cont : Cont R) :
    cont.pc.interprets k = cont.interprets k ∧ cont.pc.acquires k = 0 := by
  cases cont <;> exact ⟨rfl, rfl⟩

end Places

/-- Whoever interprets a slot or is about to owns a part of the task group. -/
theorem Pc.owns_of_watches {k : SlotRef} {p : Pc R} (h : p.interprets k + p.acquires k ≠ 0) :
    p.Owns := by
  induction p with
  | acquire _ _ ret | next _ _ ret | interpretEffect _ _ _ ret | takeSlot _ _ _ ret
  | retainRetired _ _ _ ret => exact ret.owns
  | begin _ cont | track _ cont => exact cont.owns
  | spawn => exact .inl (Nat.succ_ne_zero _)
  | panicked _ ih => exact ih h
  | _ => exact absurd rfl h

def SlotDispatchPhase.busy : SlotDispatchPhase → ℕ
  | .idle => 0
  | .dispatching => 1

/-- Whether the slot is being dispatched. -/
def Shared.dispatching (s : Shared R) (k : SlotRef) : ℕ :=
  match s.directory.slots[k]? with
  | some x => x.execution.dispatch.busy
  | none => 0

/-- Whether the slot has effects queued. -/
def Shared.queues (s : Shared R) (k : SlotRef) : ℕ :=
  match s.directory.slots[k]? with
  | some x => (!x.execution.pending.isEmpty).toNat
  | none => 0

section Slots

variable {s s' : Shared R} {k : SlotRef} {x : Allocation R}

theorem Shared.dispatching_of (hx : s.directory.slots[k]? = some x) :
    s.dispatching k = x.execution.dispatch.busy := by
  rw [dispatching, hx]

theorem Shared.queues_of (hx : s.directory.slots[k]? = some x) :
    s.queues k = (!x.execution.pending.isEmpty).toNat := by
  rw [queues, hx]

theorem Shared.queues_le (s : Shared R) (k : SlotRef) : s.queues k ≤ 1 := by
  rw [queues]
  split
  · exact Bool.toNat_le _
  · exact Nat.zero_le _

theorem Shared.watch_congr (h : s'.directory.slots[k]? = s.directory.slots[k]?) :
    s'.dispatching k = s.dispatching k ∧ s'.queues k = s.queues k := by
  rw [dispatching, queues, h]
  exact ⟨rfl, rfl⟩

theorem Shared.watch_put (hx : s.directory.slots[k]? = some x) (e : SlotExecution R) :
    (s.put k x e).dispatching k = e.dispatch.busy ∧
      (s.put k x e).queues k = (!e.pending.isEmpty).toNat := by
  have hlt := lt_of_get hx
  have hput : (s.put k x e).directory.slots[k]? = some { x with execution := e } :=
    getElem?_set_self hlt
  rw [dispatching_of hput, queues_of hput]
  exact ⟨rfl, rfl⟩

end Slots

theorem SlotExecution.beginRetirement_dispatch (x : SlotExecution R) (name : Publication) :
    (x.beginRetirement name).1.dispatch = x.dispatch := by
  rw [beginRetirement]
  split <;> rfl

theorem SlotExecution.of_refused {x e : SlotExecution R} {name : Publication}
    {error : EntityRetirementError} (h : x.beginRetirement name = (e, .error error)) : e = x := by
  rw [beginRetirement] at h
  split at h <;> cases h <;> rfl

theorem LocalDirectory.claim_idle {d d' : LocalDirectory R} {id : R.Id} {dispatchId : DispatchId}
    {command : PendingCommand R} {slot : SlotRef} {installed : InstalledSlotEvidence}
    (h : d.claim id dispatchId command = some (d', slot, installed)) :
    ∃ x, d'.slots[slot]? = some x ∧ x.execution.dispatch = .idle := by
  rw [claim] at h
  split at h
  · cases h
  · cases h
    exact ⟨_, getElem?_concat_length, rfl⟩

/-- A section keeps what is queued in the slot attended: a phase that is taken has its loop, and a
queue has its phase or somebody about to take it. -/
structure Watches (k : SlotRef) (s : Shared R) (p : Pc R) (s' : Shared R) (p' : Pc R) : Prop where
  phase : s'.dispatching k ≤ p'.interprets k ∨
    s'.dispatching k = s.dispatching k ∧ p.interprets k ≤ p'.interprets k
  queue : s'.queues k ≤ s'.dispatching k + p'.acquires k ∨
    s'.queues k ≤ s.queues k ∧ s'.dispatching k = s.dispatching k ∧ p.acquires k ≤ p'.acquires k

section Acts

variable {s s' : Shared R} {self fresh : ℕ} {p p' : Pc R} {q : Option (Pc R)} {i : Input R}
  {k : SlotRef}

theorem Watches.same (hslot : s'.directory.slots[k]? = s.directory.slots[k]?)
    (hloop : p.interprets k ≤ p'.interprets k) (hacquire : p.acquires k ≤ p'.acquires k) :
    Watches k s p s' p' := by
  obtain ⟨hphase, hqueue⟩ := watch_congr hslot
  exact ⟨.inr ⟨hphase, hloop⟩, .inr ⟨Nat.le_of_eq hqueue, hphase, hacquire⟩⟩

variable {slot : SlotRef} {x : Allocation R}

theorem Shared.put_other (hne : slot ≠ k)
    (e : SlotExecution R) : (s.put slot x e).directory.slots[k]? = s.directory.slots[k]? :=
  getElem?_set_ne hne

variable {e : SlotExecution R}

theorem Watches.queued {id : R.Id} {ret : Return R} (hx : s.directory.slots[slot]? = some x)
    (hput : s'.directory.slots = (s.put slot x e).directory.slots)
    (hphase : e.dispatch = x.execution.dispatch) (hloop : p.interprets k = 0)
    (hacquire : p.acquires k = 0) : Watches k s p s' (.acquire id slot ret) := by
  by_cases hk : slot = k
  · subst hk
    obtain ⟨hd, _⟩ := watch_put hx e
    obtain ⟨hd', _⟩ := watch_congr (k := slot) (congrArg (·[slot]?) hput)
    have hone : (Pc.acquire id slot ret).acquires slot = 1 := share_self ..
    refine ⟨.inr ⟨?_, hloop ▸ Nat.zero_le _⟩, .inl ?_⟩
    · rw [hd', hd, hphase, dispatching_of hx]
    · have := s'.queues_le slot
      omega
  · refine .same ((congrArg (·[k]?) hput).trans (put_other hk e)) ?_ ?_
    · rw [hloop]
      exact Nat.zero_le _
    · rw [hacquire]
      exact Nat.zero_le _

theorem Watches.kept
    (hx : s.directory.slots[slot]? = some x) (hphase : e.dispatch = x.execution.dispatch)
    (hqueue : e.pending = x.execution.pending) (hloop : p.interprets k = 0)
    (hacquire : p.acquires k = 0) : Watches k s p (s.put slot x e) p' := by
  by_cases hk : slot = k
  · subst hk
    obtain ⟨hd, hq⟩ := watch_put hx e
    rw [hphase, ← dispatching_of hx] at hd
    rw [hqueue, ← queues_of hx] at hq
    exact ⟨.inr ⟨hd, by omega⟩, .inr ⟨Nat.le_of_eq hq, hd, by omega⟩⟩
  · exact .same (put_other hk e) (by omega) (by omega)

theorem Pc.isCall_watches (h : p.isCall) : p.interprets k = 0 ∧ p.acquires k = 0 := by
  cases p with
  | admitCommand | passivate | retireEntity | shutdown => exact ⟨rfl, rfl⟩
  | _ => cases h

variable [DecidableEq R.Id]

/-- **What is queued is attended to.** -/
theorem Acts.watches (h : Acts s self fresh p i s' p' q) : Watches k s p s' p' := by
  cases h with
  | routeClaimed id pending d directory _ installed _ claimed =>
    obtain ⟨rfl, ⟨x, hslots, hx⟩, _⟩ := claim_spec claimed
    by_cases hk : s.directory.slots.length = k
    · subst hk
      obtain ⟨y, hy, hphase⟩ := claim_idle claimed
      have hidle : ({ s with directory := directory } : Shared R).dispatching
          s.directory.slots.length = 0 := by
        rw [dispatching_of hy, hphase]
        rfl
      have hone : (Pc.acquire id s.directory.slots.length
          (.release (.wait id installed.activationId d pending.publisher))).acquires
            s.directory.slots.length = 1 := share_self ..
      have := ({ s with directory := directory } : Shared R).queues_le s.directory.slots.length
      exact ⟨.inl (by omega), .inl (by omega)⟩
    · refine .same ?_ (Nat.zero_le _) (Nat.zero_le _)
      show directory.slots[k]? = _
      rw [hslots, getElem?_append]
      split_ifs with hlt
      · rfl
      · rw [getElem?_eq_none (Nat.le_of_not_lt hlt), getElem?_eq_none]
        simp only [length_singleton]
        omega
  | retirementBegun _ _ x _ _ _ hx begun =>
    refine .queued hx rfl ?_ rfl rfl
    rw [← x.execution.beginRetirement_dispatch, begun]
  | retirementRefused _ _ _ _ _ hx refused =>
    obtain rfl := of_refused refused
    exact .kept hx rfl rfl rfl rfl
  | submitted _ _ _ _ _ hx | familyClosed _ _ _ _ _ hx =>
    exact .queued hx rfl rfl rfl rfl
  | acquired id slot ret x hx idle =>
    by_cases hk : slot = k
    · subst hk
      obtain ⟨hd, hq⟩ := watch_put hx x.execution.acquire.1
      have hbusy : x.execution.acquire.1.dispatch.busy = 1 := by
        rw [acquire_idle idle]
        rfl
      have hone : (Pc.next id (.mapped slot) ret).interprets slot = 1 := share_self ..
      have := (s.put slot x x.execution.acquire.1).queues_le slot
      exact ⟨.inl (by omega), .inl (by omega)⟩
    · refine .same (put_other hk _) (Nat.zero_le _) ?_
      rw [Pc.acquires, share_ne hk]
      exact Nat.zero_le _
  | busy _ slot _ _ hx held =>
    by_cases hk : slot = k
    · subst hk
      have hbusy : s.dispatching slot = 1 := by
        rw [dispatching_of hx, held]
        rfl
      have := s.queues_le slot
      exact ⟨.inr ⟨rfl, Nat.zero_le _⟩, .inl (by omega)⟩
    · refine .same rfl (Nat.zero_le _) ?_
      rw [Pc.acquires, share_ne hk]
      exact Nat.zero_le _
  | popped _ slot _ x _ _ hx pending =>
    by_cases hk : slot = k
    · subst hk
      obtain ⟨hd, hq⟩ := watch_put hx x.execution.next.1
      have hphase : x.execution.next.1.dispatch = x.execution.dispatch := by
        rw [next_cons pending]
      have hqueue : s.queues slot = 1 := by
        rw [queues_of hx, pending]
        rfl
      have hsame : (s.put slot x x.execution.next.1).dispatching slot = s.dispatching slot := by
        rw [hd, hphase, dispatching_of hx]
      exact ⟨.inr ⟨hsame, Nat.le_refl _⟩, .inr ⟨hqueue ▸ queues_le _ slot, hsame, Nat.le_refl _⟩⟩
    · exact .same (put_other hk _) (Nat.le_refl _) (Nat.le_refl _)
  | emptied _ slot _ x hx pending =>
    by_cases hk : slot = k
    · subst hk
      obtain ⟨hd, hq⟩ := watch_put hx x.execution.next.1
      have hphase : x.execution.next.1.dispatch.busy = 0 := by
        rw [next_nil pending]
        rfl
      have hqueue : (!x.execution.next.1.pending.isEmpty).toNat = 0 := by
        rw [x.execution.next_fst.2, pending]
        rfl
      exact ⟨.inl (by omega), .inl (by omega)⟩
    · refine .same (put_other hk _) ?_ (Nat.zero_le _)
      rw [Pc.interprets, InstalledEffectSource.slot?, share_ne hk]
      exact Nat.zero_le _
  | retirementCompleted _ _ _ _ hx | unobserved _ _ _ hx =>
    exact .kept hx rfl rfl rfl rfl
  | released | transientDone | delivered | fenced | retired | recorded =>
    exact .same rfl (Nat.zero_le _) (Nat.zero_le _)
  | tracked _ cont =>
    obtain ⟨hloop, hacquire⟩ := cont.watches_pc k
    exact .same rfl (Nat.le_of_eq hloop.symm) (Nat.zero_le _)
  | swept => exact .same rfl (Nat.le_refl _) (Nat.zero_le _)
  | _ => exact .same rfl (Nat.le_refl _) (Nat.le_refl _)

end Acts

theorem EntityTaskState.taken_complete {n : ℕ} {x y : EntityTaskState R} {rows taken : List R.Row}
    {retirements : List (Retirement R)} (h : x.complete = some (y, n, taken, retirements))
    (hrows : x.rows = some rows) : ∃ retired, taken = rows ++ retired := by
  cases x with
  | opened =>
    rw [complete] at h
    rw [EntityTaskState.rows] at hrows
    split at h
    · next hdrain =>
      rw [hdrain] at hrows
      cases hrows
      cases h
      exact ⟨_, rfl⟩
    · cases h
  | closed => cases h

theorem SlotExecution.disposition_of_active {x : SlotExecution R} (h : x.state ≠ .inactive) :
    x.retirementDisposition.isOk = false := by
  rw [retirementDisposition]
  split
  · contradiction
  · rfl

theorem EntityShutdown.classify_of_active {represented : ℕ} {entities : List (FamilyRow R)}
    {failures : List R.TaskFailure} {row : FamilyRow R} (hrow : row ∈ entities)
    (h : row.disposition.isOk = false) :
    classify represented entities failures = .unsettled represented entities failures := by
  rw [classify, if_neg]
  intro hall
  have hok := all_eq_true.mp (Bool.and_eq_true_iff.mp hall).2 row hrow
  rw [h] at hok
  cases hok

section Runs

variable [DecidableEq R.Id] {config : DirectoryConfig} {hash : R.Id → ℕ} {tr : RuntimeHistory R}
  {w : Pool (Shared R) (Pc R)} {k : SlotRef} {t : ℕ} {p : Pc R}

/-- The queue of the slot is attended to. -/
structure Watched (k : SlotRef) (w : Pool (Shared R) (Pc R)) : Prop where
  phase : w.shared.dispatching k ≤ total (Pc.interprets k) w.threads
  queue : w.shared.queues k ≤ w.shared.dispatching k + total (Pc.acquires k) w.threads

/-- **The queues of the slots, along a run.** -/
theorem watched_run (h : Reaches config hash tr w) : Watched k w := by
  refine h.invariant (P := Watched k) ⟨Nat.le_refl _, Nat.le_refl _⟩ (fun w p hw hp => ?_)
    fun tr w t i p s p' q hrun hw hp hact => ?_
  · obtain ⟨hloop, hacquire⟩ := Pc.isCall_watches (k := k) hp
    have := hw.phase
    have := hw.queue
    refine ⟨?_, ?_⟩
    · rw [total_append, total_cons, hloop]
      exact hw.phase
    · rw [total_append, total_cons, hacquire]
      exact hw.queue
  · have hloops := total_move (Pc.interprets k) p' q hp
    have hacquires := total_move (Pc.acquires k) p' q hp
    have hphase := hw.phase
    have hqueue := hw.queue
    have hown := le_total (Pc.interprets k) hp
    have hown' := le_total (Pc.acquires k) hp
    obtain ⟨hphase', hqueue'⟩ := hact.watches (k := k)
    refine ⟨?_, ?_⟩
    · show s.dispatching k ≤ total (Pc.interprets k) (w.threads.set t p' ++ q.toList)
      omega
    · show s.queues k ≤ s.dispatching k + total (Pc.acquires k) (w.threads.set t p' ++ q.toList)
      omega

variable {x : Allocation R}

theorem queue_of_closed (h : Reaches config hash tr w) (hclosed : w.shared.tasks = .closed)
    (hx : w.shared.directory.slots[k]? = some x) : x.execution.pending = [] := by
  have hquiet (p : Pc R) (hp : p ∈ w.threads) : p.interprets k + p.acquires k = 0 := by
    obtain ⟨t, ht⟩ := mem_iff_getElem?.mp hp
    by_contra hne
    exact not_owns_of_closed h hclosed ht (Pc.owns_of_watches hne)
  have hloops : total (Pc.interprets k) w.threads = 0 :=
    total_eq_zero fun p hp => by have := hquiet p hp; omega
  have hacquires : total (Pc.acquires k) w.threads = 0 :=
    total_eq_zero fun p hp => by have := hquiet p hp; omega
  have hwatched := watched_run (k := k) h
  have hphase := hwatched.phase
  have hqueue := hwatched.queue
  have hnone : w.shared.queues k = 0 := by omega
  rw [queues_of hx] at hnone
  cases hp : x.execution.pending with
  | nil => rfl
  | cons =>
    rw [hp] at hnone
    cases hnone

/-! ## The shards a shutdown has passed -/

variable {n : ℕ}

theorem emptied_run (h : Reaches config hash tr w) (htaken : 0 < tr.countP (drainsShard n)) :
    w.shared.directory.shards n = [] ∧ w.shared.admission = .closed := by
  refine h.history ?_ (fun tr w a w' hrun hw hstep hcount => ?_) htaken
  · intro hnone
    cases hnone
  rw [countP_append] at hcount
  rcases EntityRuntime.step_cases hstep with
    ⟨p, rfl, hp, rfl⟩ | ⟨t, i, p, s, p', q, rfl, hp, hact, rfl⟩
  · exact hw hcount
  · have hstays (hclosed : w.shared.admission = .closed) : s.admission = .closed := by
      cases hadmission : s.admission with
      | closed => rfl
      | opened => cases hclosed.symm.trans (hact.opened hadmission)
    cases hd : p.drainsShard w.shared n with
    | true =>
      obtain ⟨_, _, rfl, -, hempty⟩ := takes_of_drainsShard hrun hp hact hd
      exact ⟨hempty, hstays ((gated_run hrun).closed t _ hp rfl)⟩
    | false =>
      have hbefore : 0 < tr.countP (drainsShard n) := by
        simpa [drainsShard, hp, hd] using hcount
      obtain ⟨hempty, hclosed⟩ := hw hbefore
      refine ⟨eq_nil_iff_forall_not_mem.mpr fun row hrow => ?_, hstays hclosed⟩
      rcases hact.shards.2 n row hrow with hold | ⟨⟨pending, d, rfl⟩, _⟩
      · rw [hempty] at hold
        cases hold
      · cases (gated_run hrun).not_holds hclosed hp

/-! ## The slots in use -/

theorem shardIndex_run (h : Reaches config hash tr w) (id : R.Id) :
    w.shared.directory.shardIndex id < config.shards.1 := by
  have hindex : w.shared.directory.shardIndex =
      (withHasher config hash : LocalDirectory R).shardIndex :=
    h.invariant rfl (fun _ _ hw _ => hw) fun _ _ _ _ _ _ _ _ _ hw _ hact => hact.shards.1.trans hw
  rw [hindex]
  have hle : hash id &&& (config.shards.1 - 1) ≤ config.shards.1 - 1 := Nat.and_le_right
  have := config.shards.2
  show hash id &&& (config.shards.1 - 1) < _
  omega

/-- Whether a shutdown has the row of the slot in its hands, or will not report `Settled`. -/
def Pc.keeps (k : SlotRef) : Pc R → Prop
  | .takeFamily _ _ taken | .closeGroup _ taken _ _ => ∃ id, (id, k) ∈ taken
  | .report _ taken _ _ entities =>
    (∃ id, (id, k) ∈ taken) ∨ ∃ row ∈ entities, row.disposition.isOk = false
  | .returned (.shutdown (.unsettled ..)) => True
  | .panicked place => place.keeps k
  | _ => False

/-- The slot is mapped, or its row is where a shutdown finds it. -/
inductive Represented (k : SlotRef) (w : Pool (Shared R) (Pc R)) : Prop
  | mapped (id : R.Id) (h : (id, k) ∈ w.shared.directory.shards (w.shared.directory.shardIndex id))
  | drained (rows : List R.Row) (h : w.shared.tasks.rows = some rows) (id : R.Id)
      (mem : (id, k) ∈ rows)
  | kept (t : ℕ) (p : Pc R) (hp : w.threads[t]? = some p) (h : p.keeps k)

section Rows

variable {s s' : Shared R} {self fresh : ℕ} {p' : Pc R} {q : Option (Pc R)} {i : Input R}

theorem Acts.rows_kept (h : Acts s self fresh p i s' p' q) (hknows : p.stage.Holds s.tasks)
    {rows : List R.Row} (hrows : s.tasks.rows = some rows) {row : R.Row} (hrow : row ∈ rows) :
    s'.tasks.rows = some rows ∨ p'.keeps row.2 := by
  cases h with
  | retained _ _ _ _ _ _ htasks =>
    exact .inl ((rows_retainRetired htasks).trans hrows)
  | begun _ _ _ _ htasks => exact .inl ((rows_begin htasks).trans hrows)
  | tracked _ _ _ _ htasks => exact .inl ((rows_track htasks).trans hrows)
  | recorded _ _ _ htasks => exact .inl ((rows_retirementFailed htasks).trans hrows)
  | finishedLast _ _ _ _ htasks | finished _ _ _ htasks =>
    exact .inl ((rows_finish htasks).trans hrows)
  | claimed _ _ htasks => exact .inl ((rows_claim htasks).trans hrows)
  | tookTasks _ _ _ _ _ htasks => exact .inl ((rows_takeTasks htasks).trans hrows)
  | claimDropped owned => exact .inl ((rows_dropClaim owned.tasks).trans hrows)
  | drained =>
    cases (show s.tasks.rows = none from hknows).symm.trans hrows
  | groupClosed => cases hknows.2.2.symm.trans hrows
  | completed _ _ _ _ _ _ _ _ htasks =>
    obtain ⟨retired, rfl⟩ := taken_complete htasks hrows
    exact .inr ⟨row.1, mem_append_left _ hrow⟩
  | _ => exact .inl hrows

/-- A shutdown that has the row of a slot in use keeps it, puts it into the group, or will not
report `Settled`. -/
theorem Acts.keeps (h : Acts s self fresh p i s' p' q) {x : Allocation R}
    (hx : s.directory.slots[k]? = some x) (hactive : x.execution.state ≠ .inactive)
    (hkeeps : p.keeps k) : p'.keeps k ∨ ∃ rows id, s'.tasks.rows = some rows ∧ (id, k) ∈ rows := by
  cases h with
  | drainedShard =>
    obtain ⟨id, hmem⟩ := hkeeps
    exact .inl ⟨id, mem_append_left _ hmem⟩
  | drained _ _ taken _ _ htasks =>
    obtain ⟨id, hmem⟩ := hkeeps
    exact .inr ⟨taken, id, rows_recordDrain htasks, hmem⟩
  | groupClosed => exact .inl (.inl hkeeps)
  | reportedRow _ _ _ _ _ _ _ _ hy =>
    left
    rcases hkeeps with ⟨id', hmem⟩ | ⟨row, hrow, hdisp⟩
    · rcases mem_cons.mp hmem with heq | hmem
      · obtain ⟨rfl, rfl⟩ := Prod.mk.inj heq
        obtain rfl := Option.some.inj (hx.symm.trans hy)
        exact .inr ⟨_, mem_append_right _ (mem_singleton_self _), disposition_of_active hactive⟩
      · exact .inl ⟨id', hmem⟩
    · exact .inr ⟨row, mem_append_left _ hrow, hdisp⟩
  | reported =>
    left
    rcases hkeeps with ⟨id', hmem⟩ | ⟨row, hrow, hdisp⟩
    · cases hmem
    · rw [EntityShutdown.classify_of_active (mem_append_left _ hrow) hdisp]
      trivial
  | panic => exact .inl hkeeps
  | _ => exact hkeeps.elim

end Rows

theorem represented_run (h : Reaches config hash tr w)
    (hx : w.shared.directory.slots[k]? = some x) (hactive : x.execution.state ≠ .inactive) :
    Represented k w := by
  refine h.invariant ?_ (fun w p hw hp x hx hactive => ?_)
    (fun tr w t i p s p' q hrun hw hp hact x' hx' hactive => ?_) x hx hactive
  · intro x hx
    simp [EntityRuntime.new, Shared.new, withHasher] at hx
  · cases hw x hx hactive with
    | mapped id hmem => exact .mapped id hmem
    | drained rows hrows id hmem => exact .drained rows hrows id hmem
    | kept t r hr hkeeps =>
      have hlt := lt_of_get hr
      exact .kept t r (by rw [getElem?_append_left hlt, hr]) hkeeps
  · have hn : p.Named w.shared.directory := (named_run hrun).threads t p hp
    have hlt := lt_of_get hp
    have hself := get_moved hp p' q
    rcases hact.slot_cases hn hx' with ⟨x, hx, _, _, hin⟩ | ⟨rfl, id, hclaims⟩
    · have hstate : x.execution.state ≠ .inactive := fun hst => hactive (hin hst)
      cases hw x hx hstate with
      | mapped id hmem =>
        by_cases hstays : (id, k) ∈ s.directory.shards (w.shared.directory.shardIndex id)
        · exact .mapped id (hact.shards.1 ▸ hstays)
        · rcases hact.unmaps hmem hstays with ⟨_, ret, rfl⟩ | ⟨owned, rows, rfl⟩
          · obtain ⟨_, ⟨y, hy, hyin⟩, _⟩ := hn
            obtain rfl := Option.some.inj (hx.symm.trans hy)
            exact absurd hyin hstate
          · cases hact with
            | drainedShard =>
              exact .kept t _ hself ⟨id, mem_append_right _ hmem⟩
            | drained | panic => exact absurd hmem hstays
      | drained rows hrows id hmem =>
        rcases hact.rows_kept (informed_run hrun t p hp) hrows hmem with hrows' | hkeeps
        · exact .drained rows hrows' id hmem
        · exact .kept t p' hself hkeeps
      | kept u r hr hkeeps =>
        by_cases hu : u = t
        · subst hu
          obtain rfl := Option.some.inj (hp.symm.trans hr)
          rcases hact.keeps hx hstate hkeeps with hkeeps' | ⟨rows, id, hrows, hmem⟩
          · exact .kept u p' hself hkeeps'
          · exact .drained rows hrows id hmem
        · have hlt' := lt_of_get hr
          refine .kept u r ?_ hkeeps
          rw [getElem?_append_left (by simpa using hlt'), getElem?_set_ne (Ne.symm hu), hr]
    · refine .mapped id ?_
      show _ ∈ s.directory.shards (s.directory.shardIndex id)
      rw [hact.shards.1, hclaims.shards, Function.update_self]
      exact mem_cons_self ..

/-! ## A settled family -/

variable {ids : List R.Id}

theorem inactive_of_settled (h : Reaches config hash tr w) (ht : Concludes w t (.settled n ids))
    (hx : w.shared.directory.slots[k]? = some x) : x.execution.state = .inactive := by
  by_contra hactive
  have hclosed := closed_of_reports h ht.1 (by rw [ht.reports]; exact Nat.one_ne_zero)
  cases represented_run h hx hactive with
  | mapped id hmem =>
    have htaken := drains_of_closed h (shardIndex_run h id) hclosed
    rw [(emptied_run h (by rw [htaken]; exact Nat.one_pos)).1] at hmem
    cases hmem
  | drained _ hrows =>
    rw [hclosed] at hrows
    cases hrows
  | kept _ r hr hkeeps =>
    have howns := not_owns_of_closed h hclosed hr
    have hsole (hreports : r.reports ≠ 0) : r = .returned (.shutdown (.settled n ids)) := by
      obtain rfl := reports_sole h ht.1 hr ht.reports hreports
      exact Option.some.inj (hr.symm.trans ht.1)
    cases r with
    | takeFamily | closeGroup => exact howns (.inr (.inr Nat.one_ne_zero))
    | report => cases hsole Nat.one_ne_zero
    | returned outcome =>
      cases outcome with
      | shutdown result =>
        cases result with
        | unsettled => cases hsole Nat.one_ne_zero
        | settled | alreadyClaimed => exact hkeeps
      | _ => exact hkeeps
    | panicked place =>
      obtain ⟨_, _, _, _, _, rfl⟩ := panicsLate_run h place (mem_of_getElem? hr)
      cases hsole Nat.one_ne_zero
    | _ => exact hkeeps

theorem load_of_settled (h : Reaches config hash tr w)
    (ht : Concludes w t (.settled n ids)) (f : Scale R) {u : ℕ} (hp : w.threads[u]? = some p) :
    p.load f = 0 := by
  have hclosed := closed_of_reports h ht.1 (by rw [ht.reports]; exact Nat.one_ne_zero)
  have howns := not_owns_of_closed h hclosed hp
  have hmem := mem_of_getElem? hp
  obtain ⟨hover, hfail⟩ := shutdown_failures h ht
  have hworks := hover p hmem
  cases p with
  | dispatch | route => exact absurd (.inr (.inl rfl)) howns
  | submitOrInactive _ _ purpose | submit _ _ _ purpose => exact absurd purpose.owns howns
  | next _ _ ret | interpretEffect _ _ _ ret => exact absurd ret.owns howns
  | begin _ cont | track _ cont => exact absurd cont.owns howns
  | spawn => exact absurd (.inl (Nat.succ_ne_zero _)) howns
  | task | finish | publishIdle | exit => cases hworks
  | ended ending =>
    cases ending with
    | returned => rfl
    | died _ failure =>
      have hfailure : failure ∈ w.threads.filterMap Pc.joinFailure? :=
        mem_filterMap.mpr ⟨_, hmem, rfl⟩
      cases hfail.mem_iff.mpr hfailure
  | panicked place =>
    obtain ⟨_, _, _, _, _, rfl⟩ := panicsLate_run h place hmem
    rfl
  | _ => rfl

/-- **A settled family has no command left.** -/
theorem custody_of_settled (h : Reaches config hash tr w)
    (ht : Concludes w t (.settled n ids)) (f : Scale R) : custody f w = 0 := by
  have hclosed := closed_of_reports h ht.1 (by rw [ht.reports]; exact Nat.one_ne_zero)
  have hslots : w.shared.load f = 0 := by
    refine total_eq_zero fun x hx => ?_
    obtain ⟨k, hk⟩ := mem_iff_getElem?.mp hx
    rw [SlotExecution.load, inactive_of_settled h ht hk, queue_of_closed h hclosed hk]
    rfl
  have hthr : total (Pc.load f) w.threads = 0 := by
    refine total_eq_zero fun p hp => ?_
    obtain ⟨u, hu⟩ := mem_iff_getElem?.mp hp
    exact load_of_settled h ht f hu
  rw [custody, hslots, hthr]

end Runs

end Entity
