import Bombay.Local.Relationship

/-!
# The observation protocol

`Observed` lists what a step can do, and each of its rules keeps the invariant of the relationships.
What has been acquired is counted along the history, and is found again where it was handed over.
-/

set_option autoImplicit false

namespace Local

open Machine List Option ObservationTask Observing

variable {K T O : Type} [DecidableEq K] {s s' : Observing K T O}

/-! ## What a step can do -/

variable [DecidableEq T]

/-- The operation is a section of a task, or takes what it has returned. -/
def ObservationOp.ofTask : ObservationOp K T O → Bool
  | poll .. | resume .. | join _ => true
  | _ => false

/-- What a step can do. -/
inductive Observed (s : Observing K T O) : ObservationOp K T O → Observing K T O → Prop
  | refused {id target} (hlive : s.owner = .live) :
      Observed s (.observe id target) { s with owner := .refuse id target }
  | issued {id target} {m : AList fun _ : K => ℕ} (hlive : s.owner = .live)
      (hm : s.registry = some m) (hnew : m.lookup id = none) :
      Observed s (.observe id target) { s with
        registry := some (m.insert id s.relationships.length)
        relationships := s.relationships ++ [⟨id, target, false, none⟩]
        owner := .start s.relationships.length }
  | cancels {r R} {m : AList fun _ : K => ℕ} (hlive : s.owner = .live)
      (hR : s.relationships[r]? = some R) (hm : s.registry = some m)
      (hregistered : m.lookup R.id = some r) :
      Observed s (.cancel r) { s with registry := some (m.erase R.id), owner := .revoke r }
  | unobserved {r R} {m : AList fun _ : K => ℕ} (hlive : s.owner = .live)
      (hR : s.relationships[r]? = some R) (hm : s.registry = some m)
      (hregistered : m.lookup R.id ≠ some r) :
      Observed s (.cancel r) { s with owner := .reject r }
  | retires (hlive : s.owner = .live) :
      Observed s .retire { s with owner := .drained, closed := true }
  | injects {event owner}
      (hinjects : s.owner.injects O = some (event, owner)) (hopen : s.closed = false) :
      Observed s .advance { s with control := s.control ++ [event], owner := owner }
  | spawns {r} (howner : s.owner = .spawn r) :
      Observed s .advance { s.setTask r .waiting with owner := .live }
  | revokes {r owner} (hrevokes : s.owner.revokes = some (r, owner)) :
      Observed s .advance { s.sendRevocation r with owner := owner }
  | takes {rs} (howner : s.owner = .drained) :
      Observed s .advance { s with registry := none, owner := .withdraw rs }
  | retired (howner : s.owner = .withdraw []) : Observed s .advance { s with owner := .retired }
  | terminates {target outcome} :
      Observed s (.terminate target outcome)
        { s with targets := Function.update s.targets target (some outcome) }
  | works {op s' r old task said got} (hop : op.ofTask) (hworks : Works s s' r old task said got) :
      Observed s op s'

variable {event : ObservationEvent K T O}

theorem observed_of_inject {owner : Owner K T}
    (hinjects : s.owner.injects O = some (event, owner)) (hopen : s.closed = false) :
    Observed s .advance { s.inject event with owner := owner } := by
  rw [inject, if_neg (by simp [hopen])]
  exact .injects hinjects hopen

variable {op : ObservationOp K T O} {r : ℕ} {R : Relationship K T O}
    {old task : ObservationTask K T O}

/-- A poll is pending, or finds that there is nothing to wait for any more. -/
theorem observed_of_poll (hop : op.ofTask) (htask : s.task r = some (R, old)) (hold : old.undecided)
    (hnew : task.undecided ∨ task = .returned (.ok ())) : Observed s op (s.setTask r task) := by
  have hfree {t : ObservationTask K T O} (ht : t.undecided ∨ t = .returned (.ok ())) :
      t.holds = 0 ∧ t.isAcquired = false ∧ t ≠ .joined ∧ ∀ event, t ≠ .returned (.error event) := by
    rcases ht with ht | rfl
    · cases t <;>
        simp_all [undecided, holds, isAcquired]
    · simp [holds, isAcquired]
  refine .works hop (works_of_setTask task [] [] htask ?_ (by simp)
    (fun event heq => absurd heq ((hfree hnew).2.2.2 event)) (hfree (.inl hold)).2.2.1
    (fun hne => absurd rfl hne) (hfree hnew).2.1 ?_)
  · simp [setTask]
  · simp [(hfree hnew).1, (hfree (.inl hold)).1]

variable {instant : ℕ}

theorem observed_of_branch {pending} (hop : op.ofTask) (htask : s.task r = some (R, task))
    (hundecided : task.undecided) (hpend : pending.undecided) (b : Branch) :
    Observed s op (s.branch r R pending instant b) := by
  cases b with
  | revoked =>
    simp only [branch]
    split
    · exact observed_of_poll hop htask hundecided (.inr rfl)
    · exact observed_of_poll hop htask hundecided (.inl hpend)
  | completion =>
    simp only [branch]
    split
    · exact observed_of_poll hop htask hundecided (.inr rfl)
    · next m hm =>
      split
      · next hreg =>
        split
        · exact observed_of_poll hop htask hundecided (.inl hpend)
        · exact .works hop (works_of_acquire htask hundecided hm hreg)
      · exact observed_of_poll hop htask hundecided (.inr rfl)

/-- An acquired completion goes to the control lane, or is what the task returns. -/
theorem observed_of_complete
    {outcome : O} (hop : op.ofTask) (htask : s.task r = some (R, .acquired outcome instant)) :
    Observed s op (s.complete r outcome instant) := by
  have hkeeps : Observed s op (s.setTask r (.returned (.error (.stopped r outcome instant)))) := by
    refine .works hop (works_of_setTask (.returned (.error (.stopped r outcome instant)))
      [] [] htask ?_
      (by simp) ?_ (by simp) (fun hne => absurd rfl hne) rfl rfl)
    · simp [setTask]
    · rintro event ⟨⟩
      exact ⟨outcome, instant, rfl⟩
  unfold complete
  dsimp only
  split
  · exact hkeeps
  · split
    · exact hkeeps
    · refine .works hop (works_of_setTask (.returned (.ok ())) [.stopped r outcome instant]
        [] htask ?_ ?_
        (by simp) (by simp) (fun hne => absurd rfl hne) rfl rfl)
      · simp [setTask]
      · simp

theorem observed_of_join (h : Exact s) {result} (hop : op.ofTask)
    (htask : s.task r = some (R, .returned result)) : Observed s op (s.join r result) := by
  obtain ⟨-, hold⟩ := Observing.task_eq htask
  cases result with
  | ok =>
    refine .works hop (works_of_setTask .joined [] [] htask ?_ (by simp)
      (by simp) (by simp) (fun _ => rfl) rfl rfl)
    simp [Observing.join, setTask]
  | error =>
    obtain ⟨outcome, instant, rfl⟩ := h.returned hold
    refine .works hop (works_of_setTask .joined [] [.stopped r outcome instant] htask ?_ ?_
      (by simp) (by simp) (fun _ => rfl) rfl rfl)
    · simp [Observing.join, setTask]
    · simp

/-- Every step is one of these, as long as interpretation finds the registry and the open lane. -/
theorem observed_of_step (hs : Exact s) (h : s.step op = some s') : Observed s op s' := by
  unfold Observing.step at h
  split at h
  · cases h
  · split at h
    · next id target =>
      split at h
      · next howner =>
        cases h
        obtain ⟨m, hm⟩ := isSome_iff_exists.mp (hs.live (by rw [howner]; rfl)).1
        simp only [observe, hm]
        split
        · rw [← hm]
          exact .refused howner
        · next hnew => exact .issued howner hm (by simpa using hnew)
      · cases h
    · next r =>
      split at h
      · cases h
      · next R hR =>
        split at h
        · next howner =>
          cases h
          obtain ⟨m, hm⟩ := isSome_iff_exists.mp (hs.live (by rw [howner]; rfl)).1
          simp only [cancel, hm]
          split
          · next hreg => exact .cancels howner hR hm hreg
          · next hreg =>
            rw [← hm]
            exact .unobserved howner hR hm hreg
        · cases h
    · split at h
      · next howner =>
        cases h
        exact .retires howner
      · cases h
    · unfold advance at h
      split at h
      · cases h
      · cases h
      iterate 2
        · next howner =>
          cases h
          exact observed_of_inject (by rw [howner]; rfl) (hs.live (by rw [howner]; rfl)).2
      · next howner =>
        cases h
        exact .spawns howner
      · next howner =>
        cases h
        exact .revokes (by rw [howner]; rfl)
      iterate 2
        · next howner =>
          cases h
          exact observed_of_inject (by rw [howner]; rfl) (hs.live (by rw [howner]; rfl)).2
      · next howner =>
        cases h
        exact .takes howner
      · next howner =>
        cases h
        exact .revokes (by rw [howner]; rfl)
      · next howner =>
        cases h
        exact .retired howner
    · split at h
      · cases h
        exact .terminates
      · cases h
    · split at h
      · next htask =>
        cases h
        exact observed_of_branch rfl htask rfl rfl _
      · cases h
    · split at h
      · next htask =>
        cases h
        exact observed_of_branch rfl htask rfl rfl _
      · next htask =>
        cases h
        exact observed_of_complete rfl htask
      · cases h
    · split at h
      · next htask =>
        cases h
        exact observed_of_join hs rfl htask
      · cases h

/-! ## The invariant along a run -/

theorem Exact.step (h : Exact s) (hstep : s.step op = some s') : Exact s' := by
  cases observed_of_step h hstep with
  | refused hlive =>
    refine h.moves (fun _ => rfl) (fun _ => rfl) rfl rfl rfl (shrinks_of_eq rfl)
      (fun _ => h.live (by rw [hlive]; rfl)) (by simp) (by simp [hlive]) (by simp)
      fun r => ?_
    rw [hlive]
    exact Nat.le_refl _
  | issued hlive hm hnew => exact h.issues hlive hm hnew
  | @cancels r R m hlive hR hm hlookup =>
    have hid : s.idOf r = some R.id := idOf_eq hR
    refine h.moves (fun _ => rfl) (fun _ => rfl) rfl rfl rfl (shrinks_of_erase hm rfl)
      (fun _ => ⟨rfl, (h.live (by rw [hlive]; rfl)).2⟩) (fun u hu => ?_) (by simp [hlive]) (by simp)
      fun u => ?_
    · cases hu
      rw [hid]
      rfl
    · have hle : (registered { s with
          registry := some (m.erase R.id), owner := .revoke r } u).toNat ≤ (s.registered u).toNat :=
        (shrinks_of_erase hm rfl).registered_le rfl
      rcases Decidable.eq_or_ne u r with rfl | hne
      · have hbefore : s.registered u := registered_iff.mpr ⟨m, R.id, hm, hid, hlookup⟩
        have hafter : registered { s with
            registry := some (m.erase R.id), owner := .revoke u } u = false :=
          registered_erase hid rfl
        rw [hafter, hbefore]
        simp [Owner.cancels]
      · simpa [Owner.cancels, hne.symm, hlive] using hle
  | unobserved hlive hR =>
    refine h.moves (fun _ => rfl) (fun _ => rfl) rfl rfl rfl (shrinks_of_eq rfl)
      (fun _ => h.live (by rw [hlive]; rfl)) (fun u hu => ?_) (by simp [hlive])
        (by simp) fun u => ?_
    · cases hu
      rw [idOf_eq hR]
      rfl
    · rw [hlive]
      exact Nat.le_refl _
  | retires hlive =>
    refine h.moves (fun _ => rfl) (fun _ => rfl) rfl rfl rfl (shrinks_of_eq rfl) (fun hi => ?_)
      (by simp) (by simp [hlive]) (by simp) fun u => ?_
    · cases hi
    · rw [hlive]
      exact Nat.le_refl _
  | injects hinjects =>
    refine h.speaks (says_of_injects hinjects) (h.live ?_)
    cases howner : s.owner <;> simp_all [Owner.injects, Owner.interpreting]
  | spawns howner => exact h.spawns howner
  | @revokes r owner hrevokes =>
    have hreg (u : ℕ) : registered { s.sendRevocation r with owner := owner } u =
        s.registered u := by
      have hid : idOf { s.sendRevocation r with owner := owner } u = s.idOf u :=
        idOf_sendRevocation
      rw [registered, hid]
      rfl
    refine h.moves (fun _ => idOf_sendRevocation) (fun _ => taskOf_sendRevocation)
      rfl rfl rfl (shrinks_of_eq rfl) ?_ ?_ ?_ ?_ fun u => ?_
    all_goals
      rcases Owner.revokes_cases hrevokes with ⟨howner, rfl⟩ | ⟨rs, howner, rfl⟩
    · exact fun _ => h.live (by rw [howner]; rfl)
    · exact fun hi => by cases hi
    · exact fun u hu => h.named (howner ▸ hu)
    · exact fun u hu => by cases hu
    · simp [howner]
    · simp [howner]
    · simp
    · simp
    all_goals
      rw [hreg, howner]
      exact Nat.le_refl _
  | takes howner =>
    refine h.moves (fun _ => rfl) (fun _ => rfl) rfl rfl rfl (shrinks_of_none rfl) (fun hi => ?_)
      (by simp) (by simp [howner]) (by simp) fun u => ?_
    · cases hi
    · exact Nat.zero_le _
  | retired howner =>
    refine h.moves (fun _ => rfl) (fun _ => rfl) rfl rfl rfl (shrinks_of_eq rfl) (fun hi => ?_)
      (by simp) (by simp [howner]) (by simp) fun u => ?_
    · cases hi
    · rw [howner]
      exact Nat.le_refl _
  | terminates =>
    exact ⟨h.unfailed, h.live, h.bound, h.named, h.spawned, h.returned, h.joined, h.known,
      h.started, h.affine⟩
  | works _ hworks => exact h.works hworks

variable {tr : ObservationHistory K T O}

theorem exact_run (h : Observes tr s) : Exact s :=
  h.invariant exact_new fun _ _ _ hs hstep => hs.step hstep

/-! ## Acquired completions -/

def Observing.acquired (s : Observing K T O) (r : ℕ) : Bool :=
  ((s.taskOf r).map isAcquired).getD false

/-- The transition acquires the completion of a relationship. -/
def acquires (r : ℕ) (t : Transition (Observing K T O) (ObservationOp K T O)) : Bool :=
  t.target.acquired r && !t.source.acquired r

/-- The completions of a relationship that were handed over, or are held by its task. -/
def Observing.completions (s : Observing K T O) (r : ℕ) : ℕ :=
  s.control.countP (·.stops r) + s.joined.countP (·.stops r) + s.held r

omit [DecidableEq K] [DecidableEq T] in
theorem completions_eq (htask : s'.taskOf r = s.taskOf r)
    (hjoined : s'.joined.countP (·.stops r) = s.joined.countP (·.stops r))
    (hctrl : s'.control.countP (·.stops r) = s.control.countP (·.stops r)) :
    s'.completions r = s.completions r + (acquires r ⟨s, op, s'⟩).toNat := by
  have hnone : acquires r ⟨s, op, s'⟩ = false := by
    rw [acquires, Observing.acquired, htask]
    exact Bool.and_not_self _
  rw [completions, completions, held, htask, hctrl, hjoined, hnone]
  rfl

omit [DecidableEq T] in
theorem completions_works {said got} (hw : Works s s' r old task said got) (u : ℕ) :
    s'.completions u = s.completions u + (acquires u ⟨s, op, s'⟩).toNat := by
  have hsaid := countP_about (u := u) (p := (·.stops u))
    (fun e he => hw.about e (mem_append_left got he)) fun _ _ => rfl
  have hgot := countP_about (u := u) (p := (·.stops u))
    (fun e he => hw.about e (mem_append_right said he)) fun _ _ => rfl
  rcases Decidable.eq_or_ne u r with rfl | hne
  · have hgain := hw.gain
    rw [acquires, Observing.acquired, Observing.acquired, completions,
      completions, held, held, hw.after, hw.before, hw.control, hw.joined,
      countP_append, countP_append, hsaid, hgot, if_pos rfl, if_pos rfl]
    simp only [map_some, getD_some]
    omega
  · refine completions_eq (hw.others hne) ?_ ?_
    · rw [hw.joined, countP_append, hgot, if_neg hne.symm, Nat.add_zero]
    · rw [hw.control, countP_append, hsaid, if_neg hne.symm, Nat.add_zero]

theorem Exact.completions_step (h : Exact s) (hstep : s.step op = some s') (r : ℕ) :
    s'.completions r = s.completions r + (acquires r ⟨s, op, s'⟩).toNat := by
  cases observed_of_step h hstep with
  | works _ hworks => exact completions_works hworks r
  | issued => exact completions_eq (taskOf_append rfl rfl) rfl rfl
  | revokes => exact completions_eq taskOf_sendRevocation rfl rfl
  | @injects event owner hinjects hopen =>
    have hevent : event.stops r = false := by
      cases howner : s.owner <;> simp only [howner, Owner.injects, some.injEq, Prod.mk.injEq,
        reduceCtorEq] at hinjects
      all_goals
        obtain ⟨rfl, -⟩ := hinjects
        rfl
    refine completions_eq rfl rfl ?_
    rw [countP_append, countP_singleton, hevent]
    rfl
  | @spawns u howner =>
    rcases Decidable.eq_or_ne r u with rfl | hne
    · -- the task that is there now has nothing yet
      obtain ⟨id, hid⟩ := isSome_iff_exists.mp (h.named (r := r) (by rw [howner]; rfl))
      obtain ⟨R, hR, -⟩ := map_eq_some_iff.mp hid
      have hbefore : s.taskOf r = none := h.spawned (.inr howner)
      have hafter : taskOf { s.setTask r .waiting with owner := .live } r = some .waiting :=
        taskOf_setTask_self hR
      rw [acquires, Observing.acquired, completions, completions, held, held, hafter, hbefore]
      rfl
    · exact completions_eq (taskOf_setTask_ne hne) rfl rfl
  | refused | cancels | unobserved | retires | takes | retired | terminates =>
    exact completions_eq rfl rfl rfl

theorem completions_run (h : Observes tr s) (r : ℕ) : tr.countP (acquires r) = s.completions r := by
  refine h.history rfl fun tr s op s' hrun ih hstep => ?_
  rw [countP_append, ih, countP_singleton, (exact_run hrun).completions_step hstep r]
  cases acquires r ⟨s, op, s'⟩ <;> rfl

/-! ## The protocol -/

def ObservationTask.returns : ObservationTask K T O → ℕ
  | returned (.error _) => 1
  | _ => 0

/-- The final events of a relationship that have been produced. -/
def Observing.produced (s : Observing K T O) (r : ℕ) : ℕ :=
  s.control.countP (·.ends r) + s.joined.countP (·.ends r) + ((s.taskOf r).map returns).getD 0

/-- **The exact observation protocol.** -/
structure ExactProtocol (tr : ObservationHistory K T O) (s : Observing K T O) : Prop where
  /-- `Started` is on the control lane before any other event of its relationship, and once. -/
  started : ∀ {r : ℕ} {event : ObservationEvent K T O}
    {before after : List (ObservationEvent K T O)},
    s.control = before ++ event :: after → event.relationship = some r →
    (event = .started r ∧ .started r ∉ before ++ after) ∨ (event ≠ .started r ∧ .started r ∈ before)
  /-- It is there before the task returns an event. -/
  returned : ∀ {r : ℕ} {event : ObservationEvent K T O}, event.relationship = some r →
    s.taskOf r = some (.returned (.error event)) ∨ event ∈ s.joined → .started r ∈ s.control
  /-- `Cancelled` and `Stopped` exclude each other, and themselves. -/
  affine : ∀ r, s.produced r ≤ 1
  /-- A cancel of a relationship that is not the registered one changes nothing but the owner, who
  then says `NotObserved`. -/
  unregistered : ∀ t ∈ tr, ∀ {r : ℕ}, t.input = .cancel r → t.source.registered r = false →
    t.target = { t.source with owner := .reject r }
  rejects : ∀ t ∈ tr, ∀ {r : ℕ}, t.source.owner = .reject r → t.target.owner = .reject r ∨
    t.target = { t.source with
      owner := .live, control := t.source.control ++ [.cancelRejected r .notObserved] }
  /-- What was acquired is on the control lane, was returned to `join_next`, or is still held by the
  task. -/
  conserved : ∀ r, tr.countP (acquires r) =
    s.control.countP (·.stops r) + s.joined.countP (·.stops r) + s.held r
  once : ∀ r, tr.countP (acquires r) ≤ 1
  reached : s.failed = false

omit [DecidableEq K] [DecidableEq T] in
/-- In a list whose first event about `r` is `Started`, that one comes before all others. -/
theorem started_before {control before after rest}
    (hfilter : control.filter (·.relationship = some r) = .started r :: rest)
    (hrest : .started r ∉ rest) (hctrl : control = before ++ event :: after)
    (hevent : event.relationship = some r) : (event = .started r ∧ .started r ∉ before ++ after) ∨
      (event ≠ .started r ∧ .started r ∈ before) := by
  have hkeeps (e : ObservationEvent K T O) (he : e = .started r) :
      decide (e.relationship = some r) := by
    rw [he]
    exact decide_eq_true rfl
  rw [hctrl, filter_append, filter_cons_of_pos (by simpa using hevent)] at hfilter
  cases hbefore : before.filter (·.relationship = some r) with
  | nil =>
    rw [hbefore, nil_append] at hfilter
    obtain ⟨rfl, hafter⟩ := List.cons.inj hfilter
    refine .inl ⟨rfl, fun hmem => ?_⟩
    rcases mem_append.mp hmem with hmem | hmem
    · have hnil : .started r ∈ before.filter (·.relationship = some r) :=
        mem_filter.mpr ⟨hmem, hkeeps _ rfl⟩
      rw [hbefore] at hnil
      cases hnil
    · exact hrest (hafter ▸ mem_filter.mpr ⟨hmem, hkeeps _ rfl⟩)
  | cons =>
    rw [hbefore, cons_append] at hfilter
    obtain ⟨rfl, htail⟩ := List.cons.inj hfilter
    refine .inr ⟨?_, mem_of_mem_filter (hbefore ▸ mem_cons_self ..)⟩
    rintro rfl
    exact hrest (htail ▸ mem_append_right _ (mem_cons_self ..))

theorem exact_observation_protocol {tr : ObservationHistory K T O} (h : Observes tr s) :
    ExactProtocol tr s := by
  have hs := exact_run h
  refine ⟨?_, ?_, ?_, ?_, ?_, completions_run h, ?_, hs.unfailed⟩
  · intro r event before after hctrl hevent
    have hknown := hs.known (by rw [hctrl]; simp) hevent
    obtain ⟨rest, hfilter, hrest⟩ := hs.started hknown.1 hknown.2
    exact started_before hfilter hrest hctrl hevent
  · intro r event hevent hret
    obtain ⟨task, htask⟩ : ∃ task, s.taskOf r = some task := by
      rcases hret with htask | hjoined
      · exact ⟨_, htask⟩
      · obtain ⟨u, outcome, instant, rfl, hu⟩ := hs.joined hjoined
        cases hevent
        exact ⟨_, hu⟩
    have hexists : (s.idOf r).isSome := by
      rw [taskOf] at htask
      obtain ⟨R, hR, -⟩ := bind_eq_some_iff.mp htask
      rw [idOf_eq hR]
      rfl
    have hstart : s.owner ≠ .start r := fun heq => by
      rw [hs.spawned (.inl heq)] at htask
      cases htask
    obtain ⟨rest, hfilter, -⟩ := hs.started hexists hstart
    exact mem_of_mem_filter (hfilter ▸ mem_cons_self ..)
  · intro r
    have haffine := hs.affine r
    have hle : ((s.taskOf r).map returns).getD 0 ≤ s.held r := by
      unfold held
      cases s.taskOf r with
      | none => exact Nat.le_refl _
      | some task =>
        cases task with
        | returned result => cases result <;> exact Nat.le_refl _
        | _ => exact Nat.zero_le _
    unfold weight at haffine
    unfold produced
    omega
  · intro t ht r hinput hreg
    obtain ⟨pre, post, -, hpre, hstep⟩ := h.of_mem ht
    rw [hinput] at hstep
    generalize t.target = u at hstep ⊢
    cases observed_of_step (exact_run hpre) hstep with
    | cancels _ hR hm hlookup =>
      have htrue := registered_iff.mpr ⟨_, _, hm, idOf_eq hR, hlookup⟩
      rw [htrue] at hreg
      cases hreg
    | unobserved => rfl
    | works hop => cases hop
  · intro t ht r howner
    obtain ⟨pre, post, -, hpre, hstep⟩ := h.of_mem ht
    generalize t.target = u at hstep ⊢
    generalize t.input = op at hstep
    cases observed_of_step (exact_run hpre) hstep with
    | injects hinjects =>
      rw [howner] at hinjects
      cases hinjects
      exact .inr rfl
    | works _ hworks => exact .inl (hworks.owner.trans howner)
    | terminates => exact .inl howner
    | revokes hrevokes =>
      rw [howner] at hrevokes
      cases hrevokes
    | _ => simp_all
  · intro r
    rw [completions_run h r]
    have haffine := hs.affine r
    have hle (l : List (ObservationEvent K T O)) : l.countP (·.stops r) ≤ l.countP (·.ends r) := by
      refine countP_mono_left fun event _ hstops => ?_
      cases event <;> simp_all [ObservationEvent.stops, ObservationEvent.ends]
    have hctrl := hle s.control
    have hjoined := hle s.joined
    unfold weight at haffine
    unfold completions
    omega

/-- A completion is acquired, its id is used again and cancelled by the wrong and the right
relationship, and the registry is withdrawn before the completion is sent. -/
def contested : List (ObservationOp ℕ ℕ ℕ) :=
  [.observe 1 0, .advance, .advance, .terminate 0 5, .poll 0 .completion 9, .observe 1 0, .advance,
    .advance, .cancel 0, .advance, .cancel 1, .advance, .advance, .retire, .advance, .advance,
    .resume 0 0, .join 0]

theorem exact_observation_protocol_contested :
    ∃ (tr : ObservationHistory ℕ ℕ ℕ) (s : Observing ℕ ℕ ℕ),
    Observes tr s ∧
    s.control = [.started 0, .started 1, .cancelRejected 0 .notObserved, .cancelled 1] ∧
    s.joined = [.stopped 0 5 9] ∧ ExactProtocol tr s := by
  have hexec : (exec Observing.step new contested).map (fun r => (r.2.control, r.2.joined)) =
      some ([.started 0, .started 1, .cancelRejected 0 .notObserved, .cancelled 1],
        [.stopped 0 5 9]) := by
    decide +kernel
  obtain ⟨⟨tr, s⟩, hrun, hs⟩ := map_eq_some_iff.mp hexec
  obtain ⟨hctrl, hjoined⟩ := Prod.mk.inj hs
  exact ⟨tr, s, exec_run hrun, hctrl, hjoined, exact_observation_protocol (exec_run hrun)⟩

end Local
