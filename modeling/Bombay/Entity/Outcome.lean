import Bombay.Entity.Answers
import Bombay.Entity.Quiescence

/-!
# The outcome of an admission

What a caller of `admit` may rely on, whatever other calls, drops and tasks run beside it.  The
command is handed to the port at most once.  The future resolves at most once, with the acceptance
of the port or with the command itself.  If the caller drops the future, the command is taken back
only as long as it waits for an activation.  And no future is left behind by a settled shutdown.
-/

set_option autoImplicit false

namespace Entity

open Machine List Option

variable {R : LocalEntityRuntime}

/-! ## Resolving -/

def Pc.isResolved : Pc R → Bool
  | .returned (.admitted _) => true
  | _ => false

/-- In this transition the call `t` of `admit` returns its result. -/
def resolves (t : ℕ) (x : RuntimeTransition R) : Bool :=
  match x.input with
  | .call _ => false
  | .run u _ => u = t && x.target.threads[t]?.any Pc.isResolved

variable [DecidableEq R.Id] {s s' : Shared R} {self fresh : ℕ} {p p' : Pc R} {q : Option (Pc R)}
  {i : Input R} {config : DirectoryConfig} {hash : R.Id → ℕ} {tr : RuntimeHistory R}
  {w : Pool (Shared R) (Pc R)} {t : ℕ}

theorem Acts.not_resolved (h : Acts s self fresh p i s' p' q) : p.isResolved = false := by
  cases h with
  | panic p _ h =>
    cases p with
    | returned => exact h.elim
    | _ => rfl
  | _ => rfl

theorem resolves_le_one (h : Reaches config hash tr w) (t : ℕ) : tr.countP (resolves t) ≤ 1 := by
  refine (h.crosses_once (m := fun w => (w.threads[t]?.any Pc.isResolved).toNat) 0
    (fun x hx => ?_) fun x hx hresolves => ?_).1
  · obtain ⟨pre, post, -, -, hstep⟩ := h.of_mem hx
    cases hr : x.source.threads[t]? with
    | none => exact Nat.zero_le _
    | some =>
      have hlt := lt_of_get hr
      rcases EntityRuntime.step_cases hstep with
        ⟨p, -, -, htarget⟩ | ⟨u, i, p, s, p', q, -, hp, hact, htarget⟩
      · rw [htarget, getElem?_append_left hlt, hr]
      · by_cases hu : u = t
        · subst hu
          obtain rfl := some.inj (hp.symm.trans hr)
          rw [any_some, hact.not_resolved]
          exact Nat.zero_le _
        · rw [htarget, getElem?_append_left (by simpa using hlt), getElem?_set_ne hu, hr]
  · obtain ⟨pre, post, -, -, hstep⟩ := h.of_mem hx
    rcases EntityRuntime.step_cases hstep with
      ⟨p, hinput, -, -⟩ | ⟨u, i, p, s, p', q, hinput, hp, hact, htarget⟩
    · rw [resolves, hinput] at hresolves
      cases hresolves
    · rw [resolves, hinput] at hresolves
      obtain ⟨hu, hdone⟩ := Bool.and_eq_true_iff.mp hresolves
      obtain rfl := of_decide_eq_true hu
      rw [hp, hdone, any_some, hact.not_resolved]
      exact ⟨Nat.le_refl _, Nat.one_pos⟩

/-! ## Leaving -/

/-- How the command of a publication can leave custody. -/
inductive Leaves (k : Publication) (x : RuntimeTransition R) : Prop
  /-- The publication is answered. -/
  | answered (h : x.target.shared.answered k = 1)
  /-- There is no identity for it, and its call returns it. -/
  | exhausted (t i p pending failure) (input : x.input = .run t i)
      (place : x.source.threads[t]? = some p)
      (hp : (∃ id, p = .dispatch id pending) ∨ ∃ id d, p = .route id pending d)
      (publisher : pending.publisher = k)
      (place' : x.target.threads[t]? = some (.release (.stop (.admitted (.error failure)))))
  /-- A dropped future cancels it, and it is a waiter of the activation the future names. -/
  | cancelled (t i id slot purpose y st waiter) (input : x.input = .run t i)
      (place : x.source.threads[t]? =
        some (.submit id slot (.cancelWaiter st.activationId waiter.dispatchId) purpose))
      (hy : x.source.shared.directory.slots[slot]? = some y)
      (hst : y.execution.state = .activating st) (mem : waiter ∈ st.waiters)
      (publisher : waiter.command.publisher = k)

theorem leaves_of_gone (h : Reaches config hash tr w) {x} (hx : x ∈ tr)
    {k} (hbefore : custody (publishedBy k) x.source ≠ 0)
    (hafter : custody (publishedBy k) x.target = 0) : Leaves k x := by
  obtain ⟨pre, post, -, hrun, hstep⟩ := h.of_mem hx
  rcases EntityRuntime.step_cases hstep with
    ⟨p, -, hp, htarget⟩ | ⟨t, i, p, s', p', q, hinput, hp, hact, htarget⟩
  · rw [htarget, custody_call hp] at hafter
    exact absurd hafter hbefore
  · have hn : p.Named x.source.shared.directory := (named_run hrun).threads t p hp
    have hmove := custody_move (publishedBy k) s' p' q hp
    rw [← htarget] at hmove
    have hlt := lt_of_get hp
    cases (hact.commands hn).carries (publishedBy_blind k) with
    | even | enters => omega
    | numbers _ _ _ _ _ _ _ heq =>
      rw [publishedBy, publishedBy] at heq
      omega
    | exhausts pending place failure place' =>
      have hload : p.load (publishedBy k) = if pending.publisher = k then 1 else 0 := by
        rcases place with ⟨id, rfl⟩ | ⟨id, d, rfl⟩ <;> rfl
      have hk : pending.publisher = k := by
        by_contra hne
        rw [if_neg hne] at hload
        omega
      refine .exhausted t i p pending failure hinput hp place hk ?_
      rw [htarget, ← place', get_moved hp]
    | answers _ pending _ heq replies =>
      have hk : pending.publisher = k := by
        by_contra hne
        rw [publishedBy, if_neg hne] at heq
        omega
      have hans : s'.answered k = x.source.shared.answered k + 1 := by
        rw [answered_cons replies, if_pos hk]
      have hone := one_act hp hact hn ((single_run hrun).one k)
      have hmade : s'.made k ≤ 1 := by
        rw [Shared.made]
        split_ifs <;> omega
      refine .answered ?_
      rw [htarget]
      show s'.answered k = 1
      omega
    | cancels id slot d purpose y st place hy hst =>
      have hsome : total (ActivationWaiter.load (publishedBy k))
          (st.waiters.filter (·.dispatchId = d)) ≠ 0 := by omega
      by_contra hleaves
      refine hsome (total_eq_zero fun waiter hwaiter => ?_)
      obtain ⟨hmem, hd⟩ := mem_filter.mp hwaiter
      obtain rfl : waiter.dispatchId = d := by simpa using hd
      by_contra hne
      have hk : waiter.command.publisher = k := by
        by_contra hne'
        exact hne (if_neg hne')
      exact hleaves (.cancelled t i id slot purpose y st waiter hinput (place ▸ hp) hy hst hmem hk)

/-! ## After a settled shutdown -/

/-- A call of `admit` that is not pending. -/
inductive Finished (w : Pool (Shared R) (Pc R)) (p : Pc R) : Prop
  /-- It has not begun, and will be refused. -/
  | unstarted (h : p.opening) (closed : w.shared.admission = .closed)
  | returned (result : Except (AdmissionFailure R) Unit) (h : p = .returned (.admitted result))
  /-- Its answer is there. -/
  | answered (id : R.Id) (a : Option ActivationId) (d : DispatchId) (k : Publication)
      (result : Except (AdmissionFailure R) Unit) (h : p = .wait id a d k)
      (ready : w.shared.replies.lookup k = some result)
  | dropped (h : p.stance? = some .dropped)

omit [DecidableEq R.Id] in
theorem Shared.lookup_of_answered {k} (h : s.answered k ≠ 0) :
    ∃ result, s.replies.lookup k = some result := by
  cases hlookup : s.replies.lookup k with
  | some result => exact ⟨result, rfl⟩
  | none =>
    refine absurd (countP_eq_zero.mpr fun reply hreply => ?_) h
    have hne := lookup_eq_none_iff.mp hlookup reply hreply
    rw [decide_eq_true_eq]
    rintro rfl
    simp at hne

theorem finished_of_settled (h : Reaches config hash tr w) {u n : ℕ} {ids : List R.Id}
    (hu : Concludes w u (.settled n ids)) {command : R.Command} (hgiven : Given tr t command)
    (hp : w.threads[t]? = some p) : Finished w p := by
  have hclosed := closed_of_reports h hu.1 (by rw [hu.reports]; exact Nat.one_ne_zero)
  have howns := not_owns_of_closed h hclosed hp
  rcases (owned_run h).begun t p hp command hgiven with hopening | hstance
  · have htaken := drains_of_closed h config.shards.2 hclosed
    exact .unstarted hopening (emptied_run h (by rw [htaken]; exact Nat.one_pos)).2
  · cases p with
    | wait id a d k =>
      have hkept := (single_run h).kept t _ hp d k rfl
      rw [custody_of_settled h hu, Nat.zero_add] at hkept
      obtain ⟨result, hready⟩ := Shared.lookup_of_answered (Nat.one_le_iff_ne_zero.mp hkept)
      exact .answered id a d k result rfl hready
    | dropWait => exact .dropped rfl
    | returned outcome =>
      cases outcome with
      | admitted result => exact .returned result rfl
      | cancelled => exact .dropped rfl
      | _ => cases hstance
    | dispatch | route | release => exact absurd (.inr (.inl rfl)) howns
    | submitOrInactive _ _ purpose | submit _ _ _ purpose => exact absurd purpose.owns howns
    | acquire _ _ ret | next _ _ ret | interpretEffect _ _ _ ret | takeSlot _ _ _ ret
    | retainRetired _ _ _ ret => exact absurd ret.owns howns
    | begin _ cont | track _ cont => exact absurd cont.owns howns
    | spawn => exact absurd (.inl (Nat.succ_ne_zero _)) howns
    | panicked place =>
      obtain ⟨_, _, _, _, _, rfl⟩ := panicsLate_run h place (mem_of_getElem? hp)
      cases hstance
    | _ => cases hstance

/-! ## The theorem -/

/-- What holds of the admissions of a family that came to `w` by the history `tr`. -/
structure ExactOutcome (tr : RuntimeHistory R) (w : Pool (Shared R) (Pc R)) : Prop where
  /-- A call and its publication belong together. -/
  callers : ∀ k t u, Publishes tr k t → Publishes tr k u → t = u
  calls : ∀ j k t, Publishes tr j t → Publishes tr k t → j = k
  /-- What is handed to `port.deliver` is the command of a call, under its publication, -/
  handed : ∀ x ∈ tr, ∀ t i id slot a d endpoint pending cont, x.input = .run t i →
    x.source.threads[t]? = some (.spawn (.delivery id slot a d endpoint pending) cont) →
    ∃ u, Publishes tr pending.publisher u ∧ Given tr u pending.command
  /-- and at most once. -/
  delivered : ∀ k, tr.countP (delivers k) ≤ 1
  /-- A future resolves at most once, -/
  resolved : ∀ t, tr.countP (resolves t) ≤ 1
  /-- with `Ok` if `port.deliver` has accepted its command, or with the command or what the port has
  returned for it. -/
  warranted : ∀ t result, w.threads[t]? = some (.returned (.admitted result)) →
    Warranted tr t result
  /-- That is the command too, if the port returns what it was given. -/
  same : Honest tr → ∀ t failure, w.threads[t]? = some (.returned (.admitted (.error failure))) →
    Given tr t failure.command
  /-- A command leaves custody when its call is answered, or by a cancellation while it is a waiter
  of an activation. -/
  leaves : ∀ x ∈ tr, ∀ k, custody (publishedBy k) x.source ≠ 0 →
    custody (publishedBy k) x.target = 0 → Leaves k x
  /-- No future is pending after a settled shutdown. -/
  settled : ∀ u n ids, Concludes w u (.settled n ids) → ∀ t p command, Given tr t command →
    w.threads[t]? = some p → Finished w p

/-- **Admission outcome is exact**, for every interleaving of calls, drops and tasks. -/
theorem exact_outcome (h : Reaches config hash tr w) : ExactOutcome tr w where
  callers := (owned_run h).callers
  calls := (owned_run h).calls
  handed x hx t i id slot a d endpoint pending cont hinput hp := by
    obtain ⟨pre, post, rfl, hrun, -⟩ := h.of_mem hx
    have hload := load_le_custody (f := stray pre) hp
    rw [(owned_run hrun).commands] at hload
    have hown : stray pre .queued (some d) pending = 0 :=
      Nat.eq_zero_of_le_zero ((Nat.le_add_right _ _).trans hload)
    obtain ⟨u, hpub, hgiven⟩ := given_of_stray hown nofun
    exact ⟨u, hpub.mono, hgiven.mono⟩
  delivered k := by
    have hone := (single_run h).delivered k
    have hmade : w.shared.made k ≤ 1 := by
      rw [Shared.made]
      split_ifs <;> omega
    omega
  resolved := resolves_le_one h
  warranted t result hp := (owned_run h).results t _ hp result rfl
  same hhonest t failure hp := by
    rcases (owned_run h).results t _ hp _ rfl with hgiven | ⟨k, hpub, hret⟩
    · exact hgiven
    · exact given_of_returned h hhonest hpub hret
  leaves x hx k hbefore hafter := leaves_of_gone h hx hbefore hafter
  settled u n ids hu t p command hgiven hp := finished_of_settled h hu hgiven hp

/-- Admit a command to entity 5, which is activated and delivered to.  The caller does not look at
the answer, and the family is shut down. -/
def settledShutdown : List (Schedule (Pc numbers) (Input numbers)) :=
  [.call (.admitCommand 0 5 7)] ++ sections 11 0 ++
  [.run 1 (.activated (.ok (2, 3)))] ++ sections 10 1 ++
  [.run 2 (.delivered (.ok ()))] ++ sections 6 2 ++
  -- the shutdown, the fence and the retirement it waits for, and its end
  [.call .shutdown] ++ sections 19 3 ++
  [.run 4 (.fenced (.ok ())), .run 4 (.retired (.ok ()))] ++ sections 11 4 ++
  sections 13 3

/-- The identities of a settled result. -/
def Pc.settled? : Pc R → Option (List R.Id)
  | .returned (.shutdown (.settled _ ids)) => some ids
  | _ => none

/-- That shutdown settles entity 5. -/
theorem settledShutdown_exec :
    (exec (EntityRuntime.step (R := numbers)) (EntityRuntime.new oneShard fun _ => 0)
      settledShutdown).map (fun r => r.2.threads[3]?.bind (Pc.settled? (R := numbers))) =
        some (some [5]) := by decide +kernel

theorem exact_outcome_settled :
    ∃ tr w, Reaches (R := numbers) oneShard (fun _ => 0) tr w ∧
      w.threads[3]?.bind (Pc.settled? (R := numbers)) = some [5] ∧ ExactOutcome tr w := by
  obtain ⟨⟨tr, w⟩, hrun, hw⟩ := map_eq_some_iff.mp settledShutdown_exec
  exact ⟨tr, w, exec_run hrun, hw, exact_outcome (exec_run hrun)⟩

/-- **A settled family is at rest**: its directory is empty and admits nothing, no lifecycle task
runs, and every slot it ever had is inactive and has no effect left to interpret. -/
theorem settled_family_rests {t n : ℕ} {ids : List R.Id} (h : Reaches config hash tr w)
    (ht : Concludes w t (.settled n ids)) :
    (∀ shard < config.shards.1, w.shared.directory.shards shard = []) ∧
      w.shared.admission = .closed ∧ (∀ p ∈ w.threads, p.works = 0) ∧
      ∀ x ∈ w.shared.directory.slots, x.execution.state = .inactive ∧ x.execution.pending = [] := by
  have hclosed := closed_of_reports h ht.1 (by rw [ht.reports]; exact Nat.one_ne_zero)
  have hempty (shard : ℕ) (hshard : shard < config.shards.1) :=
    emptied_run h (by rw [drains_of_closed h hshard hclosed]; exact Nat.one_pos)
  refine ⟨fun shard hshard => (hempty shard hshard).1, (hempty 0 config.shards.2).2,
    (shutdown_failures h ht).1, fun x hx => ?_⟩
  obtain ⟨k, hk⟩ := mem_iff_getElem?.mp hx
  exact ⟨inactive_of_settled h ht hk, queue_of_closed h hclosed hk⟩

theorem settled_family_rests_entity : ∃ tr w n, Reaches (R := numbers) oneShard (fun _ => 0) tr w ∧
    Concludes w 3 (.settled n [5]) ∧ w.shared.directory.shards 0 = [] := by
  obtain ⟨⟨tr, w⟩, hrun, hw⟩ := map_eq_some_iff.mp settledShutdown_exec
  obtain ⟨p, hp, hsettled⟩ := bind_eq_some_iff.mp hw
  rw [Pc.settled?.eq_def] at hsettled
  split at hsettled
  · next n ids =>
    cases some.inj hsettled
    exact ⟨tr, w, n, exec_run hrun, ⟨hp, rfl⟩,
      (settled_family_rests (exec_run hrun) ⟨hp, rfl⟩).1 0 Nat.one_pos⟩
  · cases hsettled

end Entity
