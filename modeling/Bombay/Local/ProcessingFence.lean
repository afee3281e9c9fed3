import Bombay.Local.Processing

/-!
# The processing fence

A fence is acknowledged inside `next`, several layers below the loop that folds and applies.  It is
right because between turns everything that was read has been processed.  What is unread when the
lane is drained fails there, and nothing is accepted afterwards.
-/

set_option autoImplicit false

namespace Local

open Machine Engine Entity List LocalActor

variable {P : Port} {M : Type} {user : M → P.Event} {s s' : LocalActor P M} {tr : LocalHistory P M}
  {b : P.Behavior} {e : P.Environment}

/-! ## The ledger of the fences -/

/-- What the drain of a lane does with the fences in it, the first of the items being at `n`. -/
structure Collected (n : ℕ) (items : List (LocalIngress M))
    (r : List (ℕ × Except FenceFailure Unit) × Option (List M)) : Prop where
  failed : ∀ c ∈ r.1, c.2 = .error .acknowledgement
  fences : ∀ c ∈ r.1, ∃ i, c.1 = n + i ∧ items[i]? = some .fence
  sorted : (r.1.map Prod.fst).Pairwise (· < ·)
  whole : r.2.isSome → ∀ i, items[i]? = some .fence → n + i ∈ r.1.map Prod.fst

theorem collectRetiredIngress_collected (panics : ℕ → Bool)
    (items : List (LocalIngress M)) (n : ℕ) :
    Collected n items (collectRetiredIngress panics n items) := by
  induction items generalizing n with
  | nil => exact ⟨by simp [collectRetiredIngress], by simp [collectRetiredIngress],
      by simp [collectRetiredIngress], by simp⟩
  | cons item rest ih =>
    obtain ⟨hfailed, hfences, hsorted, hwhole⟩ := ih (n + 1)
    have hlater (c : ℕ × Except FenceFailure Unit)
      (hc : c ∈ (collectRetiredIngress panics (n + 1) rest).1) :
        ∃ i, c.1 = n + i ∧ (item :: rest)[i]? = some .fence := by
      obtain ⟨i, hi, hitem⟩ := hfences c hc
      exact ⟨i + 1, by omega, by simpa using hitem⟩
    cases item with
    | message =>
      refine ⟨hfailed, hlater, hsorted, fun hsome i hi => ?_⟩
      cases i with
      | zero => simp at hi
      | succ i =>
        have := hwhole (by simpa [collectRetiredIngress] using hsome) i (by simpa using hi)
        rwa [Nat.add_assoc, Nat.add_comm 1] at this
    | fence =>
      by_cases hpanics : panics n = true
      · rw [collectRetiredIngress, if_pos hpanics]
        exact ⟨by simp, by simp, by simp, by simp⟩
      · rw [collectRetiredIngress, if_neg hpanics]
        refine ⟨by simpa using hfailed, ?_, ?_, fun hsome i hi => ?_⟩
        · rintro c (_ | ⟨_, hc⟩)
          · exact ⟨0, rfl, rfl⟩
          · exact hlater c hc
        · refine pairwise_cons.mpr ⟨fun k hk => ?_, hsorted⟩
          obtain ⟨c, hc, rfl⟩ := mem_map.mp hk
          obtain ⟨i, hi, -⟩ := hfences c hc
          omega
        · cases i with
          | zero => exact mem_cons_self
          | succ i =>
            have := hwhole hsome i (by simpa using hi)
            rw [Nat.add_assoc, Nat.add_comm 1] at this
            exact mem_cons_of_mem _ this

/-- The books about the fences: what was completed was an accepted fence that has been read, once;
and as long as nothing was lost, every fence that has been read was completed. -/
structure Ledger (s : LocalActor P M) : Prop where
  sorted : (s.completions.map Prod.fst).Pairwise (· < ·)
  fences : ∀ c ∈ s.completions, c.1 < s.read ∧ s.accepted[c.1]? = some .fence
  complete : s.consumer ∨ s.retiredIngress.isSome →
    ∀ n < s.read, s.accepted[n]? = some .fence → n ∈ s.completions.map Prod.fst
  closed : s.consumer = false → s.admission = false
  retired : s.retiredIngress.isSome → s.consumer = false ∧ s.read = s.accepted.length

theorem Ledger.congr (h : Ledger s) (hlane : SameLane s s') : Ledger s' := by
  obtain ⟨h1, h2, h3, h4, h5, h6⟩ := hlane
  obtain ⟨hsorted, hfences, hdone, hclosed, hret⟩ := h
  exact ⟨by rwa [h6], by rwa [h6, h2, h1], by rwa [h4, h5, h2, h1, h6], by rwa [h4, h3],
    by rwa [h5, h4, h2, h1]⟩

theorem Ledger.drain (h : Ledger s) (panics : ℕ → Bool) (hbound : s.read ≤ s.accepted.length) :
    Ledger (s.drain panics) := by
  obtain ⟨hsorted, hfences, hdone, hclosed, hret⟩ := h
  by_cases hcons : s.consumer
  · have hcollected := collectRetiredIngress_collected panics (s.accepted.drop s.read) s.read
    unfold LocalActor.drain
    rw [if_pos hcons]
    generalize collectRetiredIngress panics s.read (s.accepted.drop s.read) = r at hcollected
    obtain ⟨completed, users⟩ := r
    have hlater (c : ℕ × Except FenceFailure Unit) (hc : c ∈ completed) :
        s.read ≤ c.1 ∧ s.accepted[c.1]? = some .fence := by
      obtain ⟨i, hi, hitem⟩ := hcollected.fences c hc
      rw [getElem?_drop, ← hi] at hitem
      exact ⟨by omega, hitem⟩
    refine ⟨?_, ?_, ?_, fun _ => rfl, fun _ => ⟨rfl, rfl⟩⟩
    · show ((s.completions ++ completed).map Prod.fst).Pairwise (· < ·)
      rw [map_append]
      refine pairwise_append.mpr ⟨hsorted, hcollected.sorted, fun j hj k hk => ?_⟩
      obtain ⟨c, hc, rfl⟩ := mem_map.mp hj
      obtain ⟨c', hc', rfl⟩ := mem_map.mp hk
      exact Nat.lt_of_lt_of_le (hfences c hc).1 (hlater c' hc').1
    · intro c hc
      rcases mem_append.mp hc with hc | hc
      · exact ⟨Nat.lt_of_lt_of_le (hfences c hc).1 hbound, (hfences c hc).2⟩
      · exact ⟨lt_length_of_getElem? (hlater c hc).2, (hlater c hc).2⟩
    · rintro (hfalse | husers) n - hn
      · cases hfalse
      show n ∈ (s.completions ++ completed).map Prod.fst
      rw [map_append]
      rcases Nat.lt_or_ge n s.read with hlt | hge
      · exact mem_append_left _ (hdone (.inl hcons) n hlt hn)
      · have := hcollected.whole husers (n - s.read)
        rw [getElem?_drop, Nat.add_sub_cancel' hge] at this
        exact mem_append_right _ (this hn)
  · unfold LocalActor.drain
    rw [if_neg hcons]
    exact ⟨hsorted, hfences, hdone, fun _ => rfl, hret⟩

theorem Ledger.step {op} (h : Ledger s) (hbound : s.read ≤ s.accepted.length)
    (hgoes : Goes user s op s') : Ledger s' := by
  cases hgoes with
  | accepts item _ hopen =>
    obtain ⟨hsorted, hfences, hdone, hclosed, hret⟩ := h
    have hcons : s.consumer := by
      by_contra hcons
      rw [hclosed (by simpa using hcons)] at hopen
      cases hopen
    have hsame (j : ℕ) (hj : j < s.read) : (s.accepted ++ [item])[j]? = s.accepted[j]? :=
      getElem?_append_left (by omega)
    refine ⟨hsorted, fun c hc => ⟨(hfences c hc).1, ?_⟩, fun hkept n hn hitem => ?_, hclosed, ?_⟩
    · rw [hsame c.1 (hfences c hc).1]
      exact (hfences c hc).2
    · exact hdone hkept n hn (hsame n hn ▸ hitem)
    · intro hsome
      rw [(hret hsome).1] at hcons
      cases hcons
  | closes => exact ⟨h.sorted, h.fences, h.complete, fun _ => rfl, h.retired⟩
  | drives => exact h.congr ⟨rfl, rfl, rfl, rfl, rfl, rfl⟩
  | waits _ _ _ hlane => exact h.congr hlane
  | message _ _ hitem =>
    obtain ⟨hsorted, hfences, hdone, hclosed, hret⟩ := h
    have hlt := lt_length_of_getElem? hitem
    refine ⟨hsorted, fun c hc => ⟨Nat.lt_succ_of_lt (hfences c hc).1, (hfences c hc).2⟩, ?_,
      hclosed, ?_⟩
    · intro hkept n hn hfence
      rcases Nat.lt_succ_iff_lt_or_eq.mp hn with hn | rfl
      · exact hdone hkept n hn hfence
      · cases hitem.symm.trans hfence
    · intro hsome
      exact absurd (hret hsome).2 hlt.ne
  | fence _ _ hitem =>
    obtain ⟨hsorted, hfences, hdone, hclosed, hret⟩ := h
    have hlt := lt_length_of_getElem? hitem
    refine ⟨?_, ?_, ?_, hclosed, fun hsome => absurd (hret hsome).2 hlt.ne⟩
    · show ((s.completions ++ [(s.read, Except.ok ())]).map Prod.fst).Pairwise (· < ·)
      rw [map_append]
      refine pairwise_append.mpr ⟨hsorted, pairwise_singleton _ _, fun j hj k hk => ?_⟩
      obtain ⟨c, hc, rfl⟩ := mem_map.mp hj
      rw [mem_singleton.mp hk]
      exact (hfences c hc).1
    · intro c hc
      rcases mem_append.mp hc with hc | hc
      · exact ⟨Nat.lt_succ_of_lt (hfences c hc).1, (hfences c hc).2⟩
      · rw [mem_singleton.mp hc]
        exact ⟨Nat.lt_succ_self _, hitem⟩
    · intro hkept n hn hfence
      show n ∈ (s.completions ++ [(s.read, Except.ok ())]).map Prod.fst
      rw [map_append]
      rcases Nat.lt_succ_iff_lt_or_eq.mp hn with hn | rfl
      · exact mem_append_left _ (hdone hkept n hn hfence)
      · exact mem_append_right _ (mem_singleton_self _)
  | drains panics => exact h.drain panics hbound
  | drops panics => exact (h.drain panics hbound).congr ⟨rfl, rfl, rfl, rfl, rfl, rfl⟩

theorem ledger (h : LocalRun user b e tr s) : Ledger s := by
  refine h.history (P := fun _ s => Ledger s) ⟨.nil, by simp [new], ?_, by simp [new],
    by simp [new]⟩
    fun tr s op s' hrun hs hstep => hs.step (attended hrun).bound (goes_of_step hstep)
  exact fun _ n hn => absurd hn (Nat.not_lt_zero n)

/-! ## The fence -/

theorem Goes.completions {op} (h : Goes user s op s') :
    s'.completions = s.completions ∨
      s.alive ∧ s.config.point = .next ∧ s'.completions = s.completions ++ [(s.read, .ok ())] ∨
      (∃ panics, op = .drain panics ∨ op = .drop panics) ∧
        ∃ failed, s'.completions = s.completions ++ failed ∧
          ∀ c ∈ failed, c.2 = .error .acknowledgement := by
  have hdrain (panics : ℕ → Bool) : ∃ failed,
    (s.drain panics).completions = s.completions ++ failed ∧
      ∀ c ∈ failed, c.2 = .error .acknowledgement := by
    unfold LocalActor.drain
    split
    · exact ⟨_, rfl, (collectRetiredIngress_collected panics _ s.read).failed⟩
    · exact ⟨[], by simp, by simp⟩
  cases h with
  | accepts | closes | drives | message => exact .inl rfl
  | waits _ _ _ hlane => exact .inl hlane.completions
  | fence halive hpoint => exact .inr (.inl ⟨halive, hpoint, rfl⟩)
  | drains panics => exact .inr (.inr ⟨⟨panics, .inl rfl⟩, hdrain panics⟩)
  | drops panics => exact .inr (.inr ⟨⟨panics, .inr rfl⟩, hdrain panics⟩)

theorem Goes.accepted {op} (h : Goes user s op s') :
    s.accepted <+: s'.accepted ∧
      (s.admission = false → s'.admission = false ∧ s'.accepted = s.accepted) := by
  have hdrain (panics : ℕ → Bool) : (s.drain panics).admission = false := by
    unfold LocalActor.drain
    split <;> rfl
  cases h with
  | accepts _ _ hopen =>
    refine ⟨prefix_append _ _, fun hclosed => ?_⟩
    rw [hclosed] at hopen
    cases hopen
  | closes => exact ⟨prefix_rfl, fun _ => ⟨rfl, rfl⟩⟩
  | drives | message | fence => exact ⟨prefix_rfl, fun hclosed => ⟨hclosed, rfl⟩⟩
  | waits _ _ _ hlane =>
    rw [hlane.accepted, hlane.admission]
    exact ⟨prefix_rfl, fun hclosed => ⟨hclosed, rfl⟩⟩
  | drains panics =>
    rw [drain_accepted]
    exact ⟨prefix_rfl, fun _ => ⟨hdrain panics, rfl⟩⟩
  | drops panics =>
    show s.accepted <+: (s.drain panics).accepted ∧
      (s.admission = false →
        (s.drain panics).admission = false ∧ (s.drain panics).accepted = s.accepted)
    rw [drain_accepted]
    exact ⟨prefix_rfl, fun _ => ⟨hdrain panics, rfl⟩⟩

theorem run_accepted {s₀} (h : Run (LocalActor.step user) s₀ tr s) :
    s₀.accepted <+: s.accepted ∧
      (s₀.admission = false → s.admission = false ∧ s.accepted = s₀.accepted) := by
  refine h.history ⟨prefix_rfl, fun hclosed => ⟨hclosed, rfl⟩⟩ fun _ s op s' _ hs hstep => ?_
  obtain ⟨hgrows, hkeeps⟩ := (goes_of_step hstep).accepted
  refine ⟨hs.1.trans hgrows, fun hclosed => ?_⟩
  obtain ⟨hadmission, haccepted⟩ := hs.2 hclosed
  exact ⟨(hkeeps hadmission).1, (hkeeps hadmission).2.trans haccepted⟩

theorem Goes.retired {loan : Loan P} {reply}
    (h : Goes user s (.drive (.completed loan reply)) s') (hres : (residualOf loan).isSome) :
    s.retiredIngress.isSome := by
  cases h with
  | accepts _ hop | waits _ hop => exact absurd rfl (hop _)
  | drives => simp_all [permits]

structure ProcessingFence (user : M → P.Event) (tr : LocalHistory P M)
    (s : LocalActor P M) : Prop where
  /-- A fence is acknowledged only after all messages accepted before it were processed. -/
  acknowledged : ∀ pre x post, tr = pre ++ x :: post → ∀ n, (n, .ok ()) ∈ x.target.completions →
    (n, .ok ()) ∉ x.source.completions →
    ∀ j m, j < n → s.accepted[j]? = some (.message m) → Processed user j m pre
  /-- Otherwise it fails where the mailbox is drained. -/
  failed : ∀ x ∈ tr, ∀ n failure, (n, .error failure) ∈ x.target.completions →
    (n, .error failure) ∉ x.source.completions →
    failure = .acknowledgement ∧ ∃ panics, x.input = .drain panics ∨ x.input = .drop panics
  /-- What was completed was an accepted fence. -/
  accepted : ∀ c ∈ s.completions, s.accepted[c.1]? = some .fence
  /-- No fence is completed twice. -/
  once : (s.completions.map Prod.fst).Nodup
  /-- Nor is a completion taken back. -/
  kept : ∀ x ∈ tr, x.source.completions <+: x.target.completions
  /-- When an environment hands over its residual, every fence has been completed, those included
  that would be accepted later: there are none. -/
  residual : ∀ x ∈ tr, ∀ loan reply, x.input = .drive (.completed loan reply) →
    (residualOf loan).isSome → ∀ n, s.accepted[n]? = some .fence →
      ∃ r, (n, r) ∈ x.source.completions

/-- **A fence in the mailbox is a processing fence**, for every actor, every host and every history.
-/
theorem mailbox_processing_fence (user : M → P.Event) (b : P.Behavior) (e : P.Environment)
    (tr : LocalHistory P M) (s : LocalActor P M) (h : LocalRun user b e tr s) :
    ProcessingFence user tr s where
  acknowledged := by
    rintro pre x post rfl n hnew hold j m hj hitem
    obtain ⟨hpre, hstep, hpost⟩ := h.at
    have hattended := attended hpre
    have hgrows := (goes_of_step hstep).accepted.1.trans (run_accepted hpost).1
    rcases (goes_of_step hstep).completions with hsame | ⟨halive, hpoint, hadd⟩
      | ⟨-, failed, hadd, hfailed⟩
    · rw [hsame] at hnew
      exact absurd hnew hold
    · rw [hadd] at hnew
      rcases mem_append.mp hnew with hnew | hnew
      · exact absurd hnew hold
      obtain ⟨rfl, -⟩ := Prod.mk.inj (mem_singleton.mp hnew)
      refine hattended.attends.between_turns hattended.shape (.inl hpoint) halive j m hj ?_
      obtain ⟨rest, hrest⟩ := hgrows
      rwa [← hrest, getElem?_append_left (Nat.lt_of_lt_of_le hj hattended.bound)] at hitem
    · rw [hadd] at hnew
      rcases mem_append.mp hnew with hnew | hnew
      · exact absurd hnew hold
      · cases hfailed _ hnew
  failed := by
    intro x hx n failure hnew hold
    obtain ⟨pre, post, -, hpre, hstep⟩ := h.of_mem hx
    rcases (goes_of_step hstep).completions with hsame | ⟨-, -, hadd⟩ | ⟨hop, failed, hadd, hfailed⟩
    · rw [hsame] at hnew
      exact absurd hnew hold
    · rw [hadd] at hnew
      rcases mem_append.mp hnew with hnew | hnew
      · exact absurd hnew hold
      · cases (Prod.mk.inj (mem_singleton.mp hnew)).2
    · rw [hadd] at hnew
      rcases mem_append.mp hnew with hnew | hnew
      · exact absurd hnew hold
      · cases hfailed _ hnew
        exact ⟨rfl, hop⟩
  accepted c hc := ((ledger h).fences c hc).2
  once := (ledger h).sorted.imp Nat.ne_of_lt
  kept := by
    intro x hx
    obtain ⟨pre, post, -, hpre, hstep⟩ := h.of_mem hx
    rcases (goes_of_step hstep).completions with hsame | ⟨-, -, hadd⟩ | ⟨-, failed, hadd, -⟩
    · exact hsame ▸ prefix_rfl
    all_goals exact hadd ▸ prefix_append _ _
  residual := by
    intro x hx loan reply hinput hres n hitem
    obtain ⟨pre, post, rfl⟩ := append_of_mem hx
    obtain ⟨hpre, hstep, hpost⟩ := h.at
    have hgoes := goes_of_step hstep
    have hret := (hinput ▸ hgoes).retired hres
    have hledger := ledger hpre
    obtain ⟨hcons, hread⟩ := hledger.retired hret
    obtain ⟨hclosed, haccepted⟩ := hgoes.accepted.2 (hledger.closed hcons)
    rw [((run_accepted hpost).2 hclosed).2, haccepted] at hitem
    have hdone := hledger.complete (.inr hret) n (hread ▸ lt_length_of_getElem? hitem) hitem
    obtain ⟨c, hc, rfl⟩ := mem_map.mp hdone
    exact ⟨c.2, hc⟩

/-- What `next` finds when only the mailbox is ready. -/
def mailboxOnly (received : MailboxPoll numberPort) : Polls numberPort :=
  ⟨none, some received, none, false, none, none⟩

/-- The driver takes some steps. -/
def driven (is : List (Engine.Input numberPort)) : List (LocalOp numberPort ℕ) := is.map .drive

/-- A message and a fence are accepted and read, another fence is accepted, and then the owner
cancels. -/
def fencedTurn : List (LocalOp numberPort ℕ) :=
  [.send 5, .fence] ++
    driven publishing ++
    [.next (mailboxOnly .user) none] ++
    driven [.advance, .advance, .folded 2 (.ok 1),
      .completed (.application none (some 4)) (.reply () none), .advance,
        .classified (.ok .accepted),
      .advance, .advance, .advance, .completed (.source none (some (.retained 4))) (.reply () none),
      .advance, .advance, .advance] ++
    [.next (mailboxOnly .user) none, .fence,
      .next ⟨some (some 8), some .user, none, false, none, none⟩ none] ++
    driven [.advance, .advance, .advance] ++
    [.drain fun _ => false,
      .drive (.completed (.retirement none none none none none none none (some 9))
        (.reply () none))]

/-- In that life the first fence is acknowledged and the second one fails, both before the residual.
-/
theorem mailbox_processing_fence_cancelled :
    ∃ (tr : LocalHistory numberPort ℕ) (s : LocalActor numberPort ℕ),
      LocalRun (P := numberPort) id 0 0 tr s ∧ s.accepted = [.message 5, .fence, .fence] ∧
        s.completions = [(1, .ok ()), (2, .error .acknowledgement)] ∧
        s.config.driver.residual = some 9 ∧ ProcessingFence (P := numberPort) id tr s := by
  have hrun :
    (exec (LocalActor.step (P := numberPort) id) (.new (P := numberPort) 0 0) fencedTurn).map
      (fun r => (r.2.accepted, r.2.completions, r.2.config.driver.residual)) =
      some ([.message 5, .fence, .fence], [(1, .ok ()), (2, .error .acknowledgement)], some 9) :=
        rfl
  obtain ⟨⟨tr, s⟩, hexec, hs⟩ := Option.map_eq_some_iff.mp hrun
  obtain ⟨haccepted, hs⟩ := Prod.mk.inj hs
  obtain ⟨hcompletions, hres⟩ := Prod.mk.inj hs
  exact ⟨tr, s, exec_run hexec, haccepted, hcompletions, hres,
    mailbox_processing_fence (P := numberPort) id 0 0 tr s (exec_run hexec)⟩

end Local
