import Bombay.Entity.Commands

/-!
# Tickets

A call of `admit` that has taken in a command has two names for it: the dispatch identity, under
which the command can be cancelled, and the publication, under which the answer comes.  The two
are its *ticket*.

* A publication belongs to one command, which is in one place or answered (`Single.one`), and is
  handed to `port.deliver` once (`Single.delivered`).
* A dispatch identity belongs to one call (`Single.ids`).  So nobody can cancel the command of
  another call, and the command of a call that still has its ticket is in custody or answered
  (`Single.kept`).
-/

set_option autoImplicit false

namespace Entity

open Machine List Option Pc

variable {R : LocalEntityRuntime}

/-! ## Publications -/

/-- Counts the commands under a publication. -/
def publishedBy (k : Publication) : Scale R := fun _ _ pending =>
  if pending.publisher = k then 1 else 0

/-- Counts the commands under a publication that are still to be delivered. -/
def undelivered (k : Publication) : Scale R
  | .queued, _, pending => if pending.publisher = k then 1 else 0
  | _, _, _ => 0

/-- How often a publication has been answered. -/
def Shared.answered (s : Shared R) (k : Publication) : ℕ := s.replies.countP (·.1 = k)

/-- In this transition the command of the publication is handed to `port.deliver`. -/
def Pc.delivers (k : Publication) : Pc R → Bool
  | .spawn (.delivery _ _ _ _ _ pending) _ => pending.publisher = k
  | _ => false

def delivers (k : Publication)
    (x : Transition (Pool (Shared R) (Pc R)) (Schedule (Pc R) (Input R))) : Bool :=
  match x.input with
  | .call _ => false
  | .run t _ => x.source.threads[t]?.any (Pc.delivers k)

/-- A scale that only looks at the names of a command. -/
structure Scale.Blind (f : Scale R) : Prop where
  custody : ∀ c c' d pending, f c d pending = f c' d pending
  command : ∀ c d pending command, f c d { pending with command := command } = f c d pending

variable {f : Scale R}

theorem Scale.Blind.returning_eq (hf : f.Blind)
    (waiters : List (ActivationWaiter (PendingCommand R))) :
    returning f waiters = total (ActivationWaiter.load f) waiters := by
  rw [returning, total, total]
  exact congrArg List.sum (map_congr_left fun waiter _ => hf.custody ..)

theorem publishedBy_blind (k : Publication) : (publishedBy k : Scale R).Blind :=
  ⟨fun _ _ _ _ => rfl, fun _ _ _ _ => rfl⟩

/-- What a section does with commands, as far as their names tell. -/
inductive Carries (f : Scale R) (s : Shared R) (p : Pc R) (s' : Shared R) (p' : Pc R)
    (before after : ℕ) : Prop
  | even (h : after = before) (replies : s'.replies = s.replies)
  | enters (pending) (publisher : pending.publisher = s.fresh)
      (fresh : s'.fresh = s.fresh + 1) (h : after = before + f .queued none pending)
      (replies : s'.replies = s.replies)
  | numbers (id pending d next) (new : allocate s.directory.nextDispatch = some (d, next))
      (place : p = .dispatch id pending) (place' : p' = .route id pending ⟨d⟩)
      (h : after + f .queued none pending = before + f .queued (some ⟨d⟩) pending)
      (replies : s'.replies = s.replies)
  | exhausts (pending) (place : (∃ id, p = .dispatch id pending) ∨ ∃ id d, p = .route id pending d)
      (failure) (place' : p' = .release (.stop (.admitted (.error failure))))
      (h : after + p.load f = before) (replies : s'.replies = s.replies)
  | answers (d pending result) (h : after + f .queued (some d) pending = before)
      (replies : s'.replies = (pending.publisher, result) :: s.replies)
  | cancels (id slot d purpose x st)
      (place : p = .submit id slot (.cancelWaiter st.activationId d) purpose)
      (hx : s.directory.slots[slot]? = some x) (hst : x.execution.state = .activating st)
      (h : after + total (ActivationWaiter.load f) (st.waiters.filter (·.dispatchId = d)) = before)
      (replies : s'.replies = s.replies)

theorem Conveys.carries {s s' : Shared R} {p p' : Pc R} {i : Input R} {before after : Scale R → ℕ}
    (h : Conveys s p i s' p' before after) (hf : f.Blind) :
    Carries f s p s' p' (before f) (after f) := by
  cases h with
  | keeps _ hload replies =>
    have hsame := hload f
    rw [hf.returning_eq] at hsame
    exact .even (Nat.add_right_cancel hsame) replies
  | enters _ _ _ _ _ hload fresh replies =>
    exact .enters _ rfl fresh (hload f) replies
  | numbers id pending d next new place place' hload replies =>
    exact .numbers id pending d next new place place' (hload f) replies
  | exhausts pending failure place place' _ hload replies =>
    exact .exhausts pending place failure place' (hload f) replies
  | starts _ _ _ _ _ _ _ _ hload replies =>
    have hsame := hload f
    rw [hf.custody .queued .delivering] at hsame
    exact .even (Nat.add_right_cancel hsame) replies
  | accepts _ _ _ d _ pending _ _ hload replies =>
    have hsame := hload f
    rw [hf.custody .delivering .queued] at hsame
    exact .answers d pending _ hsame replies
  | fails _ _ _ d _ pending command _ _ hload replies =>
    have hsame := hload f
    rw [hf.command .returned (some d) pending command, hf.custody .delivering .returned] at hsame
    exact .even (Nat.add_right_cancel hsame) replies
  | answers d pending _ hload replies =>
    have hsame := hload f
    rw [hf.custody .returned .queued] at hsame
    exact .answers d pending _ hsame replies
  | dies _ _ hload replies =>
    have hsame := hload f
    rw [hf.custody .delivering .died] at hsame
    exact .even (Nat.add_right_cancel hsame) replies
  | cancels id slot d purpose x st place hx hst hload replies =>
    exact .cancels id slot d purpose x st place hx hst (hload f) replies

theorem returning_undelivered (k : Publication)
    (waiters : List (ActivationWaiter (PendingCommand R))) :
    returning (undelivered k) waiters = 0 :=
  total_eq_zero fun _ _ => rfl

variable {s s' : Shared R} {self fresh : ℕ} {p p' : Pc R} {q : Option (Pc R)} {i : Input R}
  {w : Pool (Shared R) (Pc R)} {t : ℕ}

/-- Whether a publication has been made. -/
def Shared.made (s : Shared R) (k : Publication) : ℕ := if k < s.fresh then 1 else 0

theorem made_le (h : s.fresh ≤ s'.fresh) (k : Publication) : s.made k ≤ s'.made k := by
  rw [Shared.made, Shared.made]
  by_cases hk : k < s.fresh
  · rw [if_pos hk, if_pos (Nat.lt_of_lt_of_le hk h)]
  · rw [if_neg hk]
    exact Nat.zero_le _

theorem made_fresh (h : s'.fresh = s.fresh + 1) (k : Publication) :
    s'.made k = s.made k + if s.fresh = k then 1 else 0 := by
  rw [Shared.made, Shared.made, h]
  by_cases hk : k < s.fresh
  · rw [if_pos hk, if_pos (Nat.lt_succ_of_lt hk), if_neg (Nat.ne_of_gt hk)]
  · by_cases heq : s.fresh = k
    · subst heq
      rw [if_pos (Nat.lt_succ_self _), if_neg hk, if_pos rfl]
    · have hlt : s.fresh < k := Nat.lt_of_le_of_ne (Nat.le_of_not_lt hk) heq
      rw [if_neg hk, if_neg heq, if_neg (Nat.not_lt_of_le hlt)]

variable {k : Publication}

theorem answered_cons {j} {r} (h : s'.replies = (j, r) :: s.replies) :
    s'.answered k = s.answered k + if j = k then 1 else 0 := by
  rw [Shared.answered, h, countP_cons, Shared.answered]
  simp

theorem answered_same (h : s'.replies = s.replies) : s'.answered k = s.answered k := by
  rw [Shared.answered, h, Shared.answered]

variable [DecidableEq R.Id]

theorem Acts.fresh_le (h : Acts s self fresh p i s' p' q) : s.fresh ≤ s'.fresh := by
  cases h <;> first | exact Nat.le_refl _ | exact Nat.le_succ _

theorem one_act (hp : w.threads[t]? = some p)
    (h : Acts w.shared t w.threads.length p i s' p' q) (hn : p.Named w.shared.directory)
    (hone : custody (publishedBy k) w + w.shared.answered k ≤ w.shared.made k) :
    custody (publishedBy k) ⟨s', w.threads.set t p' ++ q.toList⟩ + s'.answered k ≤ s'.made k := by
  have hmove := custody_move (publishedBy k) s' p' q hp
  have hmade := made_le h.fresh_le k
  cases (h.commands hn).carries (publishedBy_blind k) with
  | even _ replies | exhausts _ _ _ _ _ replies
  | cancels _ _ _ _ _ _ _ _ _ _ replies =>
    have := answered_same (k := k) replies
    omega
  | enters _ publisher fresh heq replies =>
    have := made_fresh fresh k
    have := answered_same (k := k) replies
    rw [publishedBy, publisher] at heq
    omega
  | numbers _ _ _ _ _ _ _ heq replies =>
    have := answered_same (k := k) replies
    rw [publishedBy, publishedBy] at heq
    omega
  | answers _ _ _ heq replies =>
    have := answered_cons (k := k) replies
    rw [publishedBy] at heq
    omega

/-- What is to be delivered becomes less, unless `admit` takes a command in. -/
theorem undelivered_act (hp : w.threads[t]? = some p)
    (h : Acts w.shared t w.threads.length p i s' p' q) (hn : p.Named w.shared.directory)
    (k : Publication) :
    custody (undelivered k) ⟨s', w.threads.set t p' ++ q.toList⟩ + w.shared.made k ≤
      custody (undelivered k) w + s'.made k := by
  have hmove := custody_move (undelivered k) s' p' q hp
  have hmade := made_le h.fresh_le k
  cases h.commands hn with
  | keeps _ hload =>
    have heq := hload (undelivered k)
    rw [returning_undelivered] at heq
    omega
  | enters _ _ _ _ _ hload fresh =>
    have heq : _ = _ + if w.shared.fresh = k then 1 else 0 := hload (undelivered k)
    have := made_fresh fresh k
    omega
  | numbers _ _ _ _ _ _ _ hload =>
    have heq := hload (undelivered k)
    rw [undelivered, undelivered] at heq
    omega
  | exhausts _ _ _ _ _ hload
  | accepts _ _ _ _ _ _ _ _ hload
  | answers _ _ _ hload
  | cancels _ _ _ _ _ _ _ _ _ hload =>
    have heq := hload (undelivered k)
    omega
  | starts _ _ _ d _ pending _ _ hload =>
    have heq := hload (undelivered k)
    rw [show undelivered k .delivering (some d) pending = 0 from rfl] at heq
    omega
  | fails _ _ _ d _ pending command _ _ hload =>
    have heq := hload (undelivered k)
    rw [show undelivered k .returned (some d) { pending with command := command } = 0 from rfl]
      at heq
    omega
  | dies d pending hload =>
    have heq := hload (undelivered k)
    rw [show undelivered k .died (some d) pending = 0 from rfl] at heq
    omega

/-- A command that is handed to `port.deliver` is no longer to be delivered. -/
theorem delivers_act (hp : w.threads[t]? = some p)
    (h : Acts w.shared t w.threads.length p i s' p' q) (hd : p.delivers k) :
    custody (undelivered k) ⟨s', w.threads.set t p' ++ q.toList⟩ + 1 =
      custody (undelivered k) w ∧ s'.made k = w.shared.made k := by
  have hmove := custody_move (undelivered k) s' p' q hp
  cases h with
  | spawned task =>
    cases task with
    | delivery _ _ _ _ _ pending =>
      have hk : pending.publisher = k := by simpa [Pc.delivers] using hd
      refine ⟨?_, rfl⟩
      generalize custody (undelivered k) ⟨w.shared, _⟩ = after at hmove ⊢
      simp only [Shared.loads, load, Task.load, undelivered, hk, toList_none,
        toList_some, total_nil, total_cons, if_true] at hmove
      omega
    | _ => cases hd
  | panic p _ h => cases p <;> first | cases hd | exact h.elim
  | _ => cases hd

/-! ## Dispatch identities -/

section Places

omit [DecidableEq R.Id]

def After.ticket? : After R → Option (DispatchId × Publication)
  | .wait _ _ d observation => some (d, observation)
  | _ => none

def Return.ticket? : Return R → Option (DispatchId × Publication)
  | .release after => after.ticket?
  | _ => none

def Purpose.ticket? : Purpose R → Option (DispatchId × Publication)
  | .dispatch d observation => some (d, observation)
  | .task ret => ret.ticket?
  | _ => none

def Cont.ticket? : Cont R → Option (DispatchId × Publication)
  | .interpret _ _ ret => ret.ticket?
  | .closeSlots .. => none

/-- The names under which a call of `admit` knows its command. -/
def Pc.ticket? : Pc R → Option (DispatchId × Publication)
  | .route _ pending d => some (d, pending.publisher)
  | .wait _ _ d observation => some (d, observation)
  | .release after => after.ticket?
  | .submitOrInactive _ _ purpose | .submit _ _ _ purpose => purpose.ticket?
  | .acquire _ _ ret | .next _ _ ret | .interpretEffect _ _ _ ret | .takeSlot _ _ _ ret
  | .retainRetired _ _ _ ret => ret.ticket?
  | .begin _ cont | .spawn _ cont | .track _ cont => cont.ticket?
  | .panicked place => place.ticket?
  | _ => none

/-- The dispatch a dropped call is about to cancel. -/
def SlotEvent.cancelled? {C E L : Type} : SlotEvent C E L → Option DispatchId
  | .cancelWaiter _ d => some d
  | _ => none

def Pc.dropping? : Pc R → Option DispatchId
  | .dropWait _ _ d => some d
  | .submitOrInactive _ event _ | .submit _ _ event _ => event.cancelled?
  | .panicked place => place.dropping?
  | _ => none

/-- Whether a thread knows a dispatch identity. -/
def Pc.knows (d : DispatchId) (p : Pc R) : ℕ :=
  (if p.ticket?.map Prod.fst = some d then 1 else 0) + if p.dropping? = some d then 1 else 0

theorem After.ticket_pc (after : After R) :
    after.pc.ticket? = after.ticket? ∧ after.pc.dropping? = none := by
  cases after <;> exact ⟨rfl, rfl⟩

theorem Return.ticket_pc (ret : Return R) :
    ret.pc.ticket? = ret.ticket? ∧ ret.pc.dropping? = none := by
  rcases ret with _ | _ | _ | _ | ⟨_, _, _, _ | _, _⟩ | _ <;> exact ⟨rfl, rfl⟩

theorem Cont.ticket_pc (cont : Cont R) :
    cont.pc.ticket? = cont.ticket? ∧ cont.pc.dropping? = none := by
  cases cont <;> exact ⟨rfl, rfl⟩

theorem Purpose.ticket_ret (purpose : Purpose R) (id : R.Id) (installed : InstalledSlotEvidence) :
    (purpose.ret id installed).ticket? = purpose.ticket? := by
  cases purpose <;> rfl

theorem ticket_submitOwned (id : R.Id) (slot : Option SlotRef) (event : R.Event)
    (ret : SlotRef → Return R) (h : ∀ slot, (ret slot).ticket? = none)
    (hevent : event.cancelled? = none) : (submitOwned id slot event ret).ticket? = none ∧
      (submitOwned id slot event ret).dropping? = none := by
  cases slot with
  | none => exact ⟨rfl, rfl⟩
  | some slot => exact ⟨h slot, hevent⟩

theorem Pc.knows_le {p p' : Pc R} (hticket : p'.ticket? = p.ticket? ∨ p'.ticket? = none)
    (hdropping : p'.dropping? = p.dropping? ∨ p'.dropping? = none) (d : DispatchId) :
    p'.knows d ≤ p.knows d := by
  rw [knows, knows]
  refine Nat.add_le_add ?_ ?_
  · rcases hticket with h | h <;> rw [h]
    exact Nat.zero_le _
  · rcases hdropping with h | h <;> rw [h]
    exact Nat.zero_le _

end Places

theorem allocate_spec {n d next} (h : allocate n = some (d, next)) : d = n ∧ next.1 = n.1 + 1 := by
  rw [allocate] at h
  split_ifs at h
  obtain ⟨rfl, rfl⟩ := Prod.mk.inj (some.inj h)
  exact ⟨rfl, rfl⟩

/-- A section makes a ticket, or it keeps the names that its thread knows, or forgets some. -/
theorem Acts.ticket (h : Acts s self fresh p i s' p' q) :
    (s'.directory.nextDispatch = s.directory.nextDispatch ∧
      (p'.ticket? = p.ticket? ∨ p'.ticket? = none) ∧ ∀ d, p'.knows d ≤ p.knows d) ∨
    ∃ id pending d next, allocate s.directory.nextDispatch = some (d, next) ∧
      s'.directory.nextDispatch = next ∧ p = .dispatch id pending ∧
      p' = .route id pending ⟨d⟩ := by
  have hkeep (hnext : s'.directory.nextDispatch = s.directory.nextDispatch)
      (hticket : p'.ticket? = p.ticket? ∨ p'.ticket? = none)
      (hdropping : p'.dropping? = p.dropping? ∨ p'.dropping? = none) :
      s'.directory.nextDispatch = s.directory.nextDispatch ∧
        (p'.ticket? = p.ticket? ∨ p'.ticket? = none) ∧ ∀ d, p'.knows d ≤ p.knows d :=
    ⟨hnext, hticket, fun d => knows_le hticket hdropping d⟩
  cases h with
  | dispatched id pending d next new => exact .inr ⟨id, pending, d, next, new, rfl, rfl, rfl⟩
  | routeClaimed _ _ _ _ _ _ _ claimed =>
    refine .inl (hkeep ?_ (.inl rfl) (.inr rfl))
    rw [LocalDirectory.claim] at claimed
    split at claimed
    · cases claimed
    · cases claimed
      rfl
  | waitDropped =>
    refine .inl ⟨rfl, .inr rfl, fun d' => ?_⟩
    simp [knows, ticket?, dropping?]
  | released after =>
    exact .inl (hkeep rfl (.inl after.ticket_pc.1) (.inr after.ticket_pc.2))
  | busy _ _ ret | emptied _ _ ret | transientDone _ ret =>
    exact .inl (hkeep rfl (.inl ret.ticket_pc.1) (.inr ret.ticket_pc.2))
  | tracked _ cont => exact .inl (hkeep rfl (.inl cont.ticket_pc.1) (.inr cont.ticket_pc.2))
  | absent _ _ purpose | submitted _ _ _ purpose =>
    exact .inl (hkeep rfl (.inl (purpose.ticket_ret ..)) (.inr rfl))
  | delivered | retired | recorded =>
    exact .inl (hkeep rfl (.inr (ticket_submitOwned _ _ _ _ (fun _ => rfl) rfl).1)
      (.inr (ticket_submitOwned _ _ _ _ (fun _ => rfl) rfl).2))
  | fenced id slot a _ result =>
    obtain ⟨hticket, hdropping⟩ := ticket_submitOwned id slot (fenceFact a result)
      (fun _ => .finish) (fun _ => rfl) (by cases result <;> rfl)
    exact .inl (hkeep rfl (.inr hticket) (.inr hdropping))
  | panic | located => exact .inl (hkeep rfl (.inl rfl) (.inl rfl))
  | dropEntered => exact .inl (hkeep rfl (.inr rfl) (.inl rfl))
  | _ =>
    refine .inl (hkeep rfl ?_ (.inr rfl))
    first
    | exact .inr rfl
    | exact .inl rfl

/-! ## Along a run -/

/-- Counts the commands under a ticket. -/
def ticketed (d : DispatchId) (k : Publication) : Scale R := fun _ d' pending =>
  if d' = some d ∧ pending.publisher = k then 1 else 0

omit [DecidableEq R.Id] in
theorem ticketed_blind (d : DispatchId) (k : Publication) : (ticketed d k : Scale R).Blind :=
  ⟨fun _ _ _ _ => rfl, fun _ _ _ _ => rfl⟩

omit [DecidableEq R.Id] in
theorem ticketed_none (d : DispatchId) (k : Publication) (c : Custody)
    (pending : PendingCommand R) : ticketed d k c none pending = 0 := by
  simp [ticketed]

variable {d : DispatchId}

omit [DecidableEq R.Id] in
theorem ticketed_ne {d'} (h : d' ≠ d) (k : Publication) (c : Custody)
    (pending : PendingCommand R) : ticketed d k c (some d') pending = 0 := by
  simp [ticketed, h]

/-- Whether a dispatch identity has been allocated. -/
def LocalDirectory.numbered (directory : LocalDirectory R) (d : DispatchId) : ℕ :=
  if d.get.1 < directory.nextDispatch.1 then 1 else 0

/-- Names of commands are exact, in a family that came to `w` by the history `tr`. -/
structure Single (tr : RuntimeHistory R) (w : Pool (Shared R) (Pc R)) : Prop where
  one : ∀ k, custody (publishedBy k) w + w.shared.answered k ≤ w.shared.made k
  delivered : ∀ k, tr.countP (delivers k) + custody (undelivered k) w ≤ w.shared.made k
  ids : ∀ d, total (knows d) w.threads ≤ w.shared.directory.numbered d
  kept : Each (fun _ p => ∀ d k, p.ticket? = some (d, k) →
    1 ≤ custody (ticketed d k) w + w.shared.answered k) w.threads

theorem ids_act (hp : w.threads[t]? = some p) (h : Acts w.shared t w.threads.length p i s' p' q)
    (hone : total (knows d) w.threads ≤ w.shared.directory.numbered d) :
    total (knows d) (w.threads.set t p' ++ q.toList) ≤ s'.directory.numbered d := by
  have hmove := total_move (knows d) p' q hp
  have hnone : total (knows d) q.toList = 0 := by
    refine total_eq_zero fun r hr => ?_
    obtain ⟨task, _, _, rfl⟩ := h.started (mem_toList.mp hr)
    rfl
  rcases h.ticket with ⟨hnext, _, hle⟩ | ⟨id, pending, d', next, hnew, hnext, rfl, rfl⟩
  · have := hle d
    rw [LocalDirectory.numbered, hnext]
    rw [LocalDirectory.numbered] at hone
    omega
  · obtain ⟨rfl, hsucc⟩ := allocate_spec hnew
    rw [LocalDirectory.numbered, hnext, hsucc]
    rw [LocalDirectory.numbered] at hone
    have hbefore : (dispatch id pending).knows d = 0 := rfl
    by_cases heq : (⟨w.shared.directory.nextDispatch⟩ : DispatchId) = d
    · subst heq
      have hafter : (route id pending ⟨w.shared.directory.nextDispatch⟩).knows
          ⟨w.shared.directory.nextDispatch⟩ = 1 := by simp [knows, ticket?, dropping?]
      rw [if_neg (Nat.lt_irrefl _)] at hone
      rw [if_pos (Nat.lt_succ_self _)]
      omega
    · have hafter : (route id pending ⟨w.shared.directory.nextDispatch⟩).knows d = 0 := by
        simp [knows, ticket?, dropping?, heq]
      split_ifs at hone ⊢ <;> omega

variable {tr : RuntimeHistory R} {u : ℕ} {r : Pc R}

omit [DecidableEq R.Id] in
theorem Single.knows_sole (hw : Single tr w) (hp : w.threads[t]? = some p)
    (hr : w.threads[u]? = some r) (hpd : p.knows d ≠ 0) (hrd : r.knows d ≠ 0) : t = u := by
  by_contra hne
  have hle := add_le_total (knows d) hp hr hne
  have hone := hw.ids d
  rw [LocalDirectory.numbered] at hone
  split_ifs at hone <;> omega

omit [DecidableEq R.Id] in
theorem Pc.knows_of_ticket (h : p.ticket? = some (d, k)) : p.knows d ≠ 0 := by
  simp [knows, h]

theorem Single.kept_act (hw : Single tr w) (hp : w.threads[t]? = some p)
    (h : Acts w.shared t w.threads.length p i s' p' q) (hn : p.Named w.shared.directory)
    (hr : w.threads[u]? = some r)
    (hticket : r.ticket? = some (d, k)) (hself : u = t → p'.ticket? = p.ticket?) :
    1 ≤ custody (ticketed d k) ⟨s', w.threads.set t p' ++ q.toList⟩ + s'.answered k := by
  have hkept := hw.kept u r hr d k hticket
  have hmove := custody_move (ticketed d k) s' p' q hp
  have hknows := knows_of_ticket hticket
  cases (h.commands hn).carries (ticketed_blind d k) with
  | even _ replies | enters _ _ _ _ replies =>
    have := answered_same (k := k) replies
    omega
  | numbers _ _ _ _ _ _ _ heq replies =>
    have := answered_same (k := k) replies
    rw [ticketed_none] at heq
    omega
  | exhausts _ place _ place' heq replies =>
    have := answered_same (k := k) replies
    have hzero : p.load (ticketed d k) = 0 := by
      rcases place with ⟨id, rfl⟩ | ⟨id, d', rfl⟩
      · exact ticketed_none ..
      · refine ticketed_ne (fun heq => ?_) ..
        subst heq
        have hut := hw.knows_sole hr hp hknows (by simp [knows, ticket?])
        cases (place' ▸ hself hut : (release _).ticket? = _)
    omega
  | answers d' pending _ _ replies =>
    have := answered_cons (k := k) replies
    have hle : ticketed d k .queued (some d') pending ≤ if pending.publisher = k then 1 else 0 := by
      rw [ticketed]
      split_ifs <;> simp_all
    omega
  | cancels id slot d' purpose _ st place _ _ _ replies =>
    have := answered_same (k := k) replies
    have hne : d' ≠ d := by
      rintro rfl
      subst place
      have hdrops : (submit id slot (.cancelWaiter st.activationId d') purpose).dropping? =
        some d' := rfl
      obtain rfl := hw.knows_sole hr hp hknows (by simp [knows, hdrops])
      obtain rfl := some.inj (hr.symm.trans hp)
      -- it would know the identity twice
      have htwo : (submit id slot (.cancelWaiter st.activationId d') purpose).knows d' = 2 := by
        simp [knows, hticket, hdrops]
      have hle := le_total (knows d') hp
      have hone := hw.ids d'
      rw [LocalDirectory.numbered] at hone
      split_ifs at hone <;> omega
    have hzero : total (ActivationWaiter.load (ticketed d k))
        (st.waiters.filter (·.dispatchId = d')) = 0 := by
      refine total_eq_zero fun waiter hwaiter => ?_
      obtain rfl : waiter.dispatchId = d' := by simpa using (mem_filter.mp hwaiter).2
      exact ticketed_ne hne ..
    omega

theorem Single.act (hw : Single tr w) (hp : w.threads[t]? = some p)
    (h : Acts w.shared t w.threads.length p i s' p' q) (hn : p.Named w.shared.directory) :
    Single (tr ++ [⟨w, .run t i, ⟨s', w.threads.set t p' ++ q.toList⟩⟩])
      ⟨s', w.threads.set t p' ++ q.toList⟩ := by
  refine ⟨fun k => one_act hp h hn (hw.one k), fun k => ?_, fun d => ids_act hp h (hw.ids d), ?_⟩
  · have hcount : [(⟨w, .run t i, ⟨s', w.threads.set t p' ++ q.toList⟩⟩ :
        Transition (Pool (Shared R) (Pc R)) (Schedule (Pc R) (Input R)))].countP (delivers k) =
        (p.delivers k).toNat := by
      cases hd : p.delivers k <;> simp [delivers, hp, hd]
    have hone := hw.delivered k
    rw [countP_append, hcount]
    show _ ≤ s'.made k
    cases hd : p.delivers k with
    | true =>
      obtain ⟨hload, hmade⟩ := delivers_act hp h hd
      rw [Bool.toNat_true]
      omega
    | false =>
      have hload := undelivered_act hp h hn k
      rw [Bool.toNat_false]
      omega
  · intro u r hr d k hticket
    by_cases hu : u < w.threads.length
    · rw [getElem?_append_left (by simpa using hu)] at hr
      rcases of_moved hr with ⟨rfl, rfl⟩ | ⟨hne, hold⟩
      · rcases h.ticket with ⟨_, hsame | hnone, _⟩ | ⟨id, pending, d', next, _, _, rfl, rfl⟩
        · exact hw.kept_act hp h hn hp (hsame ▸ hticket) fun _ => hsame
        · cases hnone.symm.trans hticket
        · -- the new ticket is for the command in its own hands
          obtain ⟨rfl, rfl⟩ := Prod.mk.inj (some.inj hticket)
          have hle := le_total (load (ticketed ⟨d'⟩ pending.publisher)) hr
          have hone : (route id pending ⟨d'⟩).load (ticketed ⟨d'⟩ pending.publisher) = 1 := by
            simp [load, ticketed]
          rw [custody, total_append]
          show 1 ≤ _ + (_ + _) + _
          omega
      · exact hw.kept_act hp h hn hold hticket fun hut => absurd hut hne
    · rw [getElem?_append_right (by simpa using Nat.le_of_not_lt hu)] at hr
      obtain ⟨task, _, _, rfl⟩ := h.started (mem_toList.mp (mem_of_getElem? hr))
      cases hticket

omit [DecidableEq R.Id] in
theorem Pc.isCall_ticket (h : p.isCall) : p.ticket? = none ∧ ∀ d, p.knows d = 0 := by
  cases p with
  | admitCommand | passivate | retireEntity | shutdown => exact ⟨rfl, fun _ => rfl⟩
  | _ => cases h

/-- **Names of commands along a run.** -/
theorem single_run {config} {hash : R.Id → ℕ} (h : Reaches config hash tr w) : Single tr w := by
  refine h.history (P := Single) ⟨fun k => ?_, fun k => ?_, fun d => ?_, each_nil _⟩
    fun tr w a w' hrun hw hstep => ?_
  · exact Nat.zero_le _
  · exact Nat.zero_le _
  · exact Nat.zero_le _
  · rcases EntityRuntime.step_cases hstep with
      ⟨p, rfl, hp, rfl⟩ | ⟨t, i, p, s, p', q, rfl, hp, hact, rfl⟩
    · obtain ⟨hticket, hknows⟩ := isCall_ticket hp
      refine ⟨fun k => ?_, fun k => ?_, fun d => ?_, ?_⟩
      · rw [custody_call hp]
        exact hw.one k
      · rw [custody_call hp, countP_append]
        exact hw.delivered k
      · show total (knows d) (w.threads ++ [p]) ≤ _
        rw [total_append, total_cons, hknows]
        exact hw.ids d
      · intro u r hr d k hr'
        rw [custody_call hp]
        rcases of_joined hr with hr | ⟨_, rfl⟩
        · exact hw.kept u r hr d k hr'
        · cases hticket.symm.trans hr'
    · exact hw.act hp hact ((named_run hrun).threads t p hp)

end Entity
