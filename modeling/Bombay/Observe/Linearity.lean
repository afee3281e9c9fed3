import Bombay.Observe.Cell

/-!
# Outcome cells are linear

The handles of a slot are the entry of the table, the place in the pool, and the threads.  What a
thread has of the slot are its stakes: it may publish, observe, be the only observation, own the
slot, or have a handle that is only still to be dropped; and it may know something about the two
bits, or have the outcome in hand.  `Balanced` relates the stakes of all threads to the `Arc` count,
to the bits and to what has become of the outcome of the epoch.

Three times the code draws a conclusion from a count.  `Arc::try_unwrap` and the last drop conclude
that nobody else is there, and `Subject::drop` concludes from a count of one that only its own
handle is left.  Each is arithmetic here.
-/

set_option autoImplicit false

namespace Observe.Custody

open Machine List Option Access Bool

variable {O : Type}

/-! ## Stakes -/

/-- What a thread has of the slot, or knows of it. -/
inductive Stake
  /-- The subject or the publisher. -/
  | writer
  /-- A cloneable observation. -/
  | observer
  /-- The affine observation. -/
  | sole
  /-- A handle, and the slot to oneself. -/
  | owner
  /-- The slot itself, and no handle. -/
  | bare
  /-- A handle that is still to be dropped. -/
  | idle
  /-- The outcome is written, and not marked as completed. -/
  | mark
  /-- The outcome is in hand: not marked as valid, it must be marked or disposed of. -/
  | pending
  /-- `OUTCOME_VALID` is known to be set. -/
  | valid
  /-- `OUTCOME_VALID` is known to be clear. -/
  | invalid
  /-- `COMPLETED` is known to be clear. -/
  | pristine
  /-- `COMPLETED` is known to be set. -/
  | completed
  deriving DecidableEq

def Place.stakes : Place O → Stake → ℕ
  | space, _ | gone, _ => 0
  | load, .owner | push, .owner => 1
  | clear _, .owner | clear _, .valid | clear false, .pristine | clear true, .completed => 1
  | destroy, .owner | destroy, .pending | destroy, .invalid => 1
  | zero, .owner | zero, .invalid => 1
  | enroll, .owner | enroll, .invalid | enroll, .pristine => 1
  | author _, .writer | complete _ _, .writer | recycle, .writer => 1
  | store _ _, .writer | store _ _, .pristine => 1
  | mark _, .writer | mark _, .mark | mark _, .pending => 1
  | observation, .observer => 1
  | read, .observer | read, .valid | cloning, .observer | cloning, .valid => 1
  | unwrapped, .bare | claim .unwrapped, .bare | dying, .bare => 1
  | take .unwrapped, .bare | take .unwrapped, .pending => 1
  | dropping, .bare | dropping, .valid => 1
  | affine, .sole | claim .affine, .sole => 1
  | take .affine, .sole | take .affine, .pending => 1
  | release, .idle => 1
  | _, _ => 0

/-- How often the threads have a stake. -/
def stakes (l : List (Place O)) (k : Stake) : ℕ := total (fun p => p.stakes k) l

/-- Which stakes come with which. -/
def Joined (x : Stake → ℕ) : Prop :=
  x .mark ≤ x .writer ∧ x .pending ≤ x .writer + x .sole + x .owner + x .bare ∧
  x .valid ≤ x .observer + x .owner + x .bare ∧ x .invalid ≤ x .owner ∧
  x .mark + x .pristine ≤ x .writer + x .owner ∧ x .completed ≤ x .owner

section Threads

variable {l : List (Place O)} {t : ℕ} {p : Place O}

theorem Place.joined (p : Place O) : Joined p.stakes := by
  cases p with
  | clear completed => cases completed <;> simp [Joined, stakes]
  | claim taker | take taker => cases taker <;> simp [Joined, stakes]
  | _ => simp [Joined, stakes]

theorem joined (l : List (Place O)) : Joined (stakes l) := by
  induction l with
  | nil => exact ⟨le_rfl, le_rfl, le_rfl, le_rfl, le_rfl, le_rfl⟩
  | cons p _ ih =>
    have hp := p.joined
    simp only [Joined, stakes, total_cons] at ih hp ⊢
    omega

theorem stakes_split (hp : l[t]? = some p) : stakes l = stakes (l.eraseIdx t) + p.stakes := by
  funext k
  exact total_eraseIdx _ hp

theorem stakes_move (hp : l[t]? = some p) (p' : Place O) (q : Option (Place O)) :
    stakes (l.set t p' ++ q.toList) =
      stakes (l.eraseIdx t) + p'.stakes + q.elim 0 Place.stakes := by
  funext k
  rw [stakes, total_append, total_set_eraseIdx _ p' hp]
  cases q with
  | none => rfl
  | some => exact congrArg _ (Nat.add_zero _)

end Threads

/-! ## The balance -/

/-- **The handles.**  The count is their number, and somebody has the slot itself from when the
count is zero until the slot is freed.  There is one writer; the affine observation, whoever has the
slot to himself, and the pool exclude one another and all readers. -/
def Held (c : Cell O) (x : Stake → ℕ) : Prop :=
  c.strong = c.entries + c.pooled + x .writer + x .observer + x .sole + x .owner + x .idle ∧
  (0 < c.strong → x .bare + c.freed.toNat = 0) ∧ (c.strong = 0 → x .bare + c.freed.toNat = 1) ∧
  x .writer + x .owner + x .bare + c.pooled ≤ 1 ∧ x .sole + x .owner + x .bare + c.pooled ≤ 1 ∧
  (0 < x .sole + x .owner + c.pooled → x .observer + c.entries = 0)

/-- **The bits.**  What threads know about them is so; and an outcome that is not disposed of is
marked as valid, or in somebody's hands. -/
def Marked (c : Cell O) (x : Stake → ℕ) (l : Life O) : Prop :=
  (0 < x .observer + c.entries → c.outcomeValid.toNat = c.completed.toNat) ∧
  (0 < x .valid → c.outcomeValid.toNat = 1) ∧ x .invalid + c.outcomeValid.toNat ≤ 1 ∧
  x .mark + x .pristine + c.completed.toNat ≤ 1 ∧ x .completed ≤ c.completed.toNat ∧
  l.writes = c.completed.toNat + x .mark ∧
  (c.freed.toNat = 0 → l.owes = c.outcomeValid.toNat + x .pending) ∧
  (0 < c.freed.toNat → l.owes = 0)

/-- **The log.**  The outcome of the epoch has come to `l`, and the memory has it while it is
held. -/
structure Recorded (log : List (Access O)) (epoch : ℕ) (outcome : Option (ℕ × O)) (l : Life O) :
    Prop where
  lives : Lives (log.filterMap (use epoch)) l
  memory : ∀ o, l = .held o → outcome = some (epoch, o)
  past : ∀ e < epoch, ∃ l', Lives (log.filterMap (use e)) l' ∧ l'.owes = 0
  future : ∀ e > epoch, log.filterMap (use e) = []
  initialised : .uninitialised ∉ log

/-- The slot and the log are in order. -/
structure Kept (w : World O) (l : Life O) : Prop where
  held : Held w.shared (stakes w.threads)
  marked : Marked w.shared (stakes w.threads) l
  recorded : Recorded w.shared.log w.shared.epoch w.shared.outcome l

namespace Recorded

variable {log : List (Access O)} {epoch : ℕ} {outcome outcome' : Option (ℕ × O)} {l l' : Life O}

theorem append {a : Access O} {u : Use O} (h : Recorded log epoch outcome l)
    (ha : ∀ e, a.use e = if epoch = e then some u else none)
    (hl : Lives (log.filterMap (use epoch) ++ [u]) l')
    (hmem : ∀ o, l' = .held o → outcome' = some (epoch, o)) :
    Recorded (log ++ [a]) epoch outcome' l' := by
  have hother : ∀ e, epoch ≠ e → (log ++ [a]).filterMap (use e) =
      log.filterMap (use e) := fun e he => by
    rw [filterMap_append, filterMap_cons_none ((ha e).trans (if_neg he)), filterMap_nil, append_nil]
  refine ⟨?_, hmem, fun e he => ?_, fun e he => ?_, fun hmem => ?_⟩
  · rwa [filterMap_append, filterMap_cons_some ((ha epoch).trans (if_pos rfl))]
  · rw [hother e he.ne']
    exact h.past e he
  · rw [hother e he.ne]
    exact h.future e he
  · rcases mem_append.mp hmem with hmem | hmem
    · exact h.initialised hmem
    · obtain rfl := mem_singleton.mp hmem
      exact some_ne_none u ((ha epoch).trans (if_pos rfl)).symm

theorem renew (h : Recorded log epoch outcome l) (howes : l.owes = 0) :
    Recorded log (epoch + 1) outcome .unwritten := by
  refine ⟨?_, fun o ho => (nomatch ho), fun e he => ?_, fun e he => ?_, h.initialised⟩
  · rw [h.future _ (Nat.lt_succ_self epoch)]
    exact .unwritten
  · rcases Nat.lt_succ_iff_lt_or_eq.mp he with he | rfl
    · exact h.past e he
    · exact ⟨l, h.lives, howes⟩
  · exact h.future e ((Nat.lt_succ_self epoch).trans he)

end Recorded

/-! ## Steps -/

theorem Cell.access_some {c : Cell O} {e : ℕ} {o : O} (h : c.outcome = some (e, o))
    (how : ℕ → O → Access O) : c.access how = { c with log := c.log ++ [how e o] } := by
  rw [Cell.access, h]

section Step

variable {w : World O} {l l' : Life O} {t n m : ℕ} {p p' : Place O} {q : Option (Place O)}
    {c : Cell O}

theorem Kept.move (h : Kept w l) (hp : w.threads[t]? = some p) (p' : Place O) (q : Option (Place O))
    (hrec : Recorded c.log c.epoch c.outcome l')
    (hheld : ∀ x, Joined x → Held w.shared (x + p.stakes) →
      Held c (x + p'.stakes + q.elim 0 Place.stakes) := by
        intro x hx h
        simp only [Observe.Custody.Joined, Observe.Custody.Held, Pi.add_apply, Pi.zero_apply,
          Observe.Custody.Cell.retain, Observe.Custody.Cell.access, Observe.Custody.Place.stakes,
          Option.elim, toNat_true, toNat_false] at hx h ⊢
        omega)
    (hmarked : ∀ x, Joined x → Held w.shared (x + p.stakes) →
      Marked w.shared (x + p.stakes) l → l.owes ≤ l.writes →
      Marked c (x + p'.stakes + q.elim 0 Place.stakes) l' := by
        intro x hx h hm hl
        simp only [Observe.Custody.Joined, Observe.Custody.Held, Observe.Custody.Marked,
          Pi.add_apply, Pi.zero_apply, Observe.Custody.Cell.retain, Observe.Custody.Cell.access,
          Observe.Custody.Place.stakes, Machine.Life.writes, Machine.Life.owes, Option.elim,
          toNat_true, toNat_false, implies_true] at hx h hm hl ⊢
        obtain ⟨_, _, _, _, _, _, _, _⟩ := hm
        and_intros <;> first | assumption | trivial | omega) :
    Kept ⟨c, w.threads.set t p' ++ q.toList⟩ l' := by
  obtain ⟨hh, hm, -⟩ := h
  rw [stakes_split hp] at hh hm
  have howes : l.owes ≤ l.writes := l.disposals_add_owes ▸ Nat.le_add_left _ _
  exact ⟨stakes_move hp p' q ▸ hheld _ (joined _) hh,
    stakes_move hp p' q ▸ hmarked _ (joined _) hh hm howes, hrec⟩

/-- Whoever knows the outcome to be valid, or has it in hand, finds it held. -/
theorem Kept.found (h : Kept w l) (hp : w.threads[t]? = some p)
    (hk : 0 < p.stakes .pending + p.stakes .valid) : ∃ o, l = .held o := by
  obtain ⟨hh, hm, -⟩ := h
  rw [stakes_split hp] at hh hm
  have hx := joined (w.threads.eraseIdx t)
  have hj := p.joined
  simp only [Held, Joined, Pi.add_apply] at hh hx hj
  have hfree : w.shared.freed.toNat = 0 := by
    clear hm
    omega
  obtain ⟨-, hvalid, -, -, -, -, howes, -⟩ := hm
  have howes := howes hfree
  simp only [Pi.add_apply] at hvalid howes
  cases l with
  | held o => exact ⟨o, rfl⟩
  | unwritten | disposed =>
    simp only [Life.owes] at howes
    omega

theorem Kept.unwritten {author : Author} {outcome : O} (h : Kept w l)
    (hp : w.threads[t]? = some (.store author outcome)) : l = .unwritten := by
  obtain ⟨hh, hm, -⟩ := h
  rw [stakes_split hp] at hh hm
  have hx := joined (w.threads.eraseIdx t)
  simp only [Held, Marked, Joined, Pi.add_apply, Place.stakes] at hh hm hx
  cases l with
  | unwritten => rfl
  | held | disposed =>
    simp only [Life.writes] at hm
    omega

theorem Kept.settled (h : Kept w l) (hp : w.threads[t]? = some .zero) : l.owes = 0 := by
  obtain ⟨hh, hm, -⟩ := h
  rw [stakes_split hp] at hh hm
  have hx := joined (w.threads.eraseIdx t)
  simp only [Held, Marked, Joined, Pi.add_apply, Place.stakes] at hh hm hx
  omega

theorem Kept.reads (h : Kept w l) (hp : w.threads[t]? = some p)
    (hk : 0 < p.stakes .pending + p.stakes .valid := by simp [Observe.Custody.Place.stakes]) :
    Recorded (w.shared.access .read).log w.shared.epoch w.shared.outcome l := by
  obtain ⟨o, rfl⟩ := h.found hp hk
  have hmem := h.recorded.memory o rfl
  rw [Cell.access_some hmem]
  exact h.recorded.append (fun e => rfl) h.recorded.lives.read h.recorded.memory

theorem Kept.disposes (h : Kept w l) (hp : w.threads[t]? = some p) (how : ℕ → O → Access O)
    (hhow : ∀ e e' o, (how e o).use e' = if e = e' then some (.dispose o) else none := by
      exact fun _ _ _ => rfl)
    (hk : 0 < p.stakes .pending + p.stakes .valid := by
      simp [Observe.Custody.Place.stakes]) :
    ∃ o, l = .held o ∧
      Recorded (w.shared.access how).log w.shared.epoch w.shared.outcome (.disposed o) := by
  obtain ⟨o, rfl⟩ := h.found hp hk
  rw [Cell.access_some (h.recorded.memory o rfl)]
  exact ⟨o, rfl, h.recorded.append (fun e => hhow _ e o) h.recorded.lives.dispose
    fun o ho => nomatch ho⟩

theorem Kept.quit (h : Kept w l) (hp : w.threads[t]? = some p)
    (hk : p.stakes .writer + p.stakes .observer + p.stakes .sole +
      p.stakes .owner = 1 ∧ p.stakes .bare + p.stakes .idle +
      p.stakes .pending + p.stakes .mark = 0 := by
        simp [Observe.Custody.Place.stakes]) :
    Kept ⟨w.shared, w.threads.set t .release ++ (none : Option (Place O)).toList⟩ l := by
  refine h.move hp _ _ h.recorded (fun x hx hh => ?_) fun x hx hh hm _ => ?_
  · simp only [Held, Pi.add_apply] at hh
    simp only [Held, Pi.add_apply, Place.stakes, Option.elim, Pi.zero_apply]
    omega
  · simp only [Marked, Pi.add_apply] at hm
    simp only [Marked, Pi.add_apply, Place.stakes, Option.elim, Pi.zero_apply]
    omega

theorem Kept.stay (h : Kept w l) (hp : w.threads[t]? = some p) (p' : Place O)
    (hs : p'.stakes = p.stakes := by funext k; cases k <;> rfl) :
    Kept ⟨w.shared, w.threads.set t p' ++ (none : Option (Place O)).toList⟩ l := by
  have hsame : stakes (w.threads.set t p' ++ (none : Option (Place O)).toList) =
      stakes w.threads := by
    rw [stakes_move hp, stakes_split hp, ← hs]
    rfl
  exact ⟨hsame ▸ h.held, hsame ▸ h.marked, h.recorded⟩

variable {i : Input O}

theorem Kept.space (h : Kept w l) (hp : w.threads[t]? = some .space)
    (hcode : space w.shared i = some (c, p', q)) :
    Kept ⟨c, w.threads.set t p' ++ q.toList⟩ l := by
  rw [Custody.space.eq_def] at hcode
  split at hcode
  iterate 4
    · split at hcode
      · cases hcode
      · cases hcode
        exact h.move hp _ _ h.recorded
  · cases hcode

theorem Kept.subject (h : Kept w l) (hp : w.threads[t]? = some p)
    (hcode : subject w.shared p i = some (c, p', q)) :
    ∃ l', Kept ⟨c, w.threads.set t p' ++ q.toList⟩ l' := by
  rw [Custody.subject.eq_def] at hcode
  split at hcode
  · cases hcode
    cases hv : w.shared.outcomeValid with
    | false =>
      have := toNat_eq_zero.mpr hv
      exact ⟨l, h.move hp .zero none h.recorded⟩
    | true =>
      have := toNat_eq_one.mpr hv
      cases hc : w.shared.completed with
      | false =>
        have := toNat_eq_zero.mpr hc
        exact ⟨l, h.move hp (.clear false) none h.recorded⟩
      | true =>
        have := toNat_eq_one.mpr hc
        exact ⟨l, h.move hp (.clear true) none h.recorded⟩
  · cases hcode
    exact ⟨l, h.quit hp⟩
  · next completed =>
    cases hcode
    cases completed with
    | false | true => exact ⟨l, h.move hp _ _ h.recorded⟩
  · cases hcode
    obtain ⟨o, rfl, hr⟩ := h.disposes hp (.reset false)
    exact ⟨_, h.move hp _ _ hr⟩
  · cases hcode
    obtain ⟨o, rfl, hr⟩ := h.disposes hp (.reset true)
    exact ⟨_, h.move hp _ _ hr⟩
  · cases hcode
    exact ⟨_, h.move hp _ _ (h.recorded.renew (h.settled hp))⟩
  · cases hcode
    exact ⟨l, h.quit hp⟩
  · cases hcode
    exact ⟨l, h.move hp _ _ h.recorded⟩
  · cases hcode
    exact ⟨l, h.quit hp⟩
  · cases hcode

theorem Kept.publish (h : Kept w l) (hp : w.threads[t]? = some p)
    (hcode : publish w.shared p i = some (c, p', q)) :
    ∃ l', Kept ⟨c, w.threads.set t p' ++ q.toList⟩ l' := by
  rw [Custody.publish.eq_def] at hcode
  split at hcode
  · cases hcode
    exact ⟨l, h.stay hp _⟩
  · next author outcome =>
    cases hcode
    cases hc : w.shared.completed with
    | false =>
      have := toNat_eq_zero.mpr hc
      exact ⟨l, h.move hp (.store author outcome) none h.recorded⟩
    | true =>
      cases author with
      | subject => exact ⟨l, h.stay hp (.author .subject)⟩
      | publisher => exact ⟨l, h.quit hp⟩
  · next author outcome =>
    cases hcode
    obtain rfl := h.unwritten hp
    exact ⟨.held outcome, h.move hp _ _ (h.recorded.append (fun e => rfl) (h.recorded.lives.write _)
      fun o ho => by rw [Life.held.inj ho])⟩
  · next author =>
    cases hcode
    cases author with
    | subject => exact ⟨l, h.move hp (.author .subject) none h.recorded⟩
    | publisher => exact ⟨l, h.move hp .release none h.recorded⟩
  · split at hcode
    · cases hcode
      exact ⟨l, h.quit hp⟩
    · cases hcode
      exact ⟨l, h.move hp _ _ h.recorded⟩
  · cases hcode
    by_cases hs : w.shared.strong = 1
    · rw [if_pos hs]
      exact ⟨l, h.move hp .push none h.recorded⟩
    · rw [if_neg hs]
      exact ⟨l, h.quit hp⟩
  · cases hcode
    exact ⟨l, h.quit hp⟩
  · cases hcode
    exact ⟨l, h.move hp _ _ h.recorded⟩
  · cases hcode
    exact ⟨l, h.quit hp⟩
  · cases hcode

/-! ## What the log is to say -/

def Access.disposes (epoch : ℕ) (a : Access O) : Bool := (a.use epoch).any Use.isDispose

def Access.writes (epoch : ℕ) (a : Access O) : Bool := (a.use epoch).any Use.isWrite

/-- Somebody still has the slot: it has handles, or it has been taken out of the last one. -/
def Attended (w : World O) : Prop :=
  0 < w.shared.strong ∨ ∃ p ∈ w.threads, 0 < p.stakes .bare

/-- What the log says about the outcome of every epoch of the slot. -/
structure OutcomeLinearity (w : World O) : Prop where
  /-- No memory is read, moved out or dropped that was not written. -/
  initialised : .uninitialised ∉ w.shared.log
  /-- An outcome is read and disposed of after it was written and before it is disposed of. -/
  ordered : ∀ before a after epoch u, w.shared.log = before ++ a :: after →
    a.use epoch = some u → u.isWrite = false →
    .wrote epoch u.value ∈ before ∧ ∀ b ∈ before, b.disposes epoch = false
  writtenOnce : ∀ epoch, w.shared.log.countP (writes epoch) ≤ 1
  disposedOnce : ∀ epoch, w.shared.log.countP (disposes epoch) ≤ 1
  /-- Nothing follows the disposal, be it a move or a destructor that returns or panics. -/
  final : ∀ before a after epoch, w.shared.log = before ++ a :: after → a.disposes epoch →
    ∀ b ∈ after, b.use epoch = none
  /-- An outcome that has not been disposed of is that of the present epoch, in the memory of a slot
  that somebody still has. -/
  owed : ∀ epoch outcome, .wrote epoch outcome ∈ w.shared.log →
    w.shared.log.countP (disposes epoch) = 0 →
    w.shared.epoch = epoch ∧ w.shared.outcome = some (epoch, outcome) ∧
      w.shared.freed = false ∧ Attended w

/-! ## Steps of the observations -/

theorem Kept.observe (h : Kept w l) (hp : w.threads[t]? = some p)
    (hcode : observe w.shared p i = some (c, p', q)) :
    ∃ l', Kept ⟨c, w.threads.set t p' ++ q.toList⟩ l' := by
  rw [Custody.observe.eq_def] at hcode
  split at hcode
  · cases hcode
    exact ⟨l, h.move hp _ _ h.recorded⟩
  · cases hcode
    cases hc : w.shared.completed with
    | false => exact ⟨l, h.stay hp .observation⟩
    | true =>
      have := toNat_eq_one.mpr hc
      exact ⟨l, h.move hp .read none h.recorded⟩
  · split at hcode
    · cases hcode
      exact ⟨l, h.move hp _ _ h.recorded⟩
    · cases hcode
      exact ⟨l, h.quit hp⟩
  iterate 3
    · cases hcode
      exact ⟨l, h.move hp _ _ (h.reads hp)⟩
  iterate 2
    · cases hcode
      exact ⟨l, h.stay hp _ (by funext k; cases w.shared.completed <;> cases k <;> rfl)⟩
  · next taker =>
    cases hcode
    cases hv : w.shared.outcomeValid with
    | false =>
      have := toNat_eq_zero.mpr hv
      cases taker with
      | affine => exact ⟨l, h.move hp .affine none h.recorded⟩
      | unwrapped => exact ⟨l, h.move hp .dying none h.recorded⟩
    | true =>
      have := toNat_eq_one.mpr hv
      cases taker with
      | affine => exact ⟨l, h.move hp (.take .affine) none h.recorded⟩
      | unwrapped => exact ⟨l, h.move hp (.take .unwrapped) none h.recorded⟩
  · next taker =>
    cases hcode
    cases taker with
    | affine =>
      obtain ⟨o, rfl, hr⟩ := h.disposes hp (.moved .affine)
      exact ⟨_, h.move hp .affine none hr⟩
    | unwrapped =>
      obtain ⟨o, rfl, hr⟩ := h.disposes hp (.moved .unwrapped)
      exact ⟨_, h.move hp .dying none hr⟩
  · cases hcode
    exact ⟨l, h.quit hp⟩
  · cases hcode
    exact ⟨l, h.quit hp⟩
  · cases hcode

theorem Kept.drop (h : Kept w l) (hp : w.threads[t]? = some p)
    (hcode : drop w.shared p i = some (c, p', q)) :
    ∃ l', Kept ⟨c, w.threads.set t p' ++ q.toList⟩ l' := by
  rw [Custody.drop.eq_def] at hcode
  split at hcode
  · cases hcode
    by_cases hs : w.shared.strong = 1
    · rw [if_pos hs]
      exact ⟨l, h.move hp .dying none h.recorded⟩
    · rw [if_neg hs]
      exact ⟨l, h.move hp .gone none h.recorded⟩
  · split at hcode
    · next hv =>
      have := toNat_eq_one.mpr hv
      cases hcode
      exact ⟨l, h.move hp _ _ h.recorded⟩
    · next hv =>
      have := toNat_eq_zero.mpr (eq_false_of_not_eq_true hv)
      cases hcode
      exact ⟨l, h.move hp _ _ h.recorded⟩
  · cases hcode
    obtain ⟨o, rfl, hr⟩ := h.disposes hp (.dropped false)
    exact ⟨_, h.move hp _ _ hr⟩
  · cases hcode
    obtain ⟨o, rfl, hr⟩ := h.disposes hp (.dropped true)
    exact ⟨_, h.move hp _ _ hr⟩
  · cases hcode

/-- **One step.** -/
theorem Kept.step (h : Kept w l) (hp : w.threads[t]? = some p)
    (hcode : act w.shared n m p i = some (c, p', q)) :
    ∃ l', Kept ⟨c, w.threads.set t p' ++ q.toList⟩ l' := by
  cases p with
  | space => exact ⟨l, h.space hp hcode⟩
  | load | clear | destroy | zero | enroll => exact h.subject hp hcode
  | author | complete | store | mark | recycle | push => exact h.publish hp hcode
  | observation | read | cloning | unwrapped | affine | claim | take => exact h.observe hp hcode
  | release | dying | dropping => exact h.drop hp hcode
  | gone => cases hcode

end Step

/-! ## Every run -/

theorem kept_start (origin : Origin) : Kept (World.start origin : World O) .unwritten := by
  refine ⟨?_, ?_, ?_⟩
  · obtain _ | ⟨_ | _⟩ := origin
    all_goals
      rw [Held]
      exact of_decide_eq_true rfl
  · obtain _ | ⟨_ | _⟩ := origin
    all_goals
      rw [Marked]
      exact of_decide_eq_true rfl
  · obtain _ | ⟨_ | _⟩ := origin
    all_goals
      exact ⟨.unwritten, fun o ho => (nomatch ho), fun e he => absurd he (Nat.not_lt_zero e),
        fun e _ => rfl, not_mem_nil⟩

theorem kept_run {origin : Origin} {tr}
    {w : World O} (h : WorldRun origin tr w) : ∃ l, Kept w l := by
  refine Pool.invariant h ⟨_, kept_start origin⟩ ?_ ?_
  · rintro tr w p - - ⟨⟩
  · rintro tr w t i p c p' q - ⟨l, hl⟩ hp hcode
    exact hl.step hp hcode

/-! ## Linearity -/

section Linearity

variable {w : World O} {l : Life O} {log before after : List (Access O)} {a : Access O} {e : ℕ}
  {u : Use O}

theorem uses_split (hlog : log = before ++ a :: after) (ha : a.use e = some u) :
    log.filterMap (use e) = before.filterMap (use e) ++ u :: after.filterMap (use e) := by
  rw [hlog, filterMap_append, filterMap_cons_some ha]

theorem countP_any (f : Use O → Bool) (log : List (Access O)) (e : ℕ) :
    log.countP (fun a => (a.use e).any f) = (log.filterMap (use e)).countP f := by
  rw [countP_filterMap]
  refine countP_congr fun a _ => ?_
  cases a.use e <;> rfl

theorem Access.use_write {outcome : O} (h : a.use e = some (.write outcome)) :
    a = .wrote e outcome := by
  cases a with
  | wrote =>
    obtain ⟨rfl, hu⟩ := ite_none_right_eq_some.mp h
    obtain rfl := Use.write.inj (some.inj hu)
    rfl
  | uninitialised => cases h
  | read | moved | reset | dropped =>
    obtain ⟨-, hu⟩ := ite_none_right_eq_some.mp h
    cases some.inj hu

/-- The outcome of every epoch has a linear life, and only that of the present one is owed. -/
theorem Kept.lives (h : Kept w l) (e : ℕ) : ∃ l', Lives (w.shared.log.filterMap (use e)) l' ∧
    (l'.owes = 0 ∨ w.shared.epoch = e ∧ l' = l) := by
  rcases Nat.lt_trichotomy e w.shared.epoch with he | rfl | he
  · obtain ⟨l', hl, howes⟩ := h.recorded.past e he
    exact ⟨l', hl, .inl howes⟩
  · exact ⟨l, h.recorded.lives, .inr ⟨rfl, rfl⟩⟩
  · exact ⟨.unwritten, h.recorded.future e he ▸ .unwritten, .inl rfl⟩

theorem Kept.attended {o : O} (h : Kept w (.held o)) : w.shared.freed = false ∧ Attended w := by
  have hh := h.held
  have hm := h.marked
  simp only [Held, Marked, Life.owes] at hh hm
  have hfree : w.shared.freed.toNat = 0 := by omega
  refine ⟨toNat_eq_zero.mp hfree, ?_⟩
  by_cases hs : 0 < w.shared.strong
  · exact .inl hs
  · refine .inr ?_
    by_contra hnone
    have hbare : stakes w.threads .bare = 0 := total_eq_zero fun p hp =>
      Nat.eq_zero_of_not_pos fun hk => hnone ⟨p, hp, hk⟩
    omega

/-- A use other than the write comes after the write and before every disposal. -/
theorem Kept.ordered (h : Kept w l) (hlog : w.shared.log = before ++ a :: after)
    (ha : a.use e = some u) (hu : u.isWrite = false) :
    .wrote e u.value ∈ before ∧ ∀ b ∈ before, b.disposes e = false := by
  obtain ⟨l', hl, -⟩ := h.lives e
  rw [uses_split hlog ha] at hl
  have hheld := hl.before hu
  obtain ⟨b, hb, huse⟩ := mem_filterMap.mp hheld.write_mem
  refine ⟨use_write huse ▸ hb, fun b hb => ?_⟩
  have hnone := (countP_any Use.isDispose before e).trans hheld.count_dispose
  exact eq_false_of_not_eq_true (countP_eq_zero.mp hnone b hb)

theorem Kept.final (h : Kept w l) (hlog : w.shared.log = before ++ a :: after) (ha : a.disposes e) :
    ∀ b ∈ after, b.use e = none := by
  intro b hb
  obtain ⟨mid, rest, rfl⟩ := append_of_mem hb
  by_contra huse
  obtain ⟨v, hv⟩ := ne_none_iff_exists'.mp huse
  have hlog' : w.shared.log = (before ++ a :: mid) ++ b :: rest := by
    rw [hlog, append_assoc, cons_append]
  have hmem : a ∈ before ++ a :: mid := mem_append_right _ (mem_cons_self ..)
  cases hw : v.isWrite with
  | false => exact absurd (ha.symm.trans ((h.ordered hlog' hv hw).2 a hmem)) Bool.noConfusion
  | true =>
    obtain ⟨l', hl, -⟩ := h.lives e
    rw [uses_split hlog' hv] at hl
    obtain ⟨x, hx⟩ : ∃ x, a.use e = some x := isSome_iff_exists.mp (isSome_of_any ha)
    have hmem' := mem_filterMap.mpr ⟨a, hmem, hx⟩
    rw [hl.first hw] at hmem'
    cases hmem'

/-- **Outcome cells are linear**, whatever the interleaving of publications, reads, affine polls,
`into_outcome`, recycling and drops. -/
theorem outcome_linearity {origin : Origin}
    {tr : List (Transition (World O) (Schedule (Place O) (Input O)))} (h : WorldRun origin tr w) :
    OutcomeLinearity w := by
  obtain ⟨l, hkept⟩ := kept_run h
  refine ⟨hkept.recorded.initialised, fun before a after e u hlog ha hu => hkept.ordered hlog ha hu,
    fun e => ?_, fun e => ?_, fun before a after e hlog ha b hb => hkept.final hlog ha b hb,
    fun e outcome hwrote hnone => ?_⟩
  · obtain ⟨l', hl, -⟩ := hkept.lives e
    exact (countP_any Use.isWrite _ e).trans hl.count_write ▸ l'.writes_le_one
  · obtain ⟨l', hl, -⟩ := hkept.lives e
    exact (countP_any Use.isDispose _ e).trans hl.count_dispose ▸ l'.disposals_le_one
  · obtain ⟨l', hl, hcur⟩ := hkept.lives e
    have hcount := (countP_any Use.isDispose _ e).trans hl.count_dispose
    rcases hl.of_write_mem (mem_filterMap.mpr ⟨_, hwrote, if_pos rfl⟩) with rfl | rfl
    · rcases hcur with howes | ⟨rfl, rfl⟩
      · cases howes
      · exact ⟨rfl, hkept.recorded.memory outcome rfl, hkept.attended⟩
    · cases hnone.symm.trans hcount

/-- A subject publishes, is observed and recycled, and the destructor of its outcome panics in
`reset`. -/
theorem outcome_linearity_of_panic :
    ∃ tr w, WorldRun (O := ℕ) .subject tr w ∧ OutcomeLinearity w ∧
      w.shared.log = [.wrote 0 5, .read 0 5, .read 0 5, .reset true 0 5] := by
  have h : (exec (step (O := ℕ)) (World.start .subject)
      [.run 1 .advance, .run 1 (.complete 5), .run 1 .advance, .run 1 .advance, .run 1 .advance,
        .run 0 .observe, .run 2 .look, .run 2 .advance, .run 2 .advance, .run 2 .drop,
        .run 2 .advance, .run 1 .drop, .run 3 .advance, .run 1 .advance, .run 1 .advance,
        .run 1 .advance, .run 0 .pop, .run 4 .advance, .run 4 .advance, .run 4 .panics,
        .run 4 .advance, .run 4 .advance]).map (fun p => p.2.shared.log) =
      some [.wrote 0 5, .read 0 5, .read 0 5, .reset true 0 5] := by decide +kernel
  obtain ⟨⟨tr, w⟩, hexec, heq⟩ := map_eq_some_iff.mp h
  exact ⟨tr, w, exec_run hexec, outcome_linearity (exec_run hexec), heq⟩

/-- A publication that nobody has looked at is in the log once. -/
example : (exec (step (O := ℕ)) (World.start .subject)
    ([.run 1 .advance, .run 1 (.complete 5)] ++ List.replicate 3 (.run 1 .advance))).map
      (fun p => p.2.shared.log) = some [.wrote 0 5] := by decide +kernel

end Linearity

end Observe.Custody
