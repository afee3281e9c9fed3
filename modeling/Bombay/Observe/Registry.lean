import Bombay.Observe.Slot

/-!
# The registry and the word of a slot

The registry lists whom to tell.  An entry for a waker counts the futures that own it, so `wakers`,
`owners` and `Lasting` (left behind by `register_waker`) are all there is to know about it, and
there is a lemma for each of them and each operation.

The word says how far the publication is.  `Fits` collects what the place of a single thread says
about the word and the mutex; every section keeps it, for its own thread and for the others.
-/

set_option autoImplicit false

namespace Observe

open Machine List

variable {W O : Type}

/-! ## The registry -/

/-- The waker of an entry. -/
def Waiter.waker? : Waiter W → Option W
  | .thread _ => none
  | .waker w _ => some w

namespace Waiters

/-- The wakers of the registry, in order. -/
def wakers (waiters : List (Waiter W)) : List W := waiters.filterMap Waiter.waker?

@[simp] theorem wakers_nil : wakers ([] : List (Waiter W)) = [] := rfl

@[simp] theorem wakers_thread (id : ℕ) (waiters : List (Waiter W)) :
    wakers (.thread id :: waiters) = wakers waiters := rfl

@[simp] theorem wakers_waker (w : W) (ownership : WakerOwnership) (waiters : List (Waiter W)) :
    wakers (.waker w ownership :: waiters) = w :: wakers waiters := rfl

variable {a : W} {waiters : List (Waiter W)}

/-- An induction over the registry, one case for each kind of entry. -/
theorem byEntry {motive : List (Waiter W) → Prop} (nil : motive [])
    (thread : ∀ id rest, motive rest → motive (.thread id :: rest))
    (waker : ∀ w ownership rest, motive rest → motive (.waker w ownership :: rest))
    (waiters : List (Waiter W)) : motive waiters := by
  induction waiters with
  | nil => exact nil
  | cons x rest ih =>
    cases x with
    | thread id => exact thread id rest ih
    | waker w ownership => exact waker w ownership rest ih

theorem mem_wakers : a ∈ wakers waiters ↔ ∃ ownership, .waker a ownership ∈ waiters := by
  induction waiters with
  | nil => simp
  | cons x _ ih => cases x <;> simp [ih, exists_or]

/-- A waker that `register_waker` has left behind. -/
def Lasting (a : W) (waiters : List (Waiter W)) : Prop :=
  ∃ futures, .waker a (.persistent futures) ∈ waiters

theorem Lasting.mem (h : Lasting a waiters) : a ∈ wakers waiters := by
  obtain ⟨futures, hmem⟩ := h
  exact mem_wakers.mpr ⟨_, hmem⟩

variable {x : Waiter W}

theorem Lasting.cons (h : Lasting a waiters) : Lasting a (x :: waiters) := by
  obtain ⟨futures, hmem⟩ := h
  exact ⟨futures, mem_cons_of_mem _ hmem⟩

@[simp] theorem lasting_thread {id : ℕ} :
    Lasting a (.thread id :: waiters) ↔ Lasting a waiters := by
  simp [Lasting]

variable {w : W}

@[simp] theorem lasting_waker {ownership : WakerOwnership} :
    Lasting a (.waker w ownership :: waiters) ↔
      (a = w ∧ ∃ futures, ownership = .persistent futures) ∨ Lasting a waiters := by
  simp [Lasting, exists_or, eq_comm]

variable {t : ℕ}

theorem mem_pushThread : x ∈ pushThread t waiters ↔ x = .thread t ∨ x ∈ waiters := by
  unfold pushThread
  split
  · next last hlast =>
    split
    · next h =>
      subst h
      constructor
      · exact .inr
      · rintro (rfl | h)
        · exact mem_of_getLast? hlast
        · exact h
    · simp [or_comm]
  · simp [or_comm]

theorem wakers_pushThread (t : ℕ) (waiters : List (Waiter W)) :
    wakers (pushThread t waiters) = wakers waiters := by
  have happend : wakers (waiters ++ [.thread t]) = wakers waiters := by
    simp [wakers, filterMap_append, Waiter.waker?]
  unfold pushThread
  split
  · split
    · rfl
    · exact happend
  · exact happend

/-- Only the entries of the thread go. -/
theorem mem_removeThread : x ∈ removeThread t waiters ↔ x ∈ waiters ∧ x ≠ .thread t := by
  cases x <;> simp [removeThread]

theorem wakers_removeThread (t : ℕ) (waiters : List (Waiter W)) :
    wakers (removeThread t waiters) = wakers waiters := by
  induction waiters using byEntry with
  | nil => rfl
  | thread id _ ih =>
    by_cases h : id = t <;> simpa [removeThread, h] using ih
  | waker _ _ _ ih => simpa [removeThread] using ih

variable [DecidableEq W] {u : ℕ}

theorem thread_mem_join : .thread u ∈ join a waiters ↔ .thread u ∈ waiters := by
  induction waiters using byEntry with
  | nil => simp
  | thread _ _ ih => simp [ih]
  | waker w _ _ ih => by_cases h : w = a <;> simp [h, ih]

theorem thread_mem_persist : .thread u ∈ persist a waiters ↔ .thread u ∈ waiters := by
  induction waiters using byEntry with
  | nil => simp
  | thread _ _ ih => simp [ih]
  | waker w _ _ ih => by_cases h : w = a <;> simp [h, ih]

/-- How many futures own the entry of a waker. -/
def owners (a : W) : List (Waiter W) → ℕ
  | [] => 0
  | .thread _ :: rest => owners a rest
  | .waker w ownership :: rest => (if w = a then ownership.owners else 0) + owners a rest

@[simp] theorem owners_nil (a : W) : owners a [] = 0 := rfl

@[simp] theorem owners_thread (a : W) (id : ℕ) (waiters : List (Waiter W)) :
    owners a (.thread id :: waiters) = owners a waiters := rfl

@[simp] theorem owners_waker (a w : W) (ownership : WakerOwnership) (waiters : List (Waiter W)) :
    owners a (.waker w ownership :: waiters) =
      (if w = a then ownership.owners else 0) + owners a waiters := rfl

theorem owners_append (a : W) (waiters others : List (Waiter W)) :
    owners a (waiters ++ others) = owners a waiters + owners a others := by
  induction waiters with
  | nil => simp
  | cons x _ ih => cases x <;> simp [ih, Nat.add_assoc]

/-- Futures own only wakers that are listed. -/
theorem owners_eq_zero (h : a ∉ wakers waiters) : owners a waiters = 0 := by
  induction waiters using byEntry with
  | nil => rfl
  | thread _ _ ih => exact ih h
  | waker _ _ _ ih =>
    rw [wakers_waker, mem_cons, not_or] at h
    rw [owners_waker, if_neg (Ne.symm h.1), ih h.2]

theorem owners_pushThread (a : W) (t : ℕ) (waiters : List (Waiter W)) :
    owners a (pushThread t waiters) = owners a waiters := by
  unfold pushThread
  split
  · split <;> simp [owners_append]
  · simp [owners_append]

theorem owners_removeThread (a : W) (t : ℕ) (waiters : List (Waiter W)) :
    owners a (removeThread t waiters) = owners a waiters := by
  induction waiters using byEntry with
  | nil => rfl
  | thread id _ ih =>
    by_cases h : id = t <;> simpa [removeThread, h] using ih
  | waker _ _ _ ih => simpa [removeThread] using ih

/-! ### Joining an entry -/

/-- A waker has one entry, however often it joins. -/
theorem wakers_join (a : W) (waiters : List (Waiter W)) :
    wakers (join a waiters) = if a ∈ wakers waiters then wakers waiters else wakers waiters
    ++ [a] := by
  induction waiters using byEntry with
  | nil => rfl
  | thread _ waiters ih => exact ih
  | waker w _ waiters ih =>
    by_cases h : w = a
    · simp [h]
    · rw [join, if_neg h, wakers_waker, ih, wakers_waker]
      by_cases hmem : a ∈ wakers waiters <;> simp [hmem, Ne.symm h]

theorem nodup_join (a : W) (h : (wakers waiters).Nodup) : (wakers (join a waiters)).Nodup := by
  rw [wakers_join]
  split
  · exact h
  · next hmem =>
    refine nodup_append.mpr ⟨h, by simp, fun b hb c hc => ?_⟩
    obtain rfl := mem_singleton.mp hc
    exact ne_of_mem_of_not_mem hb hmem

/-- A future that joins is counted. -/
theorem owners_join (a b : W) (waiters : List (Waiter W)) :
    owners b (join a waiters) = owners b waiters + if a = b then 1 else 0 := by
  induction waiters using byEntry with
  | nil =>
    rw [join, owners_waker]
    split <;> rfl
  | thread _ _ ih => simpa using ih
  | waker w ownership _ ih =>
    by_cases h : w = a
    · subst h
      rw [join, if_pos rfl, owners_waker, owners_waker]
      split
      · cases ownership <;> simp [WakerOwnership.join, WakerOwnership.owners] <;> omega
      · rfl
    · rw [join, if_neg h, owners_waker, owners_waker, ih, Nat.add_assoc]

variable {b : W}

/-- Joining does not release what `register_waker` left. -/
theorem lasting_join (h : Lasting b waiters) : Lasting b (join a waiters) := by
  induction waiters using byEntry with
  | nil => obtain ⟨_, hmem⟩ := h; cases hmem
  | thread _ _ ih => simpa using ih (lasting_thread.mp h)
  | waker _ _ _ ih =>
    rw [join]
    rcases lasting_waker.mp h with ⟨rfl, futures, rfl⟩ | hrest
    · split
      · exact lasting_waker.mpr (.inl ⟨rfl, futures + 1, rfl⟩)
      · exact lasting_waker.mpr (.inl ⟨rfl, futures, rfl⟩)
    · split
      · exact hrest.cons
      · exact (ih hrest).cons

theorem wakers_persist (a : W) (waiters : List (Waiter W)) :
    wakers (persist a waiters) = wakers (join a waiters) := by
  induction waiters using byEntry with
  | nil => rfl
  | thread _ _ ih => simpa using ih
  | waker w _ _ ih => by_cases h : w = a <;> simp [h, ih]

/-- `register_waker` owns nothing for a future. -/
theorem owners_persist (a b : W) (waiters : List (Waiter W)) :
    owners b (persist a waiters) = owners b waiters := by
  induction waiters using byEntry with
  | nil => simp [WakerOwnership.owners]
  | thread _ _ ih => simpa using ih
  | waker w ownership _ ih =>
    by_cases h : w = a
    · cases ownership <;> simp [h, WakerOwnership.persist, WakerOwnership.owners]
    · simp [h, ih]

/-- The waker of `register_waker` stays. -/
theorem lasting_persist_self (a : W) (waiters : List (Waiter W)) :
    Lasting a (persist a waiters) := by
  induction waiters using byEntry with
  | nil => exact ⟨0, mem_singleton_self _⟩
  | thread _ _ ih => simpa using ih
  | waker _ ownership _ ih =>
    rw [persist]
    split
    · next h =>
      refine lasting_waker.mpr (.inl ⟨h.symm, ?_⟩)
      cases ownership with
      | futures n => exact ⟨n.1, rfl⟩
      | persistent n => exact ⟨n, rfl⟩
    · exact ih.cons

theorem lasting_persist (h : Lasting b waiters) : Lasting b (persist a waiters) := by
  induction waiters using byEntry with
  | nil => obtain ⟨_, hmem⟩ := h; cases hmem
  | thread _ _ ih => simpa using ih (lasting_thread.mp h)
  | waker _ _ _ ih =>
    rw [persist]
    rcases lasting_waker.mp h with ⟨rfl, futures, rfl⟩ | hrest
    · split
      all_goals exact lasting_waker.mpr (.inl ⟨rfl, futures, rfl⟩)
    · split
      · exact hrest.cons
      · exact (ih hrest).cons

/-! ### Leaving an entry -/

/-- One owner of the entry of `a` has left; nothing else has happened. -/
structure Left (a : W) (waiters waiters' : List (Waiter W)) : Prop where
  entries : (wakers waiters').Sublist (wakers waiters)
  counts : ∀ b, owners b waiters' = owners b waiters - if a = b then 1 else 0
  threads : ∀ u, .thread u ∈ waiters' ↔ .thread u ∈ waiters
  lasting : ∀ b, Lasting b waiters → Lasting b waiters'

variable {waiters' : List (Waiter W)}

theorem Left.thread (h : Left a waiters waiters')
    (id : ℕ) : Left a (.thread id :: waiters) (.thread id :: waiters') where
  entries := h.entries
  counts := h.counts
  threads u := by simp [h.threads u]
  lasting b hb := lasting_thread.mpr (h.lasting b (lasting_thread.mp hb))

theorem Left.waker (h : Left a waiters waiters') (ownership : WakerOwnership) (hne : w ≠ a) :
    Left a (.waker w ownership :: waiters) (.waker w ownership :: waiters') where
  entries := h.entries.cons_cons w
  counts b := by
    rw [owners_waker, owners_waker, h.counts b]
    by_cases hab : a = b
    · subst hab
      simp [hne]
    · simp [hab]
  threads u := by simp [h.threads u]
  lasting b hb := by
    rcases lasting_waker.mp hb with hhere | hrest
    · exact lasting_waker.mpr (.inl hhere)
    · exact (h.lasting b hrest).cons

theorem Left.last {n} (hn : ¬1 < n.1)
    (hnew : a ∉ wakers waiters) : Left a (.waker a (.futures n) :: waiters) waiters where
  entries := sublist_cons_self ..
  counts b := by
    have hpos := n.2
    by_cases hab : a = b
    · subst hab
      simp [WakerOwnership.owners, owners_eq_zero hnew]
      omega
    · simp [hab]
  threads u := by simp
  lasting b hb := by simpa using hb

theorem Left.counted {before after} (hcount : after.owners = before.owners - 1)
    (hpos : 0 < before.owners) (hlast : ∀ n, before = .persistent n → ∃ m, after = .persistent m) :
    Left a (.waker a before :: waiters) (.waker a after :: waiters) where
  entries := List.Sublist.refl _
  counts b := by
    rw [owners_waker, owners_waker]
    by_cases hab : a = b
    · subst hab
      simp only [if_true]
      omega
    · simp [hab]
  threads u := by simp
  lasting b hb := by
    rcases lasting_waker.mp hb with ⟨rfl, n, hn⟩ | hrest
    · exact lasting_waker.mpr (.inl ⟨rfl, hlast n hn⟩)
    · exact hrest.cons

/-- A future that owns an entry can leave. -/
theorem removeOwner_owned (hnodup : (wakers waiters).Nodup) (howned : 0 < owners a waiters) :
    ∃ waiters', removeOwner a waiters = some waiters' ∧ Left a waiters waiters' := by
  induction waiters using byEntry with
  | nil => cases howned
  | thread id _ ih =>
    obtain ⟨waiters', hr, hleft⟩ := ih hnodup howned
    exact ⟨_, by rw [removeOwner, hr, Option.map_some], hleft.thread id⟩
  | waker w ownership _ ih =>
    rw [wakers_waker, nodup_cons] at hnodup
    by_cases h : w = a
    · subst h
      have hzero := owners_eq_zero hnodup.1
      rw [owners_waker, if_pos rfl, hzero, Nat.add_zero] at howned
      rw [removeOwner, if_pos rfl]
      cases ownership with
      | futures n =>
        by_cases hn : 1 < n.1
        · refine ⟨_, by rw [WakerOwnership.leave, dif_pos hn], Left.counted rfl howned ?_⟩
          intro m hm
          cases hm
        · exact ⟨_, by rw [WakerOwnership.leave, dif_neg hn], Left.last hn hnodup.1⟩
      | persistent n =>
        cases n with
        | zero => cases howned
        | succ n => exact ⟨_, rfl, Left.counted rfl howned fun _ _ => ⟨n, rfl⟩⟩
    · rw [owners_waker, if_neg h, Nat.zero_add] at howned
      obtain ⟨waiters', hr, hleft⟩ := ih hnodup.2 howned
      exact ⟨_, by rw [removeOwner, if_neg h, hr, Option.map_some], hleft.waker ownership h⟩

/-- A migration by a future that owns what it gives up. -/
structure Moved (waker : Option W) (cx : W) (waiters waiters' : List (Waiter W)) : Prop where
  nodup : (wakers waiters').Nodup
  counts : ∀ b, owners b waiters' + (if waker = some b then 1 else 0) =
    owners b waiters + if cx = b then 1 else 0
  threads : ∀ u, .thread u ∈ waiters' ↔ .thread u ∈ waiters
  lasting : ∀ b, Lasting b waiters → Lasting b waiters'

/-- A future that owns its entry can change its waker. -/
theorem migrate_owned {waker : Option W} (cx : W)
    (hnodup : (wakers waiters).Nodup) (howned : ∀ a, waker = some a → 0 < owners a waiters) :
    ∃ waiters', migrate waiters waker cx = some waiters' ∧ Moved waker cx waiters waiters' := by
  cases waker with
  | none =>
    exact ⟨_, rfl, nodup_join cx hnodup, fun b => by simp [owners_join],
      fun u => thread_mem_join, fun b => lasting_join⟩
  | some previous =>
    by_cases h : previous = cx
    · subst h
      exact ⟨waiters, by simp [migrate], hnodup, fun b => by simp, fun u => Iff.rfl, fun b => id⟩
    · have hpos := howned previous rfl
      obtain ⟨waiters', hr, hleft⟩ := removeOwner_owned (a := previous) (nodup_join cx hnodup)
        (by rw [owners_join]; omega)
      refine ⟨waiters', by simp [migrate, h, hr], hleft.entries.nodup (nodup_join cx hnodup),
        fun b => ?_, fun u => (hleft.threads u).trans thread_mem_join,
        fun b hb => hleft.lasting b (lasting_join hb)⟩
      rw [hleft.counts, owners_join]
      by_cases hb : previous = b
      · subst hb
        simp only [if_true]
        omega
      · simp [hb]

end Waiters

/-! ## What a place says about the word -/

namespace Place

/-- The places of the publisher. -/
@[simp] def publishes : Place W O → Bool
  | publisher | complete _ | store _ | mark | drain | notify .. | completed _ | completedTwice =>
    true
  | _ => false

/-- The places inside the mutex. -/
@[simp] def inside : Place W O → Bool
  | push _ | recheck _ | install _ => true
  | _ => false

/-- The places behind the announcement of a waiter. -/
@[simp] def announced : Place W O → Bool
  | lock _ | push _ | recheck _ | install _ => true
  | _ => false

/-- The places before `COMPLETED` is set. -/
@[simp] def before : Place W O → Bool
  | publisher | store _ | mark => true
  | _ => false

/-- The places after `COMPLETED` is set. -/
@[simp] def after : Place W O → Bool
  | drain | notify .. | completed _ | completedTwice | take _ => true
  | _ => false

/-- The places of a poll that has done what it can to be woken. -/
@[simp] def Shown (s : Slot W O) : Place W O → Prop
  | last waker cx => s.completed ∨ waker = some cx
  | future waker (some .pending) => waker.isSome
  | _ => True

end Place

/-- What the place of a thread says about the word and the mutex. -/
structure Fits (s : Slot W O) (t : ℕ) (p : Place W O) : Prop where
  role : p.publishes ↔ t = 0
  inside : p.inside ↔ s.holder = some t
  announced : p.announced → s.hasWaiter
  before : p.before → s.completed = false
  after : p.after → s.completed
  stored : p = .mark → s.outcome.isSome
  shown : p.Shown s

/-- The word of a slot that has an outcome to show. -/
structure Written (s : Slot W O) : Prop where
  outcome : s.completed → s.outcome.isSome
  valid : s.outcomeValid → s.completed

section Fits

variable {flavor : Flavor} {s s' : Slot W O} {t : ℕ} {p p' : Place W O} {i : Input W O}

theorem Written.missing {s : Slot W O} (h : Written s) (missing : s.outcome = none)
    (reads : s.completed ∨ s.outcomeValid) : False := by
  have := h.outcome (reads.elim id h.valid)
  simp [missing] at this

variable [DecidableEq W]

/-- A section keeps the outcome written where the word says so. -/
theorem Acts.written (h : Acts flavor s t p i s' p') (hs : Written s) (hp : Fits s t p) :
    Written s' := by
  cases h
  case unwritten missing reads => exact (hs.missing missing reads).elim
  case stored => exact ⟨fun _ => rfl, hs.valid⟩
  case marked | markedAlone => exact ⟨fun _ => hp.stored rfl, fun _ => rfl⟩
  case took => exact ⟨hs.outcome, by simp⟩
  all_goals exact ⟨hs.outcome, hs.valid⟩

/-- A section leaves its own thread at a place that fits. -/
theorem Acts.fits (h : Acts flavor s t p i s' p') (hs : Written s) (hp : Fits s t p) :
    Fits s' t p' := by
  obtain ⟨role, inside, announced, before, after, stored, shown⟩ := hp
  cases h
  case unwritten missing reads => exact (hs.missing missing reads).elim
  case called outcome owner =>
    rcases owner with rfl | ⟨panicked, rfl⟩
    all_goals constructor <;> simp_all
  all_goals constructor <;> simp_all [Slot.unlock]

/-- What a section does to the word and the mutex, as the thread `u` sees it. -/
structure Steady (s : Slot W O) (p : Place W O) (s' : Slot W O) (u : ℕ) : Prop where
  completed : s'.completed = s.completed ∨ p = .mark ∧ s'.completed
  hasWaiter : s.hasWaiter → s'.hasWaiter
  outcome : s.outcome.isSome → s'.outcome.isSome
  holder : s'.holder = some u ↔ s.holder = some u

variable {u : ℕ}

/-- What a section may do to the word another thread sees. -/
theorem Acts.steady (h : Acts flavor s t p i s' p') (hs : Written s) (hp : Fits s t p)
    (hu : u ≠ t) : Steady s p s' u := by
  have inside := hp.inside
  have hne := hu.symm
  cases h
  case unwritten missing reads => exact (hs.missing missing reads).elim
  all_goals constructor <;> simp_all [Slot.unlock]

omit [DecidableEq W] in
theorem Steady.completed_mono (h : Steady s p s' u) (hs : s.completed) : s'.completed :=
  h.completed.elim (· ▸ hs) And.right

/-- A section leaves the other threads where they fit. -/
theorem Acts.fits_other {r : Place W O} (h : Acts flavor s t p i s' p') (hs : Written s)
    (hp : Fits s t p) (hr : Fits s u r) (hu : u ≠ t) : Fits s' u r := by
  have hst := h.steady hs hp hu
  refine ⟨hr.role, hr.inside.trans hst.holder.symm, hst.hasWaiter ∘ hr.announced, fun hb => ?_,
    hst.completed_mono ∘ hr.after, hst.outcome ∘ hr.stored, ?_⟩
  · rcases hst.completed with heq | ⟨rfl, -⟩
    · rw [heq]
      exact hr.before hb
    · -- only the publisher sets the bit, and it is the only publisher
      have ht : t = 0 := hp.role.mp rfl
      have hu0 : u = 0 := hr.role.mp (by cases r <;> simp_all)
      exact absurd (hu0.trans ht.symm) hu
  · have hshown := hr.shown
    unfold Place.Shown at hshown ⊢
    split
    · next waker cx => exact hshown.imp hst.completed_mono id
    · exact hshown
    · trivial

end Fits

/-! ## Runs keep the places fitting -/

/-- The word and all places fit together. -/
structure Ground (w : Pool (Slot W O) (Place W O)) : Prop where
  written : Written w.shared
  fits : Each (Fits w.shared) w.threads
  publisher : ∃ p, w.threads[0]? = some p
  holder : ∀ t, w.shared.holder = some t → t < w.threads.length

variable {p : Place W O}

theorem fits_new {s : Slot W O} {t : ℕ} (ht : t ≠ 0) (hholder : s.holder ≠ some t)
    (hp : p = .future none none ∨ p = .thread none ∨ ∃ waker, p = .entry (.register waker)) :
    Fits s t p := by
  rcases hp with rfl | rfl | ⟨waker, rfl⟩
  all_goals constructor <;> simp_all

variable {flavor : Flavor}

theorem joins_cases (h : p.joins flavor) : flavor = .shared ∧
    (p = .future none none ∨ p = .thread none ∨ ∃ waker, p = .entry (.register waker)) := by
  unfold Place.joins at h
  split at h
  · exact ⟨by simpa using h, .inl rfl⟩
  · exact ⟨by simpa using h, .inr (.inl rfl)⟩
  · exact ⟨by simpa using h, .inr (.inr ⟨_, rfl⟩)⟩
  · cases h

theorem ground_start (flavor : Flavor) : Ground (start flavor : Pool (Slot W O) (Place W O)) := by
  have hpublisher : Each (Fits (Slot.new : Slot W O)) [.publisher] := by
    refine each_append (q := some _) (each_nil _) ?_
    rintro p ⟨⟩
    constructor <;> simp [Slot.new]
  refine ⟨⟨by simp [start, Slot.new], by simp [start, Slot.new]⟩, ?_, ?_, by simp [start, Slot.new]⟩
  · cases flavor with
    | shared => exact hpublisher
    | affine =>
      refine each_append (q := some _) hpublisher ?_
      rintro p ⟨⟩
      exact fits_new Nat.one_ne_zero (by simp [Slot.new]) (.inl rfl)
  · cases flavor <;> exact ⟨_, rfl⟩

/-- **The word and the registry fit the threads** after every run. -/
theorem ground_run [DecidableEq W] {tr : SlotHistory W O} {w : Pool (Slot W O) (Place W O)}
    (h : SlotRun flavor tr w) : Ground w := by
  refine h.history (P := fun _ => Ground) (ground_start flavor) fun tr w a w' _ hw hstep => ?_
  rcases step_cases hstep with ⟨p, rfl, hjoins, rfl⟩ | ⟨t, i, p, s, p', rfl, hp, hacts, rfl⟩
  · obtain ⟨p0, hp0⟩ := hw.publisher
    have hpos := lt_of_get hp0
    refine ⟨hw.written, each_append (q := some p) hw.fits ?_, ⟨p0, ?_⟩, fun t ht => ?_⟩
    · rintro r ⟨⟩
      refine fits_new hpos.ne' (fun hh => ?_) (joins_cases hjoins).2
      exact Nat.lt_irrefl _ (hw.holder _ hh)
    · exact (getElem?_append_left hpos).trans hp0
    · have := hw.holder t ht
      rw [length_append]
      omega
  · have hfit := hw.fits t p hp
    have hlt := lt_of_get hp
    refine ⟨hacts.written hw.written hfit, each_set hw.fits hp (hacts.fits hw.written)
      fun u r hu hr => hacts.fits_other hw.written hfit hr hu, ?_, fun u hu => ?_⟩
    · exact ⟨_, getElem?_eq_getElem (by rw [length_set]; omega)⟩
    · rw [length_set]
      by_cases hut : u = t
      · rw [hut]
        exact hlt
      · exact hw.holder u ((hacts.steady hw.written hfit hut).holder.mp hu)

end Observe
