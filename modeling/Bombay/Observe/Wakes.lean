import Bombay.Observe.Registry

/-!
# No completion is slept through

The publisher looks at `HAS_WAITER` once, when it sets `COMPLETED`, and empties the registry once,
under the mutex.  From then on the slot is *settled*.  Whoever registers has set `HAS_WAITER` before
it takes the mutex, and reads `COMPLETED` inside it, so a registration is in the registry before the
slot settles or does not happen.

The proof follows one registration.  Until the slot is settled it has an entry: an entry counts the
futures that own it, and the count never falls below the futures that carry the waker, which also
shows that no future gives back an ownership that nobody has.  The settling step moves every entry
to the publisher's list, and the publisher wakes all of it before it returns.  What enters the
registry afterwards is a thread that pushes itself, sees `COMPLETED` and takes itself out again
before it leaves the mutex.
-/

set_option autoImplicit false

namespace Observe

open Machine List Waiters

variable {W O : Type}

/-! ## Settling -/

/-- `COMPLETED` is set, and the publisher need not look at the registry any more. -/
def Settled (w : Pool (Slot W O) (Place W O)) : Prop :=
  w.shared.completed ∧ w.threads[0]? ≠ some .drain

@[simp] def Place.notices : Place W O → List (Waiter W)
  | .notify rest _ => rest
  | _ => []

/-- The waiters that the publisher has taken out and has yet to notify. -/
def notices (w : Pool (Slot W O) (Place W O)) : List (Waiter W) :=
  (w.threads[0]?.map Place.notices).getD []

/-- The wakers that have been woken or will be before `complete` returns. -/
def told (w : Pool (Slot W O) (Place W O)) : List W :=
  wakers (notices w) ++ w.shared.woken

namespace Place

/-- The waker that the future of this place has registered. -/
@[simp] def registration : Place W O → Option W
  | entry (.poll waker _) | update waker _ | announce (.poll waker _) | lock (.poll waker _)
  | recheck (.poll waker _) | install (.poll waker _) | last waker _ | take waker
  | future waker _ => waker
  | deregister waker => some waker
  | _ => none

/-- The places of a thread that has pushed itself and is still inside. -/
@[simp] def enlisted : Place W O → Bool
  | recheck (.wait _) | install (.wait _) => true
  | _ => false

@[simp] def installs : Place W O → Bool
  | install _ => true
  | _ => false

@[simp] def parks : Place W O → Bool
  | park _ => true
  | _ => false

variable [DecidableEq W]

/-- Whether the future of this place owns the entry of `a`. -/
def owns (a : W) (p : Place W O) : ℕ := if p.registration = some a then 1 else 0

end Place

/-- What the slot owes the thread at this place. -/
structure Owes (w : Pool (Slot W O) (Place W O)) (t : ℕ) (p : Place W O) : Prop where
  installs : p.installs → ¬Settled w
  enlisted : p.enlisted → .thread t ∈ w.shared.waiters
  parks : p.parks → .thread t ∈ w.shared.waiters ∨ .thread t ∈ notices w ∨ w.shared.tokens t
  lasting : ∀ a, p = .registered a → ¬Settled w → Waiters.Lasting a w.shared.waiters
  registered : ∀ a, p = .registered a → Settled w → a ∈ told w
  future : ∀ a, p.registration = some a → Settled w → a ∈ told w
  working : p ≠ .failed

variable [DecidableEq W]

/-- The handshake between the publisher and those who register. -/
structure Handshake (w : Pool (Slot W O) (Place W O)) : Prop where
  announced : w.shared.waiters ≠ [] → w.shared.hasWaiter
  owes : Each (Owes w) w.threads
  nodup : ¬Settled w → (wakers w.shared.waiters).Nodup
  owned : ¬Settled w → ∀ a, total (Place.owns a) w.threads ≤ owners a w.shared.waiters
  /-- What enters the registry of a settled slot is about to leave it. -/
  transient : Settled w → ∀ x ∈ w.shared.waiters,
    ∃ t timed, x = .thread t ∧ w.threads[t]? = some (.recheck (.wait timed))

section Observers

variable {w : Pool (Slot W O) (Place W O)} {s' : Slot W O} {t : ℕ} {p p' : Place W O}

omit [DecidableEq W] in
theorem settled_observer (p' : Place W O) (ht : t ≠ 0) (hc : s'.completed = w.shared.completed) :
    Settled ⟨s', w.threads.set t p'⟩ ↔ Settled w := by
  simp [Settled, hc, getElem?_set_ne ht]

omit [DecidableEq W] in
theorem notices_observer (ht : t ≠ 0) : notices ⟨s', w.threads.set t p'⟩ = notices w := by
  simp [notices, getElem?_set_ne ht]

omit [DecidableEq W] in
theorem told_observer (ht : t ≠ 0) (hw : s'.woken = w.shared.woken) :
    told ⟨s', w.threads.set t p'⟩ = told w := by
  simp [told, notices_observer ht, hw]

/-- What an observer may do to the registry. -/
structure Tends (w : Pool (Slot W O) (Place W O)) (t : ℕ) (p : Place W O) (s' : Slot W O)
    (p' : Place W O) : Prop where
  completed : s'.completed = w.shared.completed
  woken : s'.woken = w.shared.woken
  tokens : ∀ u, u ≠ t → s'.tokens u = w.shared.tokens u
  hasWaiter : s'.waiters ≠ [] → s'.hasWaiter
  threads : ∀ u, u ≠ t → .thread u ∈ w.shared.waiters → .thread u ∈ s'.waiters
  lasting : ∀ a, Waiters.Lasting a w.shared.waiters → Waiters.Lasting a s'.waiters
  nodup : ¬Settled w → (wakers s'.waiters).Nodup
  owned : ¬Settled w → ∀ a, owners a w.shared.waiters + p'.owns a ≤ owners a s'.waiters + p.owns a
  transient : Settled w → ∀ x ∈ s'.waiters,
    x ∈ w.shared.waiters ∧ x ≠ .thread t ∨ x = .thread t ∧ ∃ timed, p' = .recheck (.wait timed)

theorem Handshake.observe (hw : Handshake w) (hp : w.threads[t]? = some p) (ht : t ≠ 0)
    (htends : Tends w t p s' p') (howes : Owes ⟨s', w.threads.set t p'⟩ t p') :
    Handshake ⟨s', w.threads.set t p'⟩ := by
  have hsettled := settled_observer p' ht htends.completed
  have hlt := lt_of_get hp
  refine ⟨htends.hasWaiter, ?_, ?_, ?_, ?_⟩
  · refine each_set hw.owes hp (fun _ => howes) fun u r hu hr => ?_
    refine ⟨fun hi => hsettled.not.mpr (hr.installs hi), htends.threads u hu ∘ hr.enlisted,
      fun hpark => ?_, fun a ha hns => htends.lasting a (hr.lasting a ha (hsettled.not.mp hns)),
      fun a ha hs => ?_, fun a ha hs => ?_, hr.working⟩
    · rw [notices_observer ht]
      refine (hr.parks hpark).imp (htends.threads u hu) (Or.imp id fun htoken => ?_)
      exact (htends.tokens u hu).trans htoken
    · rw [told_observer ht htends.woken]
      exact hr.registered a ha (hsettled.mp hs)
    · rw [told_observer ht htends.woken]
      exact hr.future a ha (hsettled.mp hs)
  · exact fun hns => htends.nodup (hsettled.not.mp hns)
  · intro hns a
    have htotal := total_set (Place.owns a) p' hp
    have howned := hw.owned (hsettled.not.mp hns) a
    have hchange := htends.owned (hsettled.not.mp hns) a
    show total (Place.owns a) (w.threads.set t p') ≤ owners a s'.waiters
    omega
  · intro hs x hx
    rcases htends.transient (hsettled.mp hs) x hx with ⟨hmem, hne⟩ | ⟨rfl, timed, rfl⟩
    · obtain ⟨u, timed, rfl, hu⟩ := hw.transient (hsettled.mp hs) x hmem
      have hut : t ≠ u := fun h => hne (h ▸ rfl)
      exact ⟨u, timed, rfl, (getElem?_set_ne hut).trans hu⟩
    · exact ⟨t, timed, rfl, getElem?_set_self hlt⟩

/-- Places at which the slot owes a thread nothing but the wake-up of its future. -/
@[simp] def Place.plain : Place W O → Bool
  | .install _ | .recheck (.wait _) | .park _ | .registered _ | .failed => false
  | _ => true

omit [DecidableEq W] in
theorem owes_plain (hplain : p.plain)
    (hfuture : ∀ a, p.registration = some a → Settled w → a ∈ told w) : Owes w t p := by
  refine ⟨?_, ?_, ?_, ?_, ?_, hfuture, ?_⟩
  all_goals cases p <;> simp_all
  all_goals split <;> simp_all

omit [DecidableEq W] in
theorem owes_silent (hplain : p.plain) (hreg : p.registration = none) : Owes w t p := by
  refine owes_plain hplain fun a ha => ?_
  rw [hreg] at ha
  cases ha

theorem owns_none (a : W) (hreg : p.registration = none) : p.owns a = 0 := by
  rw [Place.owns, hreg]
  exact if_neg nofun

theorem Handshake.quiet (hw : Handshake w) (hp : w.threads[t]? = some p) (ht : t ≠ 0)
    (hwait : s'.waiters = w.shared.waiters) (hc : s'.completed = w.shared.completed)
    (hwoken : s'.woken = w.shared.woken) (htokens : ∀ u, u ≠ t → s'.tokens u = w.shared.tokens u)
    (hhas : w.shared.hasWaiter → s'.hasWaiter) (hreg : p'.registration = p.registration)
    (hlisted : Settled w → p.enlisted = false)
    (howes : Owes ⟨s', w.threads.set t p'⟩ t p') : Handshake ⟨s', w.threads.set t p'⟩ := by
  refine hw.observe hp ht ⟨hc, hwoken, htokens, ?_, ?_, ?_, ?_, ?_, ?_⟩ howes
  · rw [hwait]
    exact hhas ∘ hw.announced
  · rw [hwait]
    exact fun _ _ => id
  · rw [hwait]
    exact fun _ => id
  · rw [hwait]
    exact hw.nodup
  · intro _ a
    rw [hwait, Place.owns, Place.owns, hreg]
  · rw [hwait]
    intro hs x hx
    refine .inl ⟨hx, ?_⟩
    rintro rfl
    obtain ⟨u, timed, hu, hplace⟩ := hw.transient hs _ hx
    obtain rfl : t = u := by simpa using hu
    obtain rfl : p = .recheck (.wait timed) := Option.some.inj (hp.symm.trans hplace)
    exact absurd (hlisted hs) (by simp)

theorem Handshake.plain (hw : Handshake w) (hfit : Fits w.shared t p) (hp : w.threads[t]? = some p)
    (hrole : p.publishes = false) (hwait : s'.waiters = w.shared.waiters)
    (hc : s'.completed = w.shared.completed) (hwoken : s'.woken = w.shared.woken)
    (htokens : ∀ u, u ≠ t → s'.tokens u = w.shared.tokens u)
    (hhas : w.shared.hasWaiter → s'.hasWaiter) (hreg : p'.registration = p.registration)
    (hlisted : p.enlisted = false) (hplain : p'.plain) : Handshake ⟨s', w.threads.set t p'⟩ := by
  have ht : t ≠ 0 := hfit.role.not.mp (Bool.eq_false_iff.mp hrole)
  refine hw.quiet hp ht hwait hc hwoken htokens hhas hreg (fun _ => hlisted) ?_
  refine owes_plain hplain fun a ha hs => ?_
  rw [told_observer ht hwoken]
  exact (hw.owes t p hp).future a (hreg ▸ ha) ((settled_observer _ ht hc).mp hs)

theorem Handshake.owner (hw : Handshake w) (hp : w.threads[t]? = some p) (hs : ¬Settled w) {a : W}
    (ha : p.registration = some a) : 0 < owners a w.shared.waiters := by
  have hone : p.owns a = 1 := if_pos ha
  have hle := le_total (Place.owns a) hp
  have howned := hw.owned hs a
  omega

/-- Nobody else can see the registry of a settled slot with something in it. -/
theorem Handshake.vacant (hw : Handshake w) (hg : Ground w) (hs : Settled w)
    (hfree : w.shared.holder = none) : w.shared.waiters = [] := by
  refine eq_nil_iff_forall_not_mem.mpr fun x hx => ?_
  obtain ⟨u, timed, rfl, hu⟩ := hw.transient hs x hx
  have hheld := (hg.fits u _ hu).inside.mp rfl
  rw [hfree] at hheld
  cases hheld

theorem Handshake.migrated (hw : Handshake w) (hg : Ground w) {waker : Option W} {cx : W}
    (hp : w.threads[t]? = some (.install (.poll waker cx))) {waiters}
    (hm : Waiters.Moved waker cx w.shared.waiters waiters) :
    Handshake ⟨{ w.shared.unlock with waiters := waiters },
      w.threads.set t (.last (some cx) cx)⟩ := by
  have hfit := hg.fits t _ hp
  have ht : t ≠ 0 := hfit.role.not.mp (by simp)
  have hns : ¬Settled w := (hw.owes t _ hp).installs rfl
  refine hw.observe hp ht ⟨rfl, rfl, fun _ _ => rfl, fun _ => hfit.announced rfl,
    fun u _ => (hm.threads u).mpr, hm.lasting, fun _ => hm.nodup, fun _ a => ?_,
    fun hs => absurd hs hns⟩ (owes_plain rfl fun a _ hs => ?_)
  · have hcounts := hm.counts a
    simp only [Place.owns, Place.registration, Option.some.injEq]
    exact Nat.le_of_eq hcounts.symm
  · exact absurd ((settled_observer _ ht rfl).mp hs) hns

theorem Handshake.deregistered (hw : Handshake w) (hg : Ground w) {waker : W}
    (hp : w.threads[t]? = some (.deregister waker)) (hfree : w.shared.holder = none) :
    ∃ waiters, removeOwner waker w.shared.waiters = some waiters ∧
      Handshake ⟨{ w.shared with waiters := waiters }, w.threads.set t .dropped⟩ := by
  have ht : t ≠ 0 := (hg.fits t _ hp).role.not.mp (by simp)
  by_cases hs : Settled w
  · have hempty := hw.vacant hg hs hfree
    refine ⟨w.shared.waiters, by rw [hempty]; rfl, hw.observe hp ht ?_ (owes_silent rfl rfl)⟩
    exact ⟨rfl, rfl, fun _ _ => rfl, hw.announced, fun _ _ => id, fun _ => id, hw.nodup,
      fun hns => absurd hs hns, fun _ x hx => by simp [hempty] at hx⟩
  · have hpos := hw.owner hp hs (a := waker) rfl
    obtain ⟨waiters, hr, hleft⟩ := removeOwner_owned (hw.nodup hs) hpos
    refine ⟨waiters, hr, hw.observe hp ht ⟨rfl, rfl, fun _ _ => rfl, fun _ => ?_,
      fun u _ => (hleft.threads u).mpr, hleft.lasting, fun _ => hleft.entries.nodup (hw.nodup hs),
      fun _ a => ?_, fun h => absurd h hs⟩ (owes_silent rfl rfl)⟩
    · refine hw.announced fun hnil => ?_
      rw [hnil] at hpos
      cases hpos
    · rw [hleft.counts]
      by_cases ha : waker = a
      · subst ha
        simp [Place.owns]
        omega
      · simp [Place.owns, ha]

theorem Handshake.persisted (hw : Handshake w) (hg : Ground w) {waker : W}
    (hp : w.threads[t]? = some (.install (.register waker))) :
    Handshake ⟨{ w.shared.unlock with waiters := persist waker w.shared.waiters },
      w.threads.set t (.registered waker)⟩ := by
  have hfit := hg.fits t _ hp
  have ht : t ≠ 0 := hfit.role.not.mp (by simp)
  have hns : ¬Settled w := (hw.owes t _ hp).installs rfl
  refine hw.observe hp ht ⟨rfl, rfl, fun _ _ => rfl, fun _ => hfit.announced rfl,
    fun u _ => thread_mem_persist.mpr, fun a => lasting_persist, fun _ => ?_,
    fun _ a => ?_, fun hs => absurd hs hns⟩ ⟨by simp, by simp, by simp, ?_, ?_, by simp, by simp⟩
  · rw [wakers_persist]
    exact nodup_join waker (hw.nodup hns)
  · rw [owners_persist]
    simp [Place.owns]
  · rintro a ⟨⟩ -
    exact lasting_persist_self waker _
  · exact fun a _ hs => absurd ((settled_observer _ ht rfl).mp hs) hns

theorem Handshake.pushed (hw : Handshake w) (hg : Ground w) {timed : Bool}
    (hp : w.threads[t]? = some (.push timed)) :
    Handshake ⟨{ w.shared with waiters := pushThread t w.shared.waiters },
      w.threads.set t (.recheck (.wait timed))⟩ := by
  have hfit := hg.fits t _ hp
  have ht : t ≠ 0 := hfit.role.not.mp (by simp)
  refine hw.observe hp ht ⟨rfl, rfl, fun _ _ => rfl, fun _ => hfit.announced rfl,
    fun u _ hu => mem_pushThread.mpr (.inr hu), fun a ha => ?_, fun hns => ?_, fun _ a => ?_,
    fun _ x hx => ?_⟩ ⟨by simp, fun _ => mem_pushThread.mpr (.inl rfl), by simp, by simp,
      by simp, by simp, by simp⟩
  · obtain ⟨futures, hmem⟩ := ha
    exact ⟨futures, mem_pushThread.mpr (.inr hmem)⟩
  · rw [wakers_pushThread]
    exact hw.nodup hns
  · rw [owners_pushThread]
    simp [Place.owns]
  · by_cases h : x = .thread t
    · exact .inr ⟨h, timed, rfl⟩
    · exact .inl ⟨(mem_pushThread.mp hx).resolve_left h, h⟩

theorem Handshake.removed (hw : Handshake w) (hp : w.threads[t]? = some p) (ht : t ≠ 0)
    (result : Option O) (hwait : s'.waiters = removeThread t w.shared.waiters)
    (hc : s'.completed = w.shared.completed) (hwoken : s'.woken = w.shared.woken)
    (htokens : s'.tokens = w.shared.tokens) (hhas : s'.hasWaiter = w.shared.hasWaiter) :
    Handshake ⟨s', w.threads.set t (.thread result)⟩ := by
  refine hw.observe hp ht ⟨hc, hwoken, fun _ _ => htokens ▸ rfl, fun hne => ?_, fun u hu hmem => ?_,
    fun a ha => ?_, fun hns => ?_, fun _ a => ?_, fun _ x hx => ?_⟩ (owes_silent rfl rfl)
  · rw [hhas]
    refine hw.announced fun hnil => hne ?_
    rw [hwait, hnil]
    rfl
  · rw [hwait]
    exact mem_removeThread.mpr ⟨hmem, by simpa using hu⟩
  · obtain ⟨futures, hmem⟩ := ha
    rw [hwait]
    exact ⟨futures, mem_removeThread.mpr ⟨hmem, by simp⟩⟩
  · rw [hwait, wakers_removeThread]
    exact hw.nodup hns
  · rw [hwait, owners_removeThread]
    simp [Place.owns]
  · rw [hwait] at hx
    exact .inl (mem_removeThread.mp hx)

end Observers

/-! ## The publisher -/

section Publisher

variable {w : Pool (Slot W O) (Place W O)} {s' : Slot W O} {p p' : Place W O}

omit [DecidableEq W] in
theorem notices_publisher (hp : w.threads[0]? = some p) :
    notices ⟨s', w.threads.set 0 p'⟩ = p'.notices := by
  have hlt := lt_of_get hp
  simp [notices, getElem?_set_self hlt]

omit [DecidableEq W] in
theorem settled_publisher (hp : w.threads[0]? = some p) :
    Settled ⟨s', w.threads.set 0 p'⟩ ↔ s'.completed ∧ p' ≠ .drain := by
  have hlt := lt_of_get hp
  simp [Settled, getElem?_set_self hlt]

theorem Handshake.publish (hw : Handshake w) (hp : w.threads[0]? = some p)
    (hreg : p.registration = none) (hplain : p'.plain) (hreg' : p'.registration = none)
    (hlisted : p.enlisted = false) (hwait : s'.waiters = w.shared.waiters)
    (hhas : s'.hasWaiter = w.shared.hasWaiter)
    (hsettled : Settled ⟨s', w.threads.set 0 p'⟩ ↔ Settled w)
    (htold : ∀ a ∈ told w, a ∈ told ⟨s', w.threads.set 0 p'⟩)
    (hnotices : ∀ u, .thread u ∈ notices w →
      .thread u ∈ notices ⟨s', w.threads.set 0 p'⟩ ∨ s'.tokens u)
    (htokens : ∀ u, w.shared.tokens u → s'.tokens u) : Handshake ⟨s', w.threads.set 0 p'⟩ := by
  refine ⟨?_, ?_, ?_, ?_, ?_⟩
  · show s'.waiters ≠ [] → s'.hasWaiter
    rw [hwait, hhas]
    exact hw.announced
  · refine each_set hw.owes hp (fun _ => owes_silent hplain hreg') fun u r _ hr => ?_
    refine ⟨fun hi => hsettled.not.mpr (hr.installs hi), fun he => ?_, fun hpark => ?_,
      fun a ha hns => ?_, fun a ha hs => htold a (hr.registered a ha (hsettled.mp hs)),
      fun a ha hs => htold a (hr.future a ha (hsettled.mp hs)), hr.working⟩
    · show .thread u ∈ s'.waiters
      exact hwait ▸ hr.enlisted he
    · rcases hr.parks hpark with hmem | hmem | htoken
      · exact .inl (hwait ▸ hmem)
      · exact .inr (hnotices u hmem)
      · exact .inr (.inr (htokens u htoken))
    · show Waiters.Lasting a s'.waiters
      exact hwait ▸ hr.lasting a ha (hsettled.not.mp hns)
  · intro hns
    show (wakers s'.waiters).Nodup
    exact hwait ▸ hw.nodup (hsettled.not.mp hns)
  · intro hns a
    have htotal := total_set (Place.owns a) p' hp
    have howned := hw.owned (hsettled.not.mp hns) a
    show total (Place.owns a) (w.threads.set 0 p') ≤ owners a s'.waiters
    rw [hwait]
    rw [owns_none a hreg, owns_none a hreg'] at htotal
    omega
  · intro hs x hx
    obtain ⟨u, timed, rfl, hu⟩ := hw.transient (hsettled.mp hs) x (hwait ▸ hx)
    have hne : (0 : ℕ) ≠ u := by
      rintro rfl
      obtain rfl := Option.some.inj (hp.symm.trans hu)
      cases hlisted
    exact ⟨u, timed, rfl, (getElem?_set_ne hne).trans hu⟩

theorem Handshake.still (hw : Handshake w) (hp : w.threads[0]? = some p)
    (hreg : p.registration = none) (hplain : p'.plain) (hreg' : p'.registration = none)
    (hlisted : p.enlisted = false) (hnotices : p'.notices = p.notices)
    (hwait : s'.waiters = w.shared.waiters) (hhas : s'.hasWaiter = w.shared.hasWaiter)
    (hwoken : s'.woken = w.shared.woken) (htokens : s'.tokens = w.shared.tokens)
    (hsettled : s'.completed ∧ p' ≠ .drain ↔ w.shared.completed ∧ p ≠ .drain) :
    Handshake ⟨s', w.threads.set 0 p'⟩ := by
  have hsame : notices ⟨s', w.threads.set 0 p'⟩ = notices w := by
    rw [notices_publisher hp, hnotices, notices, hp]
    rfl
  refine hw.publish hp hreg hplain hreg' hlisted hwait hhas ?_ (fun a ha => ?_) (fun u hu => ?_)
    (fun u hu => htokens ▸ hu)
  · rw [settled_publisher hp, hsettled, Settled, hp]
    simp
  · simpa [told, hsame, hwoken] using ha
  · exact .inl (hsame ▸ hu)

/-- The step that settles the slot: nobody is inside the mutex, and whoever is in the registry is
taken over by the publisher. -/
theorem Handshake.settle (hw : Handshake w) (hp : w.threads[0]? = some p) (hns : ¬Settled w)
    (hs : Settled ⟨s', w.threads.set 0 p'⟩) (hplain : p'.plain) (hreg' : p'.registration = none)
    (houtside : ∀ (u : ℕ) r, w.threads[u]? = some r → r.inside = false) (hempty : s'.waiters = [])
    (hnotices : notices ⟨s', w.threads.set 0 p'⟩ = w.shared.waiters) (hbefore : p.notices = [])
    (htokens : s'.tokens = w.shared.tokens) : Handshake ⟨s', w.threads.set 0 p'⟩ := by
  have hnil : notices w = [] := by rw [notices, hp]; exact hbefore
  have htold : ∀ a ∈ wakers w.shared.waiters, a ∈ told ⟨s', w.threads.set 0 p'⟩ := by
    intro a ha
    rw [told, hnotices]
    exact mem_append_left _ ha
  refine ⟨fun h => absurd hempty h, fun u r hr => ?_, fun h => absurd hs h, fun h => absurd hs h,
    fun _ x hx => ?_⟩
  · by_cases hu : u = 0
    · subst hu
      have hlt := lt_of_get hp
      obtain rfl : p' = r := by simpa [getElem?_set_self hlt] using hr
      exact owes_silent hplain hreg'
    · rw [getElem?_set_ne (Ne.symm hu)] at hr
      have hout := houtside u r hr
      have howes := hw.owes u r hr
      refine ⟨fun hi => ?_, fun he => ?_, fun hpark => ?_, fun _ _ h => absurd hs h,
        fun a ha _ => htold a (howes.lasting a ha hns).mem, fun a ha _ => htold a ?_, howes.working⟩
      · cases r <;> simp_all
      · cases r <;> simp_all
      · rcases howes.parks hpark with hmem | hmem | htoken
        · exact .inr (.inl (hnotices ▸ hmem))
        · simp [hnil] at hmem
        · exact .inr (.inr (htokens ▸ htoken))
      · by_contra hmem
        have hpos := hw.owner hr hns ha
        rw [owners_eq_zero hmem] at hpos
        cases hpos
  · rw [hempty] at hx
    cases hx

end Publisher

/-! ## Every section keeps the handshake -/

section Step

variable {flavor : Flavor} {w : Pool (Slot W O) (Place W O)} {s' : Slot W O} {t : ℕ}
    {p p' : Place W O}
  {i : Input W O}

theorem Handshake.publisher (hw : Handshake w) (hg : Ground w) (hp : w.threads[0]? = some p)
    (hacts : Acts flavor w.shared 0 p i s' p') (hrole : p.publishes) :
    Handshake ⟨s', w.threads.set 0 p'⟩ := by
  have hfit := hg.fits 0 p hp
  have hold : Settled w ↔ w.shared.completed ∧ p ≠ .drain := by
    rw [Settled, hp]
    simp
  have hnotices : notices w = p.notices := by
    rw [notices, hp]
    rfl
  cases hacts
  case called outcome owner =>
    rcases owner with rfl | ⟨panicked, rfl⟩
    all_goals exact hw.still hp rfl rfl rfl rfl rfl rfl rfl rfl rfl (by simp)
  case twice | asserted | stored | notified =>
    exact hw.still hp rfl rfl rfl rfl rfl rfl rfl rfl rfl (by simp)
  case marked => exact hw.still hp rfl rfl rfl rfl rfl rfl rfl rfl rfl (by simp [hfit.before rfl])
  case markedAlone alone =>
    have hempty : w.shared.waiters = [] := by
      by_contra hne
      simp [hw.announced hne] at alone
    refine hw.settle hp ?_ ((settled_publisher hp).mpr (by simp)) rfl rfl
      (fun u r hr => ?_) hempty ?_
      rfl rfl
    · simp [hold, hfit.before rfl]
    · have hannounced := (hg.fits u r hr).announced
      cases r <;> simp_all
    · rw [notices_publisher hp, hempty]
      rfl
  case drained free =>
    refine hw.settle hp ?_ ((settled_publisher hp).mpr ?_) rfl rfl (fun u r hr => ?_) rfl
      (notices_publisher hp) rfl rfl
    · simp [hold]
    · exact ⟨hfit.after rfl, by simp⟩
    · have hinside := (hg.fits u r hr).inside
      rw [free] at hinside
      exact Bool.eq_false_iff.mpr fun h => by simpa using hinside.mp h
  case unparked id rest panicked =>
    refine hw.publish hp rfl rfl rfl rfl rfl rfl ?_ (fun a ha => ?_) (fun u hu => ?_)
      (fun u hu => ?_)
    · rw [settled_publisher hp, hold]
      simp
    · simpa [told, notices_publisher hp, hnotices] using ha
    · rw [notices_publisher hp]
      by_cases h : u = id
      · exact .inr (by simp [h])
      · exact .inl (by simpa [hnotices, h] using hu)
    · by_cases h : u = id
      · simp [h]
      · exact (Function.update_of_ne h ..).trans hu
  case woke waker ownership rest panicked panicked' hi =>
    refine hw.publish hp rfl rfl rfl rfl rfl rfl ?_ (fun a ha => ?_) (fun u hu => ?_)
      (fun u hu => hu)
    · rw [settled_publisher hp, hold]
      simp
    · simp only [told, notices_publisher hp, hnotices, Place.notices, Waiters.wakers_waker,
        cons_append, mem_cons, mem_append] at ha ⊢
      tauto
    · rw [notices_publisher hp]
      exact .inl (by simpa [hnotices] using hu)
  case unwritten missing reads => exact (hg.written.missing missing reads).elim
  all_goals cases hrole

theorem Handshake.step (hw : Handshake w) (hg : Ground w) (hp : w.threads[t]? = some p)
    (hacts : Acts flavor w.shared t p i s' p') : Handshake ⟨s', w.threads.set t p'⟩ := by
  have hfit := hg.fits t p hp
  cases hrole : p.publishes with
  | true =>
    obtain rfl : t = 0 := hfit.role.mp hrole
    exact hw.publisher hg hp hacts hrole
  | false =>
    have ht : t ≠ 0 := hfit.role.not.mp (Bool.eq_false_iff.mp hrole)
    cases hacts
    case called outcome owner => rcases owner with rfl | ⟨panicked, rfl⟩ <;> cases hrole
    case migrated waker cx waiters migrates =>
      have hns := (hw.owes t _ hp).installs rfl
      obtain ⟨waiters', hm, hmoved⟩ :=
        migrate_owned cx (hw.nodup hns) fun a ha => hw.owner hp hns ha
      obtain rfl := Option.some.inj (hm.symm.trans migrates)
      exact hw.migrated hg hp hmoved
    case migrateFailed waker cx fails =>
      have hns := (hw.owes t _ hp).installs rfl
      obtain ⟨waiters', hm, -⟩ :=
        migrate_owned cx (hw.nodup hns) fun a ha => hw.owner hp hns ha
      cases hm.symm.trans fails
    case deregistered waker waiters free removes =>
      obtain ⟨waiters', hr, hnext⟩ := hw.deregistered hg hp free
      obtain rfl := Option.some.inj (hr.symm.trans removes)
      exact hnext
    case deregisterFailed waker free fails =>
      obtain ⟨waiters', hr, -⟩ := hw.deregistered hg hp free
      cases hr.symm.trans fails
    case persisted waker => exact hw.persisted hg hp
    case pushed timed => exact hw.pushed hg hp
    case waitSeen timed outcome completed read =>
      exact hw.removed hp ht (some outcome) rfl rfl rfl rfl rfl
    case expired free => exact hw.removed hp ht none rfl rfl rfl rfl rfl
    case rechecked call pending =>
      have hns : ¬Settled w := fun hs => by simpa [pending] using hs.1
      have hns' := (settled_observer (.install call) ht rfl).not.mpr hns
      refine hw.quiet hp ht rfl rfl rfl (fun _ _ => rfl) id (by cases call <;> rfl)
        (fun hs => absurd hs hns) ⟨fun _ => hns', fun he => ?_, by simp, by simp, by simp,
          fun _ _ hs => absurd hs hns', by simp⟩
      exact (hw.owes t _ hp).enlisted (by cases call <;> simp_all)
    case released timed =>
      have hns := (hw.owes t _ hp).installs rfl
      exact hw.quiet hp ht rfl rfl rfl (fun _ _ => rfl) id rfl (fun hs => absurd hs hns)
        ⟨by simp, by simp, fun _ => .inl ((hw.owes t _ hp).enlisted rfl), by simp, by simp, by simp,
          by simp⟩
    case resumed timed token =>
      exact hw.plain hfit hp rfl rfl rfl rfl (fun u hu => Function.update_of_ne hu ..)
        id rfl rfl rfl
    case unwritten missing reads => exact (hg.written.missing missing reads).elim
    case twice | asserted | stored | marked | markedAlone | drained | notified | unparked | woke =>
      cases hrole
    case announced call =>
      exact hw.plain hfit hp rfl rfl rfl rfl (fun _ _ => rfl) (fun _ => rfl)
        (by cases call <;> rfl) rfl
        rfl
    all_goals exact hw.plain hfit hp rfl rfl rfl rfl (fun _ _ => rfl) id rfl rfl rfl

end Step

/-! ## Runs -/

section Runs

variable {flavor : Flavor} {tr : SlotHistory W O} {w : Pool (Slot W O) (Place W O)}

theorem handshake_start (flavor : Flavor) :
    Handshake (start flavor : Pool (Slot W O) (Place W O)) := by
  have hns : ¬Settled (start flavor : Pool (Slot W O) (Place W O)) := by
    simp [Settled, start, Slot.new]
  refine ⟨by simp [start, Slot.new], fun t p hp => ?_, by simp [start, Slot.new], fun _ a => ?_,
    fun hs => absurd hs hns⟩
  · have hmem := mem_of_getElem? hp
    cases flavor with
    | shared =>
      obtain rfl := mem_singleton.mp hmem
      exact owes_silent rfl rfl
    | affine =>
      rcases mem_pair.mp hmem with rfl | rfl
      all_goals exact owes_silent rfl rfl
  · cases flavor <;> simp [start, Place.owns]

theorem Handshake.join (hw : Handshake w) (hg : Ground w) {p : Place W O}
    (hjoins : p.joins flavor) :
    Handshake ⟨w.shared, w.threads ++ [p]⟩ := by
  obtain ⟨p0, hp0⟩ := hg.publisher
  have hpos := lt_of_get hp0
  have hfirst : (w.threads ++ [p])[0]? = w.threads[0]? := getElem?_append_left hpos
  have hsettled : Settled ⟨w.shared, w.threads ++ [p]⟩ ↔ Settled w := by
    rw [Settled, Settled, hfirst]
  have hnotices : notices ⟨w.shared, w.threads ++ [p]⟩ = notices w := by
    rw [notices, notices, hfirst]
  have hnew : p.plain ∧ p.registration = none := by
    rcases (joins_cases hjoins).2 with rfl | rfl | ⟨waker, rfl⟩ <;> exact ⟨rfl, rfl⟩
  refine ⟨hw.announced, each_append (q := some p) (fun t r hr => ?_) ?_, hw.nodup ∘ hsettled.not.mp,
    fun hns a => ?_, fun hs x hx => ?_⟩
  · have howes := hw.owes t r hr
    refine ⟨hsettled.not.mpr ∘ howes.installs, howes.enlisted, hnotices.symm ▸ howes.parks,
      fun a ha hns => howes.lasting a ha (hsettled.not.mp hns), fun a ha hs => ?_,
      fun a ha hs => ?_, howes.working⟩
    · rw [told, hnotices]
      exact howes.registered a ha (hsettled.mp hs)
    · rw [told, hnotices]
      exact howes.future a ha (hsettled.mp hs)
  · rintro r ⟨⟩
    exact owes_silent hnew.1 hnew.2
  · have howned := hw.owned (hsettled.not.mp hns) a
    simpa [owns_none a hnew.2] using howned
  · obtain ⟨t, timed, rfl, ht⟩ := hw.transient (hsettled.mp hs) x hx
    have hlt := lt_of_get ht
    exact ⟨t, timed, rfl, (getElem?_append_left hlt).trans ht⟩

theorem handshake_run (h : SlotRun flavor tr w) : Handshake w := by
  refine h.history (P := fun _ => Handshake) (handshake_start flavor) fun tr w a w' hrun
    hw hstep => ?_
  have hg := ground_run hrun
  rcases step_cases hstep with ⟨p, rfl, hjoins, rfl⟩ | ⟨t, i, p, s, p', rfl, hp, hacts, rfl⟩
  · exact hw.join hg hjoins
  · exact hw.step hg hp hacts

/-- `complete` has returned, or unwound with the panic of a waker. -/
def Returned (tr : SlotHistory W O) : Prop :=
  ∃ x ∈ tr, ∃ panicked, x.target.threads[0]? = some (.completed panicked)

theorem returned_of_completed (h : SlotRun flavor tr w) {panicked : Bool}
    (hw : w.threads[0]? = some (.completed panicked)) : Returned tr := by
  cases h with
  | refl => cases flavor <;> cases hw
  | snoc => exact ⟨_, mem_append_right _ (mem_singleton_self _), panicked, hw⟩

omit [DecidableEq W] in
theorem Returned.snoc {x} (h : Returned (tr ++ [x])) :
    Returned tr ∨ ∃ panicked, x.target.threads[0]? = some (.completed panicked) := by
  obtain ⟨y, hy, hret⟩ := h
  rcases mem_append.mp hy with hmem | hlast
  · exact .inl ⟨y, hmem, hret⟩
  · exact .inr (mem_singleton.mp hlast ▸ hret)

theorem Ground.settled_step (hg : Ground w) (hs : Settled w) (hn : notices w = []) {t : ℕ}
    {i : Input W O} {p p' : Place W O} {s' : Slot W O} (hp : w.threads[t]? = some p)
    (hacts : Acts flavor w.shared t p i s' p') :
    Settled ⟨s', w.threads.set t p'⟩ ∧ notices ⟨s', w.threads.set t p'⟩ = [] := by
  have hfit := hg.fits t p hp
  by_cases ht : t = 0
  · subst ht
    have hc : w.shared.completed := hs.1
    have hplace : p ≠ .drain := fun h => hs.2 (h ▸ hp)
    have hbefore := hfit.before
    have hrole : p.publishes := hfit.role.mpr rfl
    rw [notices, hp] at hn
    rw [settled_publisher hp, notices_publisher hp]
    cases hacts <;> simp_all
    case unwritten missing => exact absurd (hg.written.missing missing (.inl hc)) id
  · have hst := hacts.steady hg.written hfit (Ne.symm ht)
    refine ⟨⟨hst.completed_mono hs.1, ?_⟩, (notices_observer ht).trans hn⟩
    rw [getElem?_set_ne ht]
    exact hs.2

theorem settled_of_returned (h : SlotRun flavor tr w) (hr : Returned tr) :
    Settled w ∧ notices w = [] := by
  refine h.history ?_ ?_ hr
  · rintro ⟨x, hx, -⟩
    cases hx
  · intro tr w a w' hrun ih hstep hr
    have hg' := ground_run (hrun.snoc hstep)
    rcases hr.snoc with hearlier | ⟨panicked, hlast⟩
    · obtain ⟨hs, hn⟩ := ih hearlier
      have hg := ground_run hrun
      obtain ⟨p0, hp0⟩ := hg.publisher
      rcases step_cases hstep with ⟨p, rfl, hjoins, rfl⟩ | ⟨t, i, p, s, p', rfl, hp, hacts, rfl⟩
      · have hpos := lt_of_get hp0
        have hfirst : (w.threads ++ [p])[0]? = w.threads[0]? := getElem?_append_left hpos
        rw [Settled, notices, hfirst]
        exact ⟨hs, hn⟩
      · exact hg.settled_step hs hn hp hacts
    · refine ⟨⟨(hg'.fits 0 _ hlast).after rfl, ?_⟩, ?_⟩
      · rw [hlast]
        simp
      · rw [notices, hlast]
        rfl

end Runs

end Observe
