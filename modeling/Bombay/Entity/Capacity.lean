import Bombay.Machine.Linear
import Bombay.Machine.Pool

/-!
# The capacity of an entity family

`BombayEntityRuntime` bounds two things with a semaphore each: the entities that are resident, and
the hydrations that go on at the same time.  A resident permit is taken first, without waiting; it
goes through the activation into the lease, and from the lease into the retirement.  A hydration
permit is waited for, and lives for as long as `hydrate` is running.  Beside the permits there are
counters, which are separate words: `EntityMetricState` is told of each event in its turn.

A thread is one activation, and after it the lease it returned and the retirement of that lease.
The user's code and every await may end an activation; what is left of its locals is then dropped in
reverse order, one word at a time.  A waiter of the hydration semaphore may have been given its
permit before it runs again, and gives it back when it is dropped there.
-/

set_option autoImplicit false

namespace Entity.Capacity

open Machine

/-! ## The runtime -/

/-- `Semaphore::MAX_PERMITS`; a semaphore with more permits cannot be made. -/
def maxPermits : ℕ := 2 ^ 61 - 1

/-- `EntityCapacity`, with which a runtime could be made. -/
structure EntityCapacity where
  residents : ℕ
  concurrentHydrations : ℕ
  residents_pos : 0 < residents
  hydrations_pos : 0 < concurrentHydrations
  residents_le : residents ≤ maxPermits
  hydrations_le : concurrentHydrations ≤ maxPermits

/-- `fetch_add(1)` on a machine word, which wraps around at its end. -/
def fetchAdd (n : ℕ) : ℕ := if n = 2 ^ 64 - 1 then 0 else n + 1

/-- `fetch_sub(1)` on a machine word, which wraps around at zero. -/
def fetchSub (n : ℕ) : ℕ := if n = 0 then 2 ^ 64 - 1 else n - 1

/-- The counters and gauges. -/
structure EntityMetricState where
  activations : ℕ
  hydrationFailures : ℕ
  launchFailures : ℕ
  capacityRefusals : ℕ
  forcedRetirements : ℕ
  activeHydrations : ℕ
  peakHydrations : ℕ
  residents : ℕ

/-- The two kinds of permits. -/
inductive Permit
  | resident
  | hydration
  deriving DecidableEq

/-- What the activations share: the permits that are left in the two semaphores, the counters, and
the record of who took and gave back which permit. -/
structure Runtime where
  residents : ℕ
  hydrations : ℕ
  metrics : EntityMetricState
  log : List (ℕ × Permit × Use Unit)

/-- `bombay_entity_runtime`. -/
def Runtime.new (capacity : EntityCapacity) : Runtime where
  residents := capacity.residents
  hydrations := capacity.concurrentHydrations
  metrics := ⟨0, 0, 0, 0, 0, 0, 0, 0⟩
  log := []

/-! ## Places -/

/-- How a thread that had a resident permit ends. -/
inductive Exit
  | failed
  | retired
  deriving DecidableEq

/-- A place in `activate`, in the lease, and in `retire`. -/
inductive Place
  -- `activate`
  | activate
  | refuse
  | queued
  | granted
  | measure
  | peak (active : ℕ)
  | hydrating
  | hydrationFailed
  | endMeasurement (hydrated : Bool)
  | endHydration (hydrated : Bool)
  | allocate
  | launching
  | launchFailed
  | launched
  | succeeded
  -- the lease, and `retire`
  | leased
  | forced
  | request
  | joining
  | notified
  -- the end
  | release (exit : Exit)
  | refused
  | done (exit : Exit)

/-- What the surroundings contribute. -/
inductive Input
  | advance
  /-- `hydrate`, the allocation of an address or the launch reports an error. -/
  | fails
  /-- The future is dropped at an await, or the user's code that runs there panics. -/
  | drops
  | retire (forced : Bool)

/-! ## The code -/

/-- What a section leaves: the runtime, the thread, a new thread. -/
abbrev Section := Option (Runtime × Place × Option Place)

/-- Only the place changes. -/
def goto (s : Runtime) (p : Place) : Section := some (s, p, none)

namespace Runtime

variable (s : Runtime) (self : ℕ)

/-- A residency permit is taken. -/
def takeResident : Runtime :=
  { s with residents := s.residents - 1, log := s.log ++ [(self, .resident, .write ())] }

/-- It is given back. -/
def giveResident : Runtime :=
  { s with residents := s.residents + 1, log := s.log ++ [(self, .resident, .dispose ())] }

/-- A hydration permit is taken. -/
def takeHydration : Runtime :=
  { s with hydrations := s.hydrations - 1, log := s.log ++ [(self, .hydration, .write ())] }

/-- It is given back. -/
def giveHydration : Runtime :=
  { s with hydrations := s.hydrations + 1, log := s.log ++ [(self, .hydration, .dispose ())] }

/-- A counter is told of an event. -/
def tell (f : EntityMetricState → EntityMetricState) : Runtime := { s with metrics := f s.metrics }

end Runtime

/-- The code of `activate` and `retire`. -/
def act : Code Runtime Place Input := fun s self _ p i =>
  match p, i with
  -- `try_acquire_owned`
  | .activate, .advance =>
    if s.residents = 0 then goto s .refuse else goto (s.takeResident self) .queued
  | .refuse, .advance =>
    goto (s.tell fun m => { m with capacityRefusals := fetchAdd m.capacityRefusals }) .refused
  -- `acquire_owned().await`
  | .queued, .advance =>
    if s.hydrations = 0 then none else goto (s.takeHydration self) .granted
  | .queued, .drops => goto s (.release .failed)
  | .granted, .advance => goto s .measure
  | .granted, .drops => goto s (.endHydration false)
  -- `hydration_started`
  | .measure, .advance =>
    goto (s.tell fun m => { m with activeHydrations := fetchAdd m.activeHydrations })
      (.peak (fetchAdd s.metrics.activeHydrations))
  | .peak active, .advance =>
    goto (s.tell fun m => { m with peakHydrations := max m.peakHydrations active }) .hydrating
  -- `hydrate(..).await`
  | .hydrating, .advance => goto s (.endMeasurement true)
  | .hydrating, .fails => goto s .hydrationFailed
  | .hydrating, .drops => goto s (.endMeasurement false)
  | .hydrationFailed, .advance =>
    goto (s.tell fun m => { m with hydrationFailures := fetchAdd m.hydrationFailures })
      (.endMeasurement false)
  -- the measurement goes before the permit, here and when the locals are dropped
  | .endMeasurement hydrated, .advance =>
    goto (s.tell fun m => { m with activeHydrations := fetchSub m.activeHydrations })
      (.endHydration hydrated)
  | .endHydration hydrated, .advance =>
    goto (s.giveHydration self) (if hydrated then .allocate else .release .failed)
  | .allocate, .advance => goto s .launching
  | .allocate, .fails => goto s .launchFailed
  -- `launch_entity(..).await`
  | .launching, .advance => goto s .launched
  | .launching, .fails => goto s .launchFailed
  | .launching, .drops => goto s (.release .failed)
  | .launchFailed, .advance =>
    goto (s.tell fun m => { m with launchFailures := fetchAdd m.launchFailures }) (.release .failed)
  -- `acknowledge_binding`, whose assertion may fail, and `activation_succeeded`
  | .launched, .advance =>
    goto (s.tell fun m => { m with activations := fetchAdd m.activations }) .succeeded
  | .launched, .drops => goto s (.release .failed)
  | .succeeded, .advance =>
    goto (s.tell fun m => { m with residents := fetchAdd m.residents }) .leased
  -- `retire`
  | .leased, .retire forced => goto s (if forced then .forced else .request)
  | .forced, .advance =>
    goto (s.tell fun m => { m with forcedRetirements := fetchAdd m.forcedRetirements }) .request
  | .request, .advance => goto s .joining
  | .joining, .advance => goto s .notified
  | .notified, .advance =>
    goto (s.tell fun m => { m with residents := fetchSub m.residents }) (.release .retired)
  | .release exit, .advance => goto (s.giveResident self) (.done exit)
  | _, _ => none

/-- Activations may be called at any time. -/
def Place.joins : Place → Bool
  | activate => true
  | _ => false

/-- One section of one thread. -/
def step : Pool Runtime Place → Schedule Place Input → Option (Pool Runtime Place) :=
  Pool.step Place.joins act

/-- The runtime before anything runs. -/
def start (capacity : EntityCapacity) : Pool Runtime Place := ⟨.new capacity, []⟩

/-- A runtime of the given capacity comes to `w` by the history `tr`. -/
abbrev RuntimeRun (capacity : EntityCapacity)
    (tr : List (Transition (Pool Runtime Place) (Schedule Place Input))) (w : Pool Runtime Place) :
    Prop := Run step (start capacity) tr w

/-! ## What a thread holds -/

namespace Place

/-- An activation past the admission, with its permit. -/
def admitted : Place → ℕ
  | queued | granted | measure | peak _ | hydrating | hydrationFailed | endMeasurement _
  | endHydration _ | allocate | launching | launchFailed | launched | succeeded
  | release .failed => 1
  | _ => 0

/-- A lease that has not been retired, with its permit. -/
def unretired : Place → ℕ
  | leased | forced | request | joining | notified | release .retired => 1
  | _ => 0

/-- The hydration permits of a place. -/
def hydration : Place → ℕ
  | granted | measure | peak _ | hydrating | hydrationFailed | endMeasurement _ | endHydration _ =>
    1
  | _ => 0

/-- A hydration that the metrics count. -/
def measuring : Place → ℕ
  | peak _ | hydrating | hydrationFailed | endMeasurement _ => 1
  | _ => 0

/-- A call of `hydrate` that is in progress. -/
def hydrates : Place → ℕ
  | hydrating => 1
  | _ => 0

/-- A resident that the gauge counts. -/
def gauged : Place → ℕ
  | leased | forced | request | joining | notified => 1
  | _ => 0

/-- An activation that has succeeded: the lease was returned. -/
def successful : Place → ℕ
  | leased | forced | request | joining | notified | release .retired | done .retired => 1
  | _ => 0

/-- A retirement that the metrics have been told of. -/
def finished : Place → ℕ
  | release .retired | done .retired => 1
  | _ => 0

/-- The residency permits of a place. -/
def resident (p : Place) : ℕ := p.admitted + p.unretired

/-- Before the permit in question can have been taken. -/
def early : Permit → Place → Bool
  | .resident, activate | .resident, refuse | .resident, refused => true
  | .hydration, activate | .hydration, refuse | .hydration, refused | .hydration, queued => true
  | _, _ => false

/-- The permits of a kind. -/
def holds : Permit → Place → ℕ
  | .resident => resident
  | .hydration => hydration

end Place

/-- What matters of a place. -/
structure Weights where
  admitted : ℕ
  unretired : ℕ
  hydration : ℕ
  measuring : ℕ
  gauged : ℕ
  finished : ℕ

/-- All that a place counts for. -/
def Place.weights (p : Place) : Weights :=
  ⟨p.admitted, p.unretired, p.hydration, p.measuring, p.gauged, p.finished⟩

/-! ## What a section does -/

/-- The sections, by what they do to permits and gauges. -/
inductive Acts (s : Runtime) (self : ℕ) : Place → Runtime → Place → Prop
  | passed {s' : Runtime} (p p' : Place) (residents : s'.residents = s.residents)
      (hydrations : s'.hydrations = s.hydrations) (log : s'.log = s.log)
      (active : s'.metrics.activeHydrations = s.metrics.activeHydrations)
      (peak : s'.metrics.peakHydrations = s.metrics.peakHydrations)
      (gauge : s'.metrics.residents = s.metrics.residents) (same : p'.weights = p.weights)
      (early : ∀ k, p'.early k → p.early k) (local' : ∀ a, p' ≠ .peak a) : Acts s self p s' p'
  | tookResident (left : 0 < s.residents) : Acts s self .activate (s.takeResident self) .queued
  | tookHydration (left : 0 < s.hydrations) : Acts s self .queued (s.takeHydration self) .granted
  | measured :
      Acts s self .measure
        (s.tell fun m => { m with activeHydrations := fetchAdd m.activeHydrations })
        (.peak (fetchAdd s.metrics.activeHydrations))
  | peaked (active : ℕ) :
      Acts s self (.peak active)
        (s.tell fun m => { m with peakHydrations := max m.peakHydrations active }) .hydrating
  | ended (hydrated : Bool) :
      Acts s self (.endMeasurement hydrated)
        (s.tell fun m => { m with activeHydrations := fetchSub m.activeHydrations })
        (.endHydration hydrated)
  | gaveHydration (hydrated : Bool) (p' : Place) (next : p' = .allocate ∨ p' = .release .failed) :
      Acts s self (.endHydration hydrated) (s.giveHydration self) p'
  | counted :
      Acts s self .succeeded (s.tell fun m => { m with residents := fetchAdd m.residents }) .leased
  | discounted :
      Acts s self .notified (s.tell fun m => { m with residents := fetchSub m.residents })
        (.release .retired)
  | gaveResident (exit : Exit) : Acts s self (.release exit) (s.giveResident self) (.done exit)

variable {s s' : Runtime} {p p' : Place} {q : Option Place}

theorem goto_eq (h : goto s p = some (s', p', q)) : s' = s ∧ p' = p ∧ q = none := by
  obtain ⟨rfl, rfl, rfl⟩ : s = s' ∧ p = p' ∧ none = q := by simpa [goto] using h
  exact ⟨rfl, rfl, rfl⟩

theorem not_early {P : Permit → Prop} (hresident : p'.early .resident = false)
    (hhydration : p'.early .hydration = false) (k : Permit) (hk : p'.early k) : P k := by
  cases k with
  | resident => exact absurd (hresident.symm.trans hk) Bool.noConfusion
  | hydration => exact absurd (hhydration.symm.trans hk) Bool.noConfusion

/-- A counter that no bound depends on. -/
structure Harmless (f : EntityMetricState → EntityMetricState) : Prop where
  active : ∀ m, (f m).activeHydrations = m.activeHydrations
  peak : ∀ m, (f m).peakHydrations = m.peakHydrations
  gauge : ∀ m, (f m).residents = m.residents

variable {self : ℕ} {p₀ : Place}

theorem goto_tell
    {f : EntityMetricState → EntityMetricState} (h : goto (s.tell f) p₀ = some (s', p', q))
    (hf : Harmless f) (same : p₀.weights = p.weights) (early : ∀ k, p₀.early k → p.early k)
    (local' : ∀ a, p₀ ≠ .peak a) : Acts s self p s' p' ∧ q = none := by
  obtain ⟨rfl, rfl, rfl⟩ := goto_eq h
  exact ⟨.passed p p' rfl rfl rfl (hf.active _) (hf.peak _) (hf.gauge _) same early local', rfl⟩

theorem goto_pass (h : goto s p₀ = some (s', p', q)) (same : p₀.weights = p.weights)
    (early : ∀ k, p₀.early k → p.early k) (local' : ∀ a, p₀ ≠ .peak a) :
    Acts s self p s' p' ∧ q = none :=
  goto_tell (f := id) h ⟨fun _ => rfl, fun _ => rfl, fun _ => rfl⟩ same early local'

/-- **What a section is.** -/
theorem act_acts {n : ℕ} {i : Input}
    (h : act s self n p i = some (s', p', q)) : Acts s self p s' p' ∧ q = none := by
  unfold act at h
  split at h
  -- most sections touch no permit and no gauge
  all_goals try exact goto_pass h rfl (not_early rfl rfl) nofun
  all_goals try
    exact goto_tell h ⟨fun _ => rfl, fun _ => rfl, fun _ => rfl⟩ rfl (not_early rfl rfl) nofun
  -- the admission
  · split at h
    · exact goto_pass h rfl (fun k hk => by cases k <;> exact hk) nofun
    · next hleft =>
      obtain ⟨rfl, rfl, rfl⟩ := goto_eq h
      exact ⟨.tookResident (Nat.pos_of_ne_zero hleft), rfl⟩
  · exact goto_tell h ⟨fun _ => rfl, fun _ => rfl, fun _ => rfl⟩ rfl
      (fun k hk => by cases k <;> exact hk) nofun
  · split at h
    · cases h
    · next hleft =>
      obtain ⟨rfl, rfl, rfl⟩ := goto_eq h
      exact ⟨.tookHydration (Nat.pos_of_ne_zero hleft), rfl⟩
  -- the hydration
  · obtain ⟨rfl, rfl, rfl⟩ := goto_eq h
    exact ⟨.measured, rfl⟩
  · next active =>
    obtain ⟨rfl, rfl, rfl⟩ := goto_eq h
    exact ⟨.peaked active, rfl⟩
  · next hydrated =>
    obtain ⟨rfl, rfl, rfl⟩ := goto_eq h
    exact ⟨.ended hydrated, rfl⟩
  · next hydrated =>
    obtain ⟨rfl, rfl, rfl⟩ := goto_eq h
    refine ⟨.gaveHydration hydrated _ ?_, rfl⟩
    cases hydrated with
    | true => exact .inl rfl
    | false => exact .inr rfl
  · obtain ⟨rfl, rfl, rfl⟩ := goto_eq h
    exact ⟨.counted, rfl⟩
  -- the retirement
  · split at h
    all_goals exact goto_pass h rfl (not_early rfl rfl) nofun
  · obtain ⟨rfl, rfl, rfl⟩ := goto_eq h
    exact ⟨.discounted, rfl⟩
  · next exit =>
    obtain ⟨rfl, rfl, rfl⟩ := goto_eq h
    exact ⟨.gaveResident exit, rfl⟩
  · cases h

/-! ## The accounts -/

/-- What one thread did with the permits of one kind. -/
def uses (permit : Permit) (t : ℕ) (log : List (ℕ × Permit × Use Unit)) : List (Use Unit) :=
  log.filterMap fun e => if e.1 = t ∧ e.2.1 = permit then some e.2.2 else none

theorem uses_append_self (permit : Permit) (t : ℕ) (log : List (ℕ × Permit × Use Unit))
    (u : Use Unit) :
    uses permit t (log ++ [(t, permit, u)]) = uses permit t log ++ [u] := by
  simp [uses]

theorem uses_append_other {permit k : Permit} {t r : ℕ} (log : List (ℕ × Permit × Use Unit))
    (u : Use Unit) (hne : ¬(t = r ∧ permit = k)) :
    uses k r (log ++ [(t, permit, u)]) = uses k r log := by
  simp [uses, hne]

/-- The permits of a thread have a linear life: they are due exactly while it is at a place that
holds them. -/
def Tracks (log : List (ℕ × Permit × Use Unit)) (t : ℕ) (p : Place) : Prop :=
  ∀ k, ∃ l, Lives (uses k t log) l ∧ l.owes = p.holds k ∧ (p.early k → l = .unwritten)

/-- The permits that are left and those that are held, the gauges and what they count. -/
structure Accounted (capacity : EntityCapacity) (w : Pool Runtime Place) : Prop where
  residents : w.shared.residents + total Place.resident w.threads = capacity.residents
  hydrations : w.shared.hydrations + total Place.hydration w.threads = capacity.concurrentHydrations
  active : w.shared.metrics.activeHydrations = total Place.measuring w.threads
  gauge : w.shared.metrics.residents = total Place.gauged w.threads
  peak : w.shared.metrics.peakHydrations ≤ capacity.concurrentHydrations
  loaded : Each (fun _ p => ∀ a, p = .peak a → a ≤ capacity.concurrentHydrations) w.threads
  tracks : Each (Tracks w.shared.log) w.threads
  unborn : ∀ t k, w.threads.length ≤ t → uses k t w.shared.log = []

section Accounts

variable {capacity : EntityCapacity} {w : Pool Runtime Place} {t : ℕ} {p p' : Place} {s' : Runtime}

theorem Place.measuring_le (p : Place) : p.measuring ≤ p.hydration := by
  cases p with
  | _ => first | exact Nat.zero_le _ | exact Nat.le_refl 1

theorem Place.gauged_le (p : Place) : p.gauged ≤ p.resident := by
  cases p with
  | _ => first | exact Nat.zero_le _ | exact Nat.le_refl 1

theorem Accounted.measuring_le (h : Accounted capacity w) :
    total Place.measuring w.threads ≤ capacity.concurrentHydrations := by
  have := total_le (l := w.threads) fun p _ => p.measuring_le
  have := h.hydrations
  omega

theorem Accounted.gauged_le (h : Accounted capacity w) :
    total Place.gauged w.threads ≤ capacity.residents := by
  have := total_le (l := w.threads) fun p _ => p.gauged_le
  have := h.residents
  omega

theorem Accounted.measuring_lt (h : Accounted capacity w) (hp : w.threads[t]? = some p)
    (hholds : p.hydration = 1) (hnot : p.measuring = 0) :
    total Place.measuring w.threads < capacity.concurrentHydrations := by
  have := total_lt (fun p _ => p.measuring_le) hp (by omega)
  have := h.hydrations
  omega

theorem Accounted.gauged_lt (h : Accounted capacity w) (hp : w.threads[t]? = some p)
    (hholds : p.resident = 1) (hnot : p.gauged = 0) :
    total Place.gauged w.threads < capacity.residents := by
  have := total_lt (fun p _ => p.gauged_le) hp (by omega)
  have := h.residents
  omega

variable {n : ℕ}

theorem fetchAdd_of_lt (h : n < maxPermits) : fetchAdd n = n + 1 := by
  simp only [maxPermits] at h
  exact if_neg (by omega)

theorem fetchSub_of_pos (hpos : 0 < n) : fetchSub n = n - 1 := if_neg hpos.ne'

variable {log : List (ℕ × Permit × Use Unit)}

theorem Tracks.keep (h : Tracks log t p)
    (hholds : ∀ k, p'.holds k = p.holds k) (hearly : ∀ k, p'.early k → p.early k) :
    Tracks log t p' := by
  intro k
  obtain ⟨l, hl, howes, hunwritten⟩ := h k
  exact ⟨l, hl, (howes.trans (hholds k).symm), fun hk => hunwritten (hearly k hk)⟩

/-- One more use of a permit; the other one is used as before. -/
theorem Tracks.logs (h : Tracks log t p) {permit : Permit} {u : Use Unit} {l}
    (hl : Lives (uses permit t log ++ [u]) l) (hlate : p'.early permit = false)
    (hholds : l.owes = p'.holds permit)
    (hother : ∀ k, permit ≠ k → p'.holds k = p.holds k ∧ (p'.early k → p.early k)) :
    Tracks (log ++ [(t, permit, u)]) t p' := by
  intro k
  by_cases hk : permit = k
  · subst hk
    rw [uses_append_self]
    exact ⟨l, hl, hholds, fun hk => absurd (hlate.symm.trans hk) Bool.noConfusion⟩
  · obtain ⟨l, hl, howes, hunwritten⟩ := h k
    rw [uses_append_other _ _ fun hboth => hk hboth.2]
    exact ⟨l, hl, howes.trans (hother k hk).1.symm, fun he => hunwritten ((hother k hk).2 he)⟩

theorem Tracks.take (h : Tracks log t p) (permit : Permit)
    (hearly : p.early permit) (hlate : p'.early permit = false) (hholds : p'.holds permit = 1)
    (hother : ∀ k, permit ≠ k → p'.holds k = p.holds k ∧ (p'.early k → p.early k)) :
    Tracks (log ++ [(t, permit, .write ())]) t p' := by
  obtain ⟨l, hl, _, hunwritten⟩ := h permit
  obtain rfl := hunwritten hearly
  exact h.logs (hl.write ()) hlate hholds.symm hother

theorem Tracks.give (h : Tracks log t p) (permit : Permit)
    (hheld : p.holds permit = 1) (hlate : p'.early permit = false) (hholds : p'.holds permit = 0)
    (hother : ∀ k, permit ≠ k → p'.holds k = p.holds k ∧ (p'.early k → p.early k)) :
    Tracks (log ++ [(t, permit, .dispose ())]) t p' := by
  obtain ⟨l, hl, howes, _⟩ := h permit
  cases l with
  | held => exact h.logs hl.dispose hlate hholds.symm hother
  | unwritten | disposed => exact absurd (howes.trans hheld) Nat.zero_ne_one

theorem Tracks.other {r : ℕ} (h : Tracks log r p) (hne : r ≠ t)
    (permit : Permit) (u : Use Unit) : Tracks (log ++ [(t, permit, u)]) r p := by
  intro k
  rw [uses_append_other _ _ fun hboth => hne hboth.1.symm]
  exact h k

/-- One section keeps the accounts, given what it does to the four totals and the log. -/
theorem Accounted.move (h : Accounted capacity w) (hp : w.threads[t]? = some p)
    (hresidents : s'.residents + p'.resident = w.shared.residents + p.resident)
    (hhydrations : s'.hydrations + p'.hydration = w.shared.hydrations + p.hydration) (hactive :
      s'.metrics.activeHydrations + p.measuring = w.shared.metrics.activeHydrations + p'.measuring)
    (hgauge : s'.metrics.residents + p.gauged = w.shared.metrics.residents + p'.gauged)
    (hpeak : s'.metrics.peakHydrations ≤ capacity.concurrentHydrations)
    (hloaded : ∀ a, p' = .peak a → a ≤ capacity.concurrentHydrations)
    (hlog : s'.log = w.shared.log ∨ ∃ permit u, s'.log = w.shared.log ++ [(t, permit, u)])
    (htracks : Tracks w.shared.log t p → Tracks s'.log t p') :
    Accounted capacity ⟨s', w.threads.set t p'⟩ := by
  have hr := total_set Place.resident p' hp
  have hh := total_set Place.hydration p' hp
  have hm := total_set Place.measuring p' hp
  have hg := total_set Place.gauged p' hp
  have hlt := lt_of_get hp
  have hothers (u : ℕ) (r : Place) (hu : u ≠ t) (hr : Tracks w.shared.log u r) :
      Tracks s'.log u r := by
    rcases hlog with hlog | ⟨permit, use, hlog⟩
    · exact hlog ▸ hr
    · exact hlog ▸ hr.other hu permit use
  refine ⟨?_, ?_, ?_, ?_, hpeak, each_set h.loaded hp (fun _ => hloaded) (fun _ _ _ hr => hr),
    each_set h.tracks hp htracks hothers, fun u k hu => ?_⟩
  · have := h.residents
    dsimp only
    omega
  · have := h.hydrations
    dsimp only
    omega
  · have := h.active
    dsimp only
    omega
  · have := h.gauge
    dsimp only
    omega
  · have hu : w.threads.length ≤ u := by simpa using hu
    have hold := h.unborn u k hu
    rcases hlog with hlog | ⟨permit, use, hlog⟩
    · exact (congrArg (uses k u) hlog).trans hold
    · exact ((congrArg (uses k u) hlog).trans
        (uses_append_other _ _ fun hboth => absurd hboth.1 (by omega))).trans hold

theorem Accounted.step (h : Accounted capacity w) (hp : w.threads[t]? = some p)
    (ha : Acts w.shared t p s' p') : Accounted capacity ⟨s', w.threads.set t p'⟩ := by
  cases ha with
  | passed p p' residents hydrations log active peak gauge same early local' =>
    obtain ⟨h1, h2, h3, h4, h5, h6⟩ : p'.admitted = p.admitted ∧ p'.unretired = p.unretired ∧
        p'.hydration = p.hydration ∧ p'.measuring = p.measuring ∧ p'.gauged = p.gauged ∧
        p'.finished = p.finished := by
      simpa [Place.weights] using same
    have hresident : p'.resident = p.resident := by rw [Place.resident, Place.resident, h1, h2]
    refine h.move hp ?_ ?_ ?_ ?_ (peak ▸ h.peak) (fun a ha => absurd ha (local' a))
      (.inl log) fun htracks => log ▸ htracks.keep (fun k => ?_) early
    · rw [residents, hresident]
    · rw [hydrations, h3]
    · rw [active, h4]
    · rw [gauge, h5]
    · cases k with
      | resident => exact hresident
      | hydration => exact h3
  | tookResident =>
    refine h.move hp ?_ rfl rfl rfl h.peak nofun (.inr ⟨_, _, rfl⟩) fun htracks =>
      htracks.take .resident rfl rfl rfl fun k hk => ?_
    · simp only [Runtime.takeResident, Place.resident, Place.admitted, Place.unretired]
      omega
    · cases k with
      | resident => exact absurd rfl hk
      | hydration => exact ⟨rfl, fun _ => rfl⟩
  | tookHydration =>
    refine h.move hp rfl ?_ rfl rfl h.peak nofun (.inr ⟨_, _, rfl⟩) fun htracks =>
      htracks.take .hydration rfl rfl rfl fun k hk => ?_
    · simp only [Runtime.takeHydration, Place.hydration]
      omega
    · cases k with
      | resident => exact ⟨rfl, nofun⟩
      | hydration => exact absurd rfl hk
  | measured =>
    have hlt := h.measuring_lt hp rfl rfl
    have hadd : fetchAdd w.shared.metrics.activeHydrations =
        w.shared.metrics.activeHydrations + 1 :=
      fetchAdd_of_lt (h.active ▸ hlt.trans_le capacity.hydrations_le)
    refine h.move hp rfl rfl hadd rfl h.peak ?_ (.inl rfl) fun htracks =>
      htracks.keep (fun k => by cases k <;> rfl) (not_early rfl rfl)
    rintro _ ⟨⟩
    rw [hadd, h.active]
    exact hlt
  | peaked active =>
    refine h.move hp rfl rfl rfl rfl ?_ nofun (.inl rfl) fun htracks =>
      htracks.keep (fun k => by cases k <;> rfl) (not_early rfl rfl)
    exact max_le h.peak (h.loaded t _ hp active rfl)
  | ended =>
    refine h.move hp rfl rfl ?_ rfl h.peak nofun (.inl rfl) fun htracks =>
      htracks.keep (fun k => by cases k <;> rfl) (not_early rfl rfl)
    have hpos : 0 < w.shared.metrics.activeHydrations := h.active ▸ le_total Place.measuring hp
    simp only [Runtime.tell, Place.measuring, fetchSub_of_pos hpos]
    omega
  | gaveHydration _ _ next =>
    rcases next with rfl | rfl
    all_goals
      refine h.move hp rfl rfl rfl rfl h.peak nofun (.inr ⟨_, _, rfl⟩) fun htracks =>
        htracks.give .hydration rfl rfl rfl fun k hk => ?_
      cases k with
      | resident => exact ⟨rfl, nofun⟩
      | hydration => exact absurd rfl hk
  | counted =>
    have hlt := h.gauged_lt hp rfl rfl
    have hadd : fetchAdd w.shared.metrics.residents = w.shared.metrics.residents + 1 :=
      fetchAdd_of_lt (h.gauge ▸ hlt.trans_le capacity.residents_le)
    exact h.move hp rfl rfl rfl hadd h.peak nofun (.inl rfl) fun htracks =>
      htracks.keep (fun k => by cases k <;> rfl) (not_early rfl rfl)
  | discounted =>
    refine h.move hp rfl rfl rfl ?_ h.peak nofun (.inl rfl) fun htracks =>
      htracks.keep (fun k => by cases k <;> rfl) (not_early rfl rfl)
    have hpos : 0 < w.shared.metrics.residents := h.gauge ▸ le_total Place.gauged hp
    simp only [Runtime.tell, Place.gauged, fetchSub_of_pos hpos]
    omega
  | gaveResident exit =>
    refine h.move hp ?_ rfl rfl ?_ h.peak nofun (.inr ⟨_, _, rfl⟩) fun htracks =>
      htracks.give .resident ?_ rfl rfl fun k hk => ?_
    · cases exit <;> rfl
    · cases exit <;> rfl
    · cases exit <;> rfl
    · cases k with
      | resident => exact absurd rfl hk
      | hydration => exact ⟨rfl, nofun⟩

end Accounts

/-! ## Every run -/

/-- What holds of the capacity in every state. -/
structure CapacityBounds (capacity : EntityCapacity) (w : Pool Runtime Place) : Prop where
  /-- Activations past the admission, and leases that have not been retired. -/
  residents : total Place.admitted w.threads + total Place.unretired w.threads ≤ capacity.residents
  hydrations : total Place.hydrates w.threads ≤ capacity.concurrentHydrations
  peak : w.shared.metrics.peakHydrations ≤ capacity.concurrentHydrations
  gauge : w.shared.metrics.residents + total Place.finished w.threads =
    total Place.successful w.threads
  gauge_le : w.shared.metrics.residents ≤ capacity.residents
  /-- The gauges are positive whenever they are about to be lowered. -/
  lowered : (.notified ∈ w.threads → 0 < w.shared.metrics.residents) ∧
    ∀ hydrated, .endMeasurement hydrated ∈ w.threads → 0 < w.shared.metrics.activeHydrations
  /-- A thread takes a permit of a kind at most once, -/
  taken : ∀ t k, (uses k t w.shared.log).countP Use.isWrite ≤ 1
  /-- and has given it back exactly once when it does not hold it any more. -/
  given : ∀ (t : ℕ) p k, w.threads[t]? = some p →
    (uses k t w.shared.log).countP Use.isDispose + p.holds k =
      (uses k t w.shared.log).countP Use.isWrite
  /-- No permit is given back before it was taken. -/
  ordered : ∀ t k before after u, uses k t w.shared.log = before ++ u :: after → u.isWrite = false →
    .write () ∈ before
  /-- What is not held is in the semaphore. -/
  left : w.shared.residents + total Place.admitted w.threads + total Place.unretired w.threads =
      capacity.residents ∧
    w.shared.hydrations + total Place.hydration w.threads = capacity.concurrentHydrations

section Run

variable {capacity : EntityCapacity} {w : Pool Runtime Place}
  {tr : List (Transition (Pool Runtime Place) (Schedule Place Input))}

theorem accounted_start : Accounted capacity (start capacity) :=
  ⟨rfl, rfl, rfl, rfl, Nat.zero_le _, each_nil _, each_nil _, fun _ _ _ => rfl⟩

theorem Accounted.call (h : Accounted capacity w) :
    Accounted capacity ⟨w.shared, w.threads ++ [.activate]⟩ := by
  refine ⟨?_, ?_, ?_, ?_, h.peak, each_append (q := some Place.activate) h.loaded ?_,
    each_append (q := some Place.activate) h.tracks ?_, fun t k ht => ?_⟩
  · rw [total_append]
    exact h.residents
  · rw [total_append]
    exact h.hydrations
  · rw [total_append]
    exact h.active
  · rw [total_append]
    exact h.gauge
  · rintro _ ⟨⟩
    nofun
  · rintro _ ⟨⟩ k
    have hnone := h.unborn w.threads.length k (Nat.le_refl _)
    exact ⟨.unwritten, hnone ▸ .unwritten, by cases k <;> rfl, fun _ => rfl⟩
  · refine h.unborn t k ?_
    simp only [List.length_append, List.length_singleton] at ht
    omega

theorem accounted_run (h : RuntimeRun capacity tr w) : Accounted capacity w := by
  refine Pool.invariant h accounted_start ?_ ?_
  · intro tr w p _ hw hentry
    cases p with
    | activate => exact hw.call
    | _ => cases hentry
  · intro tr w t i p s p' q _ hw hp hcode
    obtain ⟨ha, rfl⟩ := act_acts hcode
    rw [Option.toList_none, List.append_nil]
    exact hw.step hp ha

/-- A thread that has joined has a linear record for each kind of permit; so has one that has
not. -/
theorem Accounted.lives (h : Accounted capacity w) (t : ℕ) (k : Permit) :
    ∃ l, Lives (uses k t w.shared.log) l := by
  by_cases ht : t < w.threads.length
  · obtain ⟨l, hl, -⟩ := h.tracks t _ (List.getElem?_eq_getElem ht) k
    exact ⟨l, hl⟩
  · exact ⟨.unwritten, h.unborn t k (Nat.le_of_not_lt ht) ▸ .unwritten⟩

/-- **The capacity bounds hold in every run**, whatever activations fail or are dropped, and
whatever leases are retired. -/
theorem capacity_bounds (h : RuntimeRun capacity tr w) : CapacityBounds capacity w := by
  have hw := accounted_run h
  have hresident : total Place.resident w.threads =
      total Place.admitted w.threads + 1 * total Place.unretired w.threads :=
    total_add_mul (fun p => by rw [Nat.one_mul]; rfl) w.threads
  have hsuccess : total Place.successful w.threads =
      total Place.gauged w.threads + 1 * total Place.finished w.threads := by
    refine total_add_mul (fun p => ?_) w.threads
    cases p with
    | release exit | done exit => cases exit <;> rfl
    | _ => rfl
  have hhydrates : total Place.hydrates w.threads ≤ total Place.measuring w.threads := by
    refine total_le fun p _ => ?_
    cases p with
    | _ => first | exact Nat.zero_le _ | exact Nat.le_refl 1
  have hr := hw.residents
  have hh := hw.hydrations
  refine ⟨by omega, hhydrates.trans hw.measuring_le, hw.peak, ?_, hw.gauge ▸ hw.gauged_le, ⟨?_, ?_⟩,
    fun t k => ?_, fun t p k hp => ?_, fun t k before after u hlog hu => ?_, by omega, hh⟩
  · rw [hw.gauge]
    omega
  · intro hmem
    obtain ⟨t, ht⟩ := List.mem_iff_getElem?.mp hmem
    exact hw.gauge ▸ le_total Place.gauged ht
  · intro hydrated hmem
    obtain ⟨t, ht⟩ := List.mem_iff_getElem?.mp hmem
    exact hw.active ▸ le_total Place.measuring ht
  · obtain ⟨l, hl⟩ := hw.lives t k
    exact hl.count_write ▸ l.writes_le_one
  · obtain ⟨l, hl, howes, -⟩ := hw.tracks t p hp k
    rw [hl.count_dispose, hl.count_write, ← howes]
    exact l.disposals_add_owes
  · obtain ⟨l, hl⟩ := hw.lives t k
    rw [hlog] at hl
    exact (hl.before hu).write_mem

/-- A family with one resident and one hydration: one activation is dropped while it hydrates, one
is refused, one succeeds and is retired. -/
theorem capacity_bounds_of_three :
    ∃ capacity tr w, RuntimeRun capacity tr w ∧ CapacityBounds capacity w ∧
      w.shared.metrics.capacityRefusals = 1 ∧ w.shared.metrics.activations = 1 ∧
      w.shared.metrics.residents = 0 ∧ w.shared.residents = 1 := by
  let capacity : EntityCapacity := ⟨1, 1, by decide, by decide, by decide, by decide⟩
  have h : ((exec step (start capacity)
      ([.call .activate, .call .activate, .call .activate] ++ List.replicate 5 (.run 0 .advance) ++
        [.run 1 .advance, .run 1 .advance, .run 0 .drops] ++ List.replicate 3 (.run 0 .advance) ++
        List.replicate 12 (.run 2 .advance) ++ [.run 2 (.retire true)] ++
        List.replicate 5 (.run 2 .advance))).map fun p =>
          (p.2.shared.metrics.capacityRefusals, p.2.shared.metrics.activations,
            p.2.shared.metrics.residents, p.2.shared.residents)) = some (1, 1, 0, 1) := by
    decide +kernel
  obtain ⟨⟨tr, w⟩, hexec, heq⟩ := Option.map_eq_some_iff.mp h
  obtain ⟨h1, h2, h3, h4⟩ : w.shared.metrics.capacityRefusals = 1 ∧
    w.shared.metrics.activations = 1 ∧
    w.shared.metrics.residents = 0 ∧ w.shared.residents = 1 := by simpa using heq
  exact ⟨capacity, tr, w, exec_run hexec, capacity_bounds (exec_run hexec), h1, h2, h3, h4⟩

end Run

end Entity.Capacity
