import Bombay.Local.ExactObservation

/-!
# The events of a relationship

A relationship has one token.  It lies in the registry first; the lock section that takes it from
there, of `cancel` or of the task, has it, and turns it into the one final event of the
relationship, or the retirement destroys it with the registry.  `weight` counts where the token may
lie, and no step makes a second one.
-/

set_option autoImplicit false

namespace Local

open Machine List Observing

variable {K T O : Type}

/-! ## Events -/

/-- The relationship an event is about. -/
def ObservationEvent.relationship : ObservationEvent K T O → Option ℕ
  | started r | cancelled r | cancelRejected r _ | stopped r _ _ => some r
  | observeRejected .. => none

/-- The event reports the stop of `r`. -/
def ObservationEvent.stops (r : ℕ) : ObservationEvent K T O → Bool
  | stopped u _ _ => u == r
  | _ => false

/-- The event ends `r`. -/
def ObservationEvent.ends (r : ℕ) : ObservationEvent K T O → Bool
  | cancelled u | stopped u _ _ => u == r
  | _ => false

/-! ## Relationships and their tasks -/

namespace Observing

variable {s : Observing K T O} {r u : ℕ} {R : Relationship K T O} {t : ObservationTask K T O}

/-- The identity a relationship was issued under. -/
def idOf (s : Observing K T O) (r : ℕ) : Option K := (s.relationships[r]?).map (·.id)

/-- The task of a relationship. -/
def taskOf (s : Observing K T O) (r : ℕ) : Option (ObservationTask K T O) :=
  (s.relationships[r]?).bind (·.task)

theorem task_eq (h : s.task r = some (R, t)) :
    s.relationships[r]? = some R ∧ s.taskOf r = some t := by
  unfold task at h
  split at h
  · cases h
  · next R' hR =>
    obtain ⟨t', ht, heq⟩ := Option.map_eq_some_iff.mp h
    cases heq
    exact ⟨hR, by rw [taskOf, hR]; exact ht⟩

theorem idOf_eq (h : s.relationships[r]? = some R) : s.idOf r = some R.id := by
  rw [idOf, h]
  rfl

@[simp] theorem idOf_setTask : (s.setTask r t).idOf u = s.idOf u := by
  simp only [idOf, setTask, getElem?_modify, Functor.map, Option.map_map]
  congr 1
  funext R
  dsimp only [Function.comp]
  split <;> rfl

@[simp] theorem idOf_sendRevocation : (s.sendRevocation r).idOf u = s.idOf u := by
  simp only [idOf, sendRevocation, getElem?_modify, Functor.map, Option.map_map]
  congr 1
  funext R
  dsimp only [Function.comp]
  split <;> rfl

theorem taskOf_setTask_ne (h : u ≠ r) : (s.setTask r t).taskOf u = s.taskOf u := by
  simp [taskOf, setTask, h.symm]

theorem taskOf_setTask_self (h : s.relationships[r]? = some R) :
    (s.setTask r t).taskOf r = some t := by
  simp [taskOf, setTask, h]

@[simp] theorem taskOf_sendRevocation : (s.sendRevocation r).taskOf u = s.taskOf u := by
  simp only [taskOf, sendRevocation, getElem?_modify, Functor.map]
  cases s.relationships[u]? with
  | none => rfl
  | some =>
    simp only [Option.map_some, Option.bind_some]
    split <;> rfl

theorem taskOf_append {s' : Observing K T O} (h : s'.relationships = s.relationships ++ [R])
    (hR : R.task = none) : s'.taskOf u = s.taskOf u := by
  simp only [taskOf, h, getElem?_append]
  split
  · rfl
  · next hu =>
    rw [getElem?_eq_none (Nat.le_of_not_lt hu), getElem?_singleton]
    split
    · exact hR
    · rfl

end Observing

/-! ## The owner and the tasks -/

/-- A request is being interpreted, or could be. -/
def Owner.interpreting : Owner K T → Bool
  | drained | withdraw _ | retired => false
  | _ => true

/-- The event that the owner injects next, and where it goes on. -/
def Owner.injects (O : Type) : Owner K T → Option (ObservationEvent K T O × Owner K T)
  | refuse id target => some (.observeRejected id target .idAlreadyBound, live)
  | start r => some (.started r, spawn r)
  | announce r => some (.cancelled r, live)
  | reject r => some (.cancelRejected r .notObserved, live)
  | _ => none

/-- The relationship the owner is busy with. -/
@[simp] def Owner.relationship : Owner K T → Option ℕ
  | start r | spawn r | revoke r | announce r | reject r => some r
  | _ => none

/-- The relationship that the owner revokes next, and where it goes on. -/
def Owner.revokes : Owner K T → Option (ℕ × Owner K T)
  | revoke r => some (r, announce r)
  | withdraw (r :: rs) => some (r, withdraw rs)
  | _ => none

variable {before after : Owner K T} {r : ℕ}

theorem Owner.revokes_cases
    (h : before.revokes = some (r, after)) : before = .revoke r ∧ after = .announce r ∨
      ∃ rs, before = .withdraw (r :: rs) ∧ after = .withdraw rs := by
  unfold Owner.revokes at h
  split at h
  · cases h
    exact .inl ⟨rfl, rfl⟩
  · cases h
    exact .inr ⟨_, rfl, rfl⟩
  · cases h

/-- The task has not decided anything yet. -/
def ObservationTask.undecided : ObservationTask K T O → Bool
  | waiting | polling _ => true
  | _ => false

/-- The task has won the registry. -/
def ObservationTask.isAcquired : ObservationTask K T O → Bool
  | acquired .. => true
  | _ => false

/-- The owner is cancelling `r`. -/
def Owner.cancels (r : ℕ) : Owner K T → ℕ
  | revoke u | announce u => if u = r then 1 else 0
  | _ => 0

variable {said : List (ObservationEvent K T O)}

theorem started_append {control}
    (h : ∃ rest, control.filter (·.relationship = some r) = .started r :: rest ∧ .started r ∉ rest)
    (hsaid : .started r ∉ said) : ∃ rest,
      (control ++ said).filter (·.relationship = some r) = .started r :: rest ∧
        .started r ∉ rest := by
  obtain ⟨rest, hfilter, hrest⟩ := h
  refine ⟨rest ++ said.filter (·.relationship = some r), ?_, ?_⟩
  · rw [filter_append, hfilter, cons_append]
  · rw [mem_append, not_or]
    exact ⟨hrest, fun hmem => hsaid (mem_of_mem_filter hmem)⟩

theorem countP_about {l : List (ObservationEvent K T O)} {u : ℕ} {p : ObservationEvent K T O → Bool}
    (h : ∀ event ∈ l, ∃ outcome instant, event = .stopped r outcome instant)
    (hp : ∀ outcome instant, p (.stopped r outcome instant) = (r == u)) :
    l.countP p = if r = u then l.length else 0 := by
  split
  · next heq =>
    rw [countP_eq_length]
    intro event hevent
    obtain ⟨outcome, instant, rfl⟩ := h event hevent
    rw [hp, heq]
    exact beq_self_eq_true u
  · next hne =>
    rw [countP_eq_zero]
    intro event hevent
    obtain ⟨outcome, instant, rfl⟩ := h event hevent
    simp [hp, hne]

/-- What the owner's injections have in common. -/
structure Says (before : Owner K T) (event : ObservationEvent K T O)
    (after : Owner K T) : Prop where
  relationship : event.relationship = before.relationship
  next : after = .live ∨ ∃ r, after = .spawn r ∧ before = .start r
  start : ∀ r, before = .start r ↔ event = .started r
  cancels : ∀ r, after.cancels r + (event.ends r).toNat ≤ before.cancels r

variable {event : ObservationEvent K T O}

theorem says_of_injects (h : before.injects O = some (event, after)) : Says before event after := by
  cases before <;> simp only [Owner.injects, Option.some.injEq, Prod.mk.injEq, reduceCtorEq] at h
  case announce r =>
    obtain ⟨rfl, rfl⟩ := h
    refine ⟨rfl, .inl rfl, by simp, fun u => ?_⟩
    simp only [Owner.cancels, ObservationEvent.ends, Nat.zero_add]
    rcases Decidable.eq_or_ne r u with heq | hne
    · simp [heq]
    · simp [hne]
  case start r =>
    obtain ⟨rfl, rfl⟩ := h
    exact ⟨rfl, .inr ⟨r, rfl, rfl⟩, by simp, fun _ => Nat.le_refl _⟩
  all_goals
    obtain ⟨rfl, rfl⟩ := h
    exact ⟨rfl, .inl rfl, by simp, fun _ => Nat.le_refl _⟩

variable [DecidableEq K] {s s' : Observing K T O}

/-! ## Where the token lies -/

/-- The relationship is the registered one of its id. -/
def Observing.registered (s : Observing K T O) (r : ℕ) : Bool :=
  (s.registry.bind fun m => (s.idOf r).bind fun id => m.lookup id) == some r

/-- A task holds a final event from the acquisition on, until it has handed it over. -/
def ObservationTask.holds : ObservationTask K T O → ℕ
  | acquired .. | returned (.error _) => 1
  | _ => 0

/-- What the task of a relationship holds. -/
def Observing.held (s : Observing K T O) (r : ℕ) : ℕ :=
  ((s.taskOf r).map ObservationTask.holds).getD 0

/-- Where the token of a relationship may lie. -/
def Observing.weight (s : Observing K T O) (r : ℕ) : ℕ :=
  (s.registered r).toNat + s.owner.cancels r + s.held r + s.control.countP (·.ends r) +
    s.joined.countP (·.ends r)

/-! ## The invariant -/

/-- **The invariant of the relationships.** -/
structure Exact (s : Observing K T O) : Prop where
  unfailed : s.failed = false
  live : s.owner.interpreting → s.registry.isSome ∧ s.closed = false
  /-- A registered relationship has the id it is registered under. -/
  bound : ∀ {m : AList fun _ : K => ℕ} {id : K} {r : ℕ}, s.registry = some m →
    m.lookup id = some r → s.idOf r = some id
  /-- The owner is at work on a relationship that exists. -/
  named : ∀ {r : ℕ}, s.owner.relationship = some r → (s.idOf r).isSome
  /-- A task is spawned last. -/
  spawned : ∀ {r : ℕ}, s.owner = .start r ∨ s.owner = .spawn r → s.taskOf r = none
  /-- What a task returns is about its own relationship. -/
  returned : ∀ {r : ℕ} {event : ObservationEvent K T O},
    s.taskOf r = some (.returned (.error event)) →
      ∃ outcome instant, event = .stopped r outcome instant
  joined : ∀ {event : ObservationEvent K T O}, event ∈ s.joined →
    ∃ r outcome instant, event = .stopped r outcome instant ∧ s.taskOf r = some .joined
  known : ∀ {event : ObservationEvent K T O} {r : ℕ}, event ∈ s.control →
    event.relationship = some r → (s.idOf r).isSome ∧ s.owner ≠ .start r
  /-- A relationship that exists has been started, unless that is what the owner does next. -/
  started : ∀ {r : ℕ}, (s.idOf r).isSome → s.owner ≠ .start r → ∃ rest,
    s.control.filter (·.relationship = some r) = .started r :: rest ∧ .started r ∉ rest
  affine : ∀ r, s.weight r ≤ 1

/-- Nothing was observed yet. -/
theorem exact_new : Exact (new : Observing K T O) := by
  constructor
  case bound =>
    intro m id r hm hr
    cases hm
    rw [AList.lookup_empty] at hr
    cases hr
  all_goals
    simp [new, weight, registered, held, idOf, taskOf, Owner.cancels]

/-! ### Registrations -/

/-- The registry has no more entries than before. -/
def Observing.Shrinks (s s' : Observing K T O) : Prop :=
  ∀ (m' : AList fun _ : K => ℕ) (id : K) (r : ℕ), s'.registry = some m' → m'.lookup id = some r →
    ∃ m, s.registry = some m ∧ m.lookup id = some r

theorem shrinks_of_eq (h : s'.registry = s.registry) : s.Shrinks s' :=
  fun _ _ _ hm' hr => ⟨_, h ▸ hm', hr⟩

theorem shrinks_of_none (h : s'.registry = none) : s.Shrinks s' := by
  intro m' id r hm'
  rw [h] at hm'
  cases hm'

variable {m : AList fun _ : K => ℕ} {id : K}

theorem shrinks_of_erase (hm : s.registry = some m)
    (h : s'.registry = some (m.erase id)) : s.Shrinks s' := by
  intro m' id' r hm' hr
  rw [h] at hm'
  cases hm'
  rcases Decidable.eq_or_ne id' id with rfl | hne
  · rw [AList.lookup_erase] at hr
    cases hr
  · exact ⟨m, hm, by rwa [AList.lookup_erase_ne hne] at hr⟩

/-- A registered relationship is the one its identity leads to. -/
theorem registered_iff : s.registered r ↔
    ∃ m id, s.registry = some m ∧ s.idOf r = some id ∧ m.lookup id = some r := by
  simp only [registered, beq_iff_eq, Option.bind_eq_some_iff, exists_and_left]

theorem Observing.Shrinks.registered (h : s.Shrinks s') (hid : s'.idOf r = s.idOf r)
    (hr : s'.registered r) : s.registered r := by
  obtain ⟨m', id, hm', hid', hlookup⟩ := registered_iff.mp hr
  obtain ⟨m, hm, hlookup⟩ := h m' id r hm' hlookup
  exact registered_iff.mpr ⟨m, id, hm, hid ▸ hid', hlookup⟩

theorem Observing.Shrinks.registered_le (h : s.Shrinks s') (hid : s'.idOf r = s.idOf r) :
    (s'.registered r).toNat ≤ (s.registered r).toNat := by
  cases hr : s'.registered r with
  | false => exact Nat.zero_le _
  | true => rw [h.registered hid hr]

/-- An identity that was taken is not registered. -/
theorem registered_erase (hid : s'.idOf r = some id)
    (h : s'.registry = some (m.erase id)) : s'.registered r = false := by
  simp [registered, h, hid, AList.lookup_erase]

/-! ### Steps of the owner -/

/-- A step that issues nothing and says nothing. -/
theorem Exact.moves (h : Exact s) (hid : ∀ u, s'.idOf u = s.idOf u)
    (htask : ∀ u, s'.taskOf u = s.taskOf u) (hctrl : s'.control = s.control)
    (hjoined : s'.joined = s.joined) (hfailed : s'.failed = s.failed) (hshrinks : s.Shrinks s')
    (hlive : s'.owner.interpreting → s'.registry.isSome ∧ s'.closed = false)
    (hnamed : ∀ r, s'.owner.relationship = some r → (s.idOf r).isSome)
    (hbefore : ∀ r, s.owner ≠ .start r) (hafter : ∀ r, s'.owner ≠ .start r ∧ s'.owner ≠ .spawn r)
    (hweight : ∀ r, (s'.registered r).toNat + s'.owner.cancels r ≤
      (s.registered r).toNat + s.owner.cancels r) : Exact s' := by
  refine ⟨hfailed.trans h.unfailed, hlive, ?_, ?_, ?_, ?_, ?_, ?_, ?_, ?_⟩
  · intro m id r hm hr
    obtain ⟨m, hm, hr⟩ := hshrinks m id r hm hr
    rw [hid]
    exact h.bound hm hr
  · intro r hr
    rw [hid]
    exact hnamed r hr
  · intro r howner
    exact (howner.elim (hafter r).1 (hafter r).2).elim
  · intro r event hr
    exact h.returned (htask r ▸ hr)
  · intro event hevent
    rw [hjoined] at hevent
    obtain ⟨r, outcome, instant, heq, hr⟩ := h.joined hevent
    exact ⟨r, outcome, instant, heq, (htask r).trans hr⟩
  · intro event r hevent hr
    rw [hctrl] at hevent
    rw [hid]
    exact ⟨(h.known hevent hr).1, (hafter r).1⟩
  · intro r hr _
    rw [hid] at hr
    rw [hctrl]
    exact h.started hr (hbefore r)
  · intro r
    have haffine := h.affine r
    have hle := hweight r
    unfold weight held at haffine ⊢
    rw [htask, hctrl, hjoined]
    omega

theorem Exact.weight_eq_zero (h : Exact s) (hnone : s.relationships[r]? = none) :
    s.weight r = 0 := by
  have hid : s.idOf r = none := by rw [idOf, hnone]; rfl
  have htask : s.taskOf r = none := by rw [taskOf, hnone]; rfl
  have hreg : s.registered r = false := by
    simp [registered, hid]
  have hcancels : s.owner.cancels r = 0 := by
    have hnamed := h.named (r := r)
    rw [hid] at hnamed
    cases howner : s.owner <;> simp_all [Owner.cancels]
  have hctrl : s.control.countP (·.ends r) = 0 := by
    rw [countP_eq_zero]
    intro event hevent hends
    have hknown := h.known (r := r) hevent
    rw [hid] at hknown
    cases event <;> simp_all [ObservationEvent.ends, ObservationEvent.relationship]
  have hjoined : s.joined.countP (·.ends r) = 0 := by
    rw [countP_eq_zero]
    intro event hevent hends
    obtain ⟨u, outcome, instant, rfl, hu⟩ := h.joined hevent
    simp only [ObservationEvent.ends, beq_iff_eq] at hends
    subst hends
    rw [htask] at hu
    cases hu
  simp [weight, held, hreg, hcancels, htask, hctrl, hjoined]

/-- The owner injects an event. -/
theorem Exact.speaks (h : Exact s) {owner : Owner K T}
    (hspoken : Says s.owner event owner) (hopen : s.registry.isSome ∧ s.closed = false) :
    Exact { s with control := s.control ++ [event], owner := owner } := by
  have hafter (r : ℕ) : owner ≠ .start r := by
    rcases hspoken.next with rfl | ⟨u, rfl, -⟩ <;> simp
  refine ⟨h.unfailed, fun _ => hopen, h.bound, ?_, ?_, h.returned, h.joined, ?_, ?_, ?_⟩
  · intro r hr
    rcases hspoken.next with rfl | ⟨u, rfl, hu⟩
    · cases hr
    · cases hr
      exact h.named (by rw [hu]; rfl)
  · intro r howner
    rcases hspoken.next with rfl | ⟨u, rfl, hu⟩
    · simp at howner
    · obtain rfl : u = r := by simpa using howner
      exact h.spawned (.inl hu)
  · intro e r he hr
    refine ⟨?_, hafter r⟩
    rcases mem_append.mp he with he | he
    · exact (h.known he hr).1
    · cases mem_singleton.mp he
      exact h.named (hspoken.relationship.symm.trans hr)
  · intro r hr _
    by_cases hstart : s.owner = .start r
    · -- nothing has been said about it before
      obtain rfl := (hspoken.start r).mp hstart
      refine ⟨[], ?_, not_mem_nil⟩
      have hnone : s.control.filter (·.relationship = some r) = [] := by
        rw [filter_eq_nil_iff]
        intro e he hre
        exact (h.known he (by simpa using hre)).2 hstart
      have hself : (.started r : ObservationEvent K T O).relationship = some r := rfl
      simp [filter_append, hnone, hself]
    · refine started_append (h.started hr hstart) fun hmem => hstart ?_
      exact (hspoken.start r).mpr (mem_singleton.mp hmem).symm
  · intro r
    have haffine := h.affine r
    have hle := hspoken.cancels r
    have hends : [event].countP (·.ends r) = (event.ends r).toNat := by
      cases hev : event.ends r <;> simp [hev]
    unfold weight at haffine ⊢
    rw [countP_append, hends]
    have hreg : registered { s with control := s.control ++ [event], owner := owner }
      r = s.registered r := rfl
    have hheld : held { s with control := s.control ++ [event], owner := owner } r =
      s.held r := rfl
    rw [hreg, hheld]
    dsimp only
    omega

/-- A relationship is issued under a new identity. -/
theorem Exact.issues (h : Exact s) {target : T}
    (hlive : s.owner = .live) (hm : s.registry = some m) (hnew : m.lookup id = none) :
    Exact { s with
      registry := some (m.insert id s.relationships.length)
      relationships := s.relationships ++ [⟨id, target, false, none⟩]
      owner := .start s.relationships.length } := by
  generalize hs' : ({ s with
    registry := some (m.insert id s.relationships.length)
    relationships := s.relationships ++ [⟨id, target, false, none⟩]
    owner := .start s.relationships.length } : Observing K T O) = s'
  have hget (u : ℕ) : s'.relationships[u]? = if u = s.relationships.length
      then some ⟨id, target, false, none⟩ else s.relationships[u]? := by
    rw [← hs', getElem?_append]
    rcases Nat.lt_trichotomy u s.relationships.length with hlt | heq | hlt
    · rw [if_pos hlt, if_neg (Nat.ne_of_lt hlt)]
    · simp [heq]
    · rw [if_neg (by omega), if_neg (by omega), getElem?_eq_none (by simp; omega),
        getElem?_eq_none (by omega)]
  have hid {u : ℕ} (hu : u ≠ s.relationships.length) : s'.idOf u = s.idOf u := by
    rw [idOf, hget, if_neg hu, idOf]
  have htask (u : ℕ) : s'.taskOf u = s.taskOf u :=
    taskOf_append (by rw [← hs']) rfl
  -- a relationship that exists is not the new one
  have hne {u : ℕ} (hu : (s.idOf u).isSome) : u ≠ s.relationships.length := by
    rintro rfl
    simp [idOf] at hu
  have hnone : s.weight s.relationships.length = 0 :=
    h.weight_eq_zero (getElem?_eq_none (Nat.le_refl _))
  have howner : s'.owner = .start s.relationships.length := by rw [← hs']
  have hctrl : s'.control = s.control := by rw [← hs']
  have hjoined : s'.joined = s.joined := by rw [← hs']
  have hreg : s'.registry = some (m.insert id s.relationships.length) := by rw [← hs']
  refine ⟨by rw [← hs']; exact h.unfailed, fun _ => ⟨by rw [hreg]; rfl, ?_⟩, ?_, ?_, ?_, ?_, ?_,
    ?_, ?_, ?_⟩
  · rw [← hs']
    exact (h.live (by rw [hlive]; rfl)).2
  · intro m' id' r hm' hr
    rw [hreg] at hm'
    cases hm'
    rcases Decidable.eq_or_ne id' id with rfl | hid'
    · rw [AList.lookup_insert] at hr
      cases hr
      rw [idOf, hget, if_pos rfl]
      rfl
    · rw [AList.lookup_insert_ne hid'] at hr
      have hr := h.bound hm hr
      rw [hid (hne (by rw [hr]; rfl)), hr]
  · intro r hr
    rw [howner] at hr
    cases hr
    rw [idOf, hget, if_pos rfl]
    rfl
  · intro r hr
    rw [howner] at hr
    obtain rfl : s.relationships.length = r := by simpa using hr
    rw [htask, taskOf, getElem?_eq_none (Nat.le_refl _)]
    rfl
  · intro r event hr
    exact h.returned (htask r ▸ hr)
  · intro event hevent
    rw [hjoined] at hevent
    obtain ⟨r, outcome, instant, heq, hr⟩ := h.joined hevent
    exact ⟨r, outcome, instant, heq, (htask r).trans hr⟩
  · intro event r hevent hr
    rw [hctrl] at hevent
    have hr := (h.known hevent hr).1
    refine ⟨by rwa [hid (hne hr)], fun heq => hne hr ?_⟩
    rw [howner] at heq
    exact (Owner.start.inj heq).symm
  · intro r hr hstart
    have hu : r ≠ s.relationships.length := fun heq => hstart (by rw [howner, heq])
    rw [hid hu] at hr
    rw [hctrl]
    exact h.started hr (by simp [hlive])
  · intro r
    have hcancels : s'.owner.cancels r = 0 := by rw [howner]; rfl
    have haffine := h.affine r
    have hheld : s'.held r = s.held r := by rw [held, htask, held]
    rcases Decidable.eq_or_ne r s.relationships.length with rfl | hu
    · unfold weight at hnone ⊢
      rw [hctrl, hjoined, hcancels, hheld]
      have hone := (s'.registered s.relationships.length).toNat_le
      omega
    · have hle : (s'.registered r).toNat ≤ (s.registered r).toNat := by
        cases hr : s'.registered r with
        | false => exact Nat.zero_le _
        | true =>
          obtain ⟨m', id', hm', hid', hlookup⟩ := registered_iff.mp hr
          rw [hreg] at hm'
          cases hm'
          rcases Decidable.eq_or_ne id' id with rfl | hne'
          · rw [AList.lookup_insert] at hlookup
            exact absurd (Option.some.inj hlookup).symm hu
          · rw [AList.lookup_insert_ne hne'] at hlookup
            rw [registered_iff.mpr ⟨m, id', hm, (hid hu).symm.trans hid', hlookup⟩]
      unfold weight at haffine ⊢
      rw [hctrl, hjoined, hcancels, hheld]
      omega

/-- Its task starts. -/
theorem Exact.spawns (h : Exact s) (howner : s.owner = .spawn r) :
    Exact { s.setTask r .waiting with owner := .live } := by
  obtain ⟨id, hid⟩ := Option.isSome_iff_exists.mp (h.named (r := r) (by rw [howner]; rfl))
  obtain ⟨R, hR, -⟩ := Option.map_eq_some_iff.mp hid
  have htaskr : s.taskOf r = none := h.spawned (.inr howner)
  generalize hs' : ({ s.setTask r .waiting with owner := .live } : Observing K T O) = s'
  have hid (u : ℕ) : s'.idOf u = s.idOf u := by rw [← hs']; exact idOf_setTask
  have htask {u : ℕ} (hu : u ≠ r) : s'.taskOf u = s.taskOf u := by
    rw [← hs']; exact taskOf_setTask_ne hu
  have hself : s'.taskOf r = some .waiting := by rw [← hs']; exact taskOf_setTask_self hR
  have hlive : s'.owner = .live := by rw [← hs']
  have hctrl : s'.control = s.control := by rw [← hs']; rfl
  have hjoined : s'.joined = s.joined := by rw [← hs']; rfl
  have hreg : s'.registry = s.registry := by rw [← hs']; rfl
  have hstill : s.registry.isSome ∧ s.closed = false := h.live (by rw [howner]; rfl)
  refine ⟨by rw [← hs']; exact h.unfailed, fun _ => ?_, ?_, ?_, ?_, ?_, ?_, ?_, ?_, ?_⟩
  · rw [hreg]
    exact ⟨hstill.1, by rw [← hs']; exact hstill.2⟩
  · intro m id u hm hu
    rw [hid]
    exact h.bound (hreg ▸ hm) hu
  · intro u hu
    rw [hlive] at hu
    cases hu
  · intro u hu
    simp [hlive] at hu
  · intro u event hu
    rcases Decidable.eq_or_ne u r with rfl | hne
    · rw [hself] at hu
      cases hu
    · exact h.returned (htask hne ▸ hu)
  · intro event hevent
    rw [hjoined] at hevent
    obtain ⟨u, outcome, instant, heq, hu⟩ := h.joined hevent
    have hne : u ≠ r := fun heq => by rw [heq, htaskr] at hu; cases hu
    exact ⟨u, outcome, instant, heq, (htask hne).trans hu⟩
  · intro event u hevent hu
    rw [hctrl] at hevent
    rw [hid]
    exact ⟨(h.known hevent hu).1, by simp [hlive]⟩
  · intro u hu _
    rw [hid] at hu
    rw [hctrl]
    exact h.started hu (by simp [howner])
  · intro u
    have haffine := h.affine u
    have hheld : s'.held u = s.held u := by
      rcases Decidable.eq_or_ne u r with rfl | hne
      · rw [held, hself, held, htaskr]
        rfl
      · rw [held, htask hne, held]
    have hle := (shrinks_of_eq hreg).registered_le (hid u)
    have hcancels : s'.owner.cancels u = 0 := by rw [hlive]; rfl
    unfold weight at haffine ⊢
    rw [hctrl, hjoined, hcancels, hheld]
    omega

/-! ### Steps of a task -/

/-- What a section of a task does to the rest: what it says on the control lane, and what it gives
to `join_next`. -/
structure Works (s s' : Observing K T O) (r : ℕ) (old task : ObservationTask K T O)
    (said got : List (ObservationEvent K T O)) : Prop where
  owner : s'.owner = s.owner
  closed : s'.closed = s.closed
  failed : s'.failed = s.failed
  id : ∀ u, s'.idOf u = s.idOf u
  others : ∀ {u}, u ≠ r → s'.taskOf u = s.taskOf u
  before : s.taskOf r = some old
  after : s'.taskOf r = some task
  registry : s.registry.isSome → s'.registry.isSome
  shrinks : s.Shrinks s'
  control : s'.control = s.control ++ said
  joined : s'.joined = s.joined ++ got
  about : ∀ event ∈ said ++ got, ∃ outcome instant, event = .stopped r outcome instant
  returned : ∀ event, task = .returned (.error event) →
    ∃ outcome instant, event = .stopped r outcome instant
  unjoined : old ≠ .joined
  gives : got ≠ [] → task = .joined
  /-- Only an acquisition brings something new. -/
  gain : task.holds + said.length + got.length =
    old.holds + (task.isAcquired && !old.isAcquired).toNat
  /-- It is paid for with the registration. -/
  token : (s'.registered r).toNat + (task.isAcquired && !old.isAcquired).toNat ≤
    (s.registered r).toNat

variable {old : ObservationTask K T O}

/-- The task of a relationship goes on. -/
theorem Exact.works (h : Exact s) {task : ObservationTask K T O}
    {got : List (ObservationEvent K T O)} (hw : Works s s' r old task said got) : Exact s' := by
  have hexists : (s.idOf r).isSome := by
    have hbefore := hw.before
    rw [taskOf] at hbefore
    obtain ⟨R, hR, -⟩ := Option.bind_eq_some_iff.mp hbefore
    rw [idOf_eq hR]
    rfl
  have hspawned : s.owner ≠ .start r ∧ s.owner ≠ .spawn r := by
    have hspawned := h.spawned (r := r)
    rw [hw.before] at hspawned
    refine ⟨fun heq => ?_, fun heq => ?_⟩
    · cases hspawned (.inl heq)
    · cases hspawned (.inr heq)
  refine ⟨hw.failed.trans h.unfailed, ?_, ?_, ?_, ?_, ?_, ?_, ?_, ?_, ?_⟩
  · rw [hw.owner, hw.closed]
    exact fun hlive => ⟨hw.registry (h.live hlive).1, (h.live hlive).2⟩
  · intro m id u hm hu
    obtain ⟨m, hm, hu⟩ := hw.shrinks m id u hm hu
    rw [hw.id]
    exact h.bound hm hu
  · rw [hw.owner]
    intro u hu
    rw [hw.id]
    exact h.named hu
  · rw [hw.owner]
    intro u hu
    have hne : u ≠ r := by
      rintro rfl
      exact hu.elim hspawned.1 hspawned.2
    rw [hw.others hne]
    exact h.spawned hu
  · intro u event hu
    rcases Decidable.eq_or_ne u r with rfl | hne
    · exact hw.returned event (Option.some.inj (hw.after.symm.trans hu))
    · exact h.returned (hw.others hne ▸ hu)
  · intro event hevent
    rw [hw.joined] at hevent
    rcases mem_append.mp hevent with hevent | hgot
    · obtain ⟨u, outcome, instant, heq, hu⟩ := h.joined hevent
      have hne : u ≠ r := by
        rintro rfl
        exact hw.unjoined (Option.some.inj (hw.before.symm.trans hu))
      exact ⟨u, outcome, instant, heq, (hw.others hne).trans hu⟩
    · obtain ⟨outcome, instant, heq⟩ := hw.about event (mem_append_right _ hgot)
      exact ⟨r, outcome, instant, heq, by rw [hw.after, hw.gives (ne_nil_of_mem hgot)]⟩
  · intro event u hevent hu
    rw [hw.control] at hevent
    rw [hw.id, hw.owner]
    rcases mem_append.mp hevent with hevent | hsaid
    · exact h.known hevent hu
    · obtain ⟨outcome, instant, rfl⟩ := hw.about event (mem_append_left _ hsaid)
      cases hu
      exact ⟨hexists, hspawned.1⟩
  · intro u hu hstart
    rw [hw.id] at hu
    rw [hw.owner] at hstart
    rw [hw.control]
    refine started_append (h.started hu hstart) fun hmem => ?_
    obtain ⟨outcome, instant, heq⟩ := hw.about _ (mem_append_left _ hmem)
    cases heq
  · intro u
    have haffine := h.affine u
    have hsaid := countP_about (u := u) (p := (·.ends u))
      (fun e he => hw.about e (mem_append_left got he)) fun _ _ => rfl
    have hgot := countP_about (u := u) (p := (·.ends u))
      (fun e he => hw.about e (mem_append_right said he)) fun _ _ => rfl
    unfold weight at haffine ⊢
    rw [hw.owner, hw.control, hw.joined, countP_append, countP_append, hsaid, hgot]
    rcases Decidable.eq_or_ne u r with rfl | hne
    · have htoken := hw.token
      have hgain := hw.gain
      have hafter : s'.held u = task.holds := by rw [held, hw.after]; rfl
      have hbefore : s.held u = old.holds := by rw [held, hw.before]; rfl
      rw [hafter, if_pos rfl, if_pos rfl]
      omega
    · have hle := hw.shrinks.registered_le (hw.id u)
      have hheld : s'.held u = s.held u := by rw [held, hw.others hne, held]
      rw [hheld, if_neg hne.symm, if_neg hne.symm]
      omega

variable {R : Relationship K T O}

theorem works_of_setTask (task : ObservationTask K T O) (said got : List (ObservationEvent K T O))
    (htask : s.task r = some (R, old))
    (hs' : s' = { s.setTask r task with control := s.control ++ said, joined := s.joined ++ got })
    (habout : ∀ event ∈ said ++ got, ∃ outcome instant, event = .stopped r outcome instant)
    (hret : ∀ event, task = .returned (.error event) →
      ∃ outcome instant, event = .stopped r outcome instant)
    (hjoined : old ≠ .joined) (hgives : got ≠ [] → task = .joined) (hacq : task.isAcquired = false)
    (hgain : task.holds + said.length + got.length = old.holds) :
      Works s s' r old task said got := by
  obtain ⟨hR, hold⟩ := task_eq htask
  have hid (u : ℕ) : s'.idOf u = s.idOf u := by rw [hs']; exact idOf_setTask
  have hreg : s'.registry = s.registry := by rw [hs']; rfl
  have hle := (shrinks_of_eq hreg).registered_le (hid r)
  subst hs'
  exact {
    owner := rfl
    closed := rfl
    failed := rfl
    id := hid
    others := taskOf_setTask_ne
    before := hold
    after := taskOf_setTask_self hR
    registry := id
    shrinks := shrinks_of_eq rfl
    control := rfl
    joined := rfl
    about := habout
    returned := hret
    unjoined := hjoined
    gives := hgives
    gain := by simp [hacq, hgain]
    token := by simpa [hacq] using hle }

theorem works_of_acquire {instant : ℕ} {outcome : O} (htask : s.task r = some (R, old))
    (hundecided : old.undecided) (hm : s.registry = some m) (hlookup : m.lookup R.id = some r) :
    Works s { (s.sendRevocation r).setTask r (.acquired outcome instant) with
      registry := some (m.erase R.id) } r old (.acquired outcome instant) [] [] := by
  obtain ⟨hR, hold⟩ := task_eq htask
  obtain ⟨R', hR'⟩ : ∃ R', (s.sendRevocation r).relationships[r]? = some R' := by
    simp [sendRevocation, hR]
  have hid (u : ℕ) : ((s.sendRevocation r).setTask r (.acquired outcome instant)).idOf u =
      s.idOf u := by
    simp
  have hholds : old.holds = 0 ∧ old.isAcquired = false ∧ old ≠ .joined := by
    cases old <;> simp_all [ObservationTask.undecided, ObservationTask.holds,
      ObservationTask.isAcquired]
  have hbefore : s.registered r :=
    registered_iff.mpr ⟨m, R.id, hm, idOf_eq hR, hlookup⟩
  have hafter : registered { (s.sendRevocation r).setTask r (.acquired outcome instant) with
      registry := some (m.erase R.id) } r = false :=
    registered_erase ((hid r).trans (idOf_eq hR)) rfl
  exact {
    owner := rfl
    closed := rfl
    failed := rfl
    id := hid
    others := fun hu => (taskOf_setTask_ne hu).trans taskOf_sendRevocation
    before := hold
    after := taskOf_setTask_self hR'
    registry := fun _ => rfl
    shrinks := shrinks_of_erase hm rfl
    control := (append_nil _).symm
    joined := (append_nil _).symm
    about := by simp
    returned := by simp
    unjoined := hholds.2.2
    gives := fun hne => absurd rfl hne
    gain := by
      rw [hholds.1, hholds.2.1]
      rfl
    token := by
      rw [hafter, hbefore, hholds.2.1]
      exact Nat.le_refl _ }

end Local
