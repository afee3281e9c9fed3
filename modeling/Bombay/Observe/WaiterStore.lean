import Bombay.Observe.Registry

/-!
# The registry as it is stored

`Bombay.Observe.Slot` keeps the waiters in a list and takes a waker for the task it wakes.  The
source keeps them in an enum that holds one waiter without a vector, compares wakers with
`will_wake`, counts owners with `checked_add`, and has three expectations about all of that.
`Store` is that enum, and its operations are those of the source, with `none` for a failed
expectation or an overflow.

`will_wake` is an equivalence: there is a map `cls` to tasks such that two wakers are equivalent
when their tasks are equal.  Through `cls` the operations of a store are the operations on lists
(`updateFutureWaker_abs`, `removeOwner_abs`, `registerWaker_abs`, `hasList_retain`).  In particular
the expectation "one waiter remains" always holds, and the counts overflow only with more owners
than a `usize` can count.
-/

set_option autoImplicit false

namespace Observe

open List

variable {R W : Type}

/-- The same waiter with another name for its waker. -/
def Waiter.rename (cls : R → W) : Waiter R → Waiter W
  | .thread id => .thread id
  | .waker w ownership => .waker (cls w) ownership

/-- `Waiters`. -/
inductive Store (R : Type)
  | empty
  | one (waiter : Waiter R)
  | many (waiters : List (Waiter R))

namespace Store

/-- `Deref for Waiters`. -/
def toList : Store R → List (Waiter R)
  | empty => []
  | one waiter => [waiter]
  | many waiters => waiters

def push (waiter : Waiter R) : Store R → Store R
  | empty => one waiter
  | one first => many [first, waiter]
  | many waiters => many (waiters ++ [waiter])

/-- What `retain` and `retain_mut` make of the vector that is left.  `none` is the failed
expectation "one waiter remains". -/
def shrink (waiters : List (Waiter R)) : Option (Store R) :=
  match waiters.length with
  | 0 => some empty
  | 1 => waiters.getLast?.map one
  | _ => some (many waiters)

def retain (keep : Waiter R → Bool) : Store R → Option (Store R)
  | empty => some empty
  | one waiter => some (if keep waiter then one waiter else empty)
  | many waiters => shrink (waiters.filter keep)

section RetainMut

variable {σ : Type} (keep : σ → Waiter R → Option (σ × Option (Waiter R)))

/-- `Vec::retain_mut` with a closure that has a state and may panic. -/
def visit : σ → List (Waiter R) → Option (List (Waiter R))
  | _, [] => some []
  | state, waiter :: rest =>
    (keep state waiter).bind fun (state, kept) => (visit state rest).map (kept.toList ++ ·)

def retainMut (state : σ) : Store R → Option (Store R)
  | empty => some empty
  | one waiter => (keep state waiter).map fun (_, kept) => kept.elim empty one
  | many waiters => (visit keep state waiters).bind shrink

end RetainMut

/-- A write through `DerefMut`, which keeps the variant. -/
def overwrite : Store R → List (Waiter R) → Store R
  | one _, waiter :: _ => one waiter
  | many _, waiters => many waiters
  | store, _ => store

variable (willWake : R → R → Bool)

/-- The closure of `Slot::remove_future_waker_owner`; its state is `remaining_target`. -/
def leaveOnce : Option R → Waiter R → Option (Option R × Option (Waiter R))
  | target, .thread id => some (target, some (.thread id))
  | none, waiter => some (none, some waiter)
  | some target, .waker waker ownership =>
    if willWake waker target then
      ownership.leave.map fun left => (none, left.map (.waker waker))
    else some (some target, some (.waker waker ownership))

/-- `Slot::remove_future_waker_owner`. -/
def removeOwner (target : R) (store : Store R) : Option (Store R) :=
  store.retainMut (leaveOnce willWake) (some target)

/-- `checked_add` on an owner count, where `limit` is the greatest `usize`. -/
def checkedJoin (limit : ℕ) (ownership : WakerOwnership) : Option WakerOwnership :=
  if ownership.owners < limit then some ownership.join else none

/-- The search for an entry to join, and the increment.  The inner `none` means that there is none,
the outer one that its count overflowed. -/
def joinFirst (limit : ℕ) (next : R) : List (Waiter R) → Option (Option (List (Waiter R)))
  | [] => some none
  | .thread id :: rest => (joinFirst limit next rest).map (·.map (.thread id :: ·))
  | .waker waker ownership :: rest =>
    if willWake waker next then
      (checkedJoin limit ownership).map fun joined => some (.waker waker joined :: rest)
    else (joinFirst limit next rest).map (·.map (.waker waker ownership :: ·))

/-- The registration of a future, before its previous one is given up. -/
def join (limit : ℕ) (next : R) (store : Store R) : Option (Store R) :=
  (joinFirst willWake limit next store.toList).map fun
    | some waiters => store.overwrite waiters
    | none => store.push (.waker next (.futures ⟨1, Nat.one_pos⟩))

/-- `Slot::update_future_waker`, under the lock and before completion. -/
def updateFutureWaker (limit : ℕ) (previous : Option R) (next : R) (store : Store R) :
    Option (Store R) :=
  match previous with
  | none => store.join willWake limit next
  | some previous =>
    if willWake previous next then some store
    else (store.join willWake limit next).bind (removeOwner willWake previous)

/-- The search of `register_waker`. -/
def persistFirst (waker : R) : List (Waiter R) → Option (List (Waiter R))
  | [] => none
  | .thread id :: rest => (persistFirst waker rest).map (.thread id :: ·)
  | .waker existing ownership :: rest =>
    if willWake existing waker then some (.waker existing ownership.persist :: rest)
    else (persistFirst waker rest).map (.waker existing ownership :: ·)

/-- `register_waker`, under the lock and before completion. -/
def registerWaker (waker : R) (store : Store R) : Store R :=
  match persistFirst willWake waker store.toList with
  | some waiters => store.overwrite waiters
  | none => store.push (.waker waker (.persistent 0))

/-! ## The store as a list -/

section Abs

variable (cls : R → W)

/-- The waiters of a store, by task. -/
def abs (store : Store R) : List (Waiter W) := store.toList.map (.rename cls)

/-- A store that has a list for its waiters. -/
def HasList (waiters : List (Waiter R)) (store : Option (Store R)) : Prop :=
  ∃ s, store = some s ∧ s.toList = waiters

theorem hasList_shrink (waiters : List (Waiter R)) : HasList waiters (shrink waiters) := by
  cases waiters with
  | nil => exact ⟨empty, rfl, rfl⟩
  | cons first rest =>
    cases rest with
    | nil => exact ⟨one first, rfl, rfl⟩
    | cons second rest => exact ⟨many (first :: second :: rest), rfl, rfl⟩

theorem hasList_retain (keep : Waiter R → Bool) (store : Store R) :
    HasList (store.toList.filter keep) (store.retain keep) := by
  cases store with
  | empty => exact ⟨empty, rfl, rfl⟩
  | one waiter =>
    refine ⟨_, rfl, ?_⟩
    cases h : keep waiter <;> simp [toList, h]
  | many waiters => exact hasList_shrink (waiters.filter keep)

/-- The expectation of `retain_mut` holds: it fails where its closure does. -/
theorem retainMut_toList {σ : Type} (keep : σ → Waiter R → Option (σ × Option (Waiter R)))
    (state : σ) (store : Store R) :
    (store.retainMut keep state).map toList = visit keep state store.toList := by
  cases store with
  | empty => rfl
  | one waiter =>
    simp only [retainMut, toList, visit, Option.map_map]
    cases keep state waiter with
    | none => rfl
    | some r =>
      obtain ⟨state', kept⟩ := r
      cases kept <;> rfl
  | many waiters =>
    simp only [retainMut, toList]
    cases visit keep state waiters with
    | none => rfl
    | some left =>
      obtain ⟨s, hs, hlist⟩ := hasList_shrink left
      simp [hs, hlist]

theorem toList_push (waiter : Waiter R) (store : Store R) :
    (store.push waiter).toList = store.toList ++ [waiter] := by
  cases store <;> rfl

variable {waiters : List (Waiter R)}

theorem toList_overwrite (store : Store R)
    (h : waiters.length = store.toList.length) : (store.overwrite waiters).toList = waiters := by
  cases store with
  | empty => exact (eq_nil_of_length_eq_zero h).symm
  | one =>
    obtain ⟨x, rfl⟩ := length_eq_one_iff.mp h
    rfl
  | many => rfl

variable {willWake} [DecidableEq W] (hw : ∀ x y, willWake x y = decide (cls x = cls y))
include hw

/-! ### Leaving -/

omit hw in
theorem visit_leaveOnce_none (waiters : List (Waiter R)) :
    visit (leaveOnce willWake) none waiters = some waiters := by
  induction waiters with
  | nil => rfl
  | cons waiter _ ih => cases waiter <;> simp [visit, leaveOnce, ih]

theorem visit_leaveOnce (target : R) (waiters : List (Waiter R)) :
    (visit (leaveOnce willWake) (some target) waiters).map (List.map (.rename cls)) =
      Waiters.removeOwner (cls target) (waiters.map (.rename cls)) := by
  induction waiters using Waiters.byEntry with
  | nil => rfl
  | thread _ _ ih =>
    simp only [visit, leaveOnce, Option.bind_some, map_cons, Waiter.rename,
      Waiters.removeOwner, ← ih, Option.map_map]
    rfl
  | waker waker ownership _ ih =>
    simp only [visit, leaveOnce, map_cons, Waiter.rename, Waiters.removeOwner, hw,
      decide_eq_true_eq]
    by_cases h : cls waker = cls target
    · simp only [h, if_true]
      cases ownership.leave with
      | none => rfl
      | some left =>
        simp only [Option.map_some, Option.bind_some, visit_leaveOnce_none]
        cases left with
        | none => rfl
        | some => simp [Waiter.rename, h]
    · simp only [h, if_false, Option.bind_some, ← ih, Option.map_map]
      rfl

theorem removeOwner_abs (target : R) (store : Store R) :
    (store.removeOwner willWake target).map (abs cls) =
      Waiters.removeOwner (cls target) (store.abs cls) := by
  rw [abs, ← visit_leaveOnce cls hw, ← retainMut_toList, Option.map_map]
  rfl

/-! ### Joining -/

variable {limit : ℕ} {next : R} {waiters' : List (Waiter R)}

omit hw in
theorem length_joinFirst (h : joinFirst willWake limit next waiters = some (some waiters')) :
    waiters'.length = waiters.length := by
  induction waiters generalizing waiters' with
  | nil => cases h
  | cons waiter rest ih =>
    have hrest : ∀ first : Waiter R,
        (joinFirst willWake limit next rest).map (·.map (first :: ·)) = some (some waiters') →
          waiters'.length = rest.length + 1 := by
      intro first hsome
      obtain ⟨r, hr, hmap⟩ := Option.map_eq_some_iff.mp hsome
      obtain ⟨tail, rfl, rfl⟩ := Option.map_eq_some_iff.mp hmap
      rw [length_cons, ih hr]
    cases waiter with
    | thread => exact hrest _ h
    | waker =>
      rw [joinFirst] at h
      split at h
      · obtain ⟨joined, _, hmap⟩ := Option.map_eq_some_iff.mp h
        cases hmap
        rfl
      · exact hrest _ h

/-- Joining succeeds while the count of its task is below the limit, and then it is the join of the
list. -/
theorem joinFirst_abs (h : Waiters.owners (cls next) (waiters.map (.rename cls)) < limit) :
    ∃ r, joinFirst willWake limit next waiters = some r ∧
      Waiters.join (cls next) (waiters.map (.rename cls)) =
        (r.getD (waiters ++ [.waker next (.futures ⟨1, Nat.one_pos⟩)])).map (.rename cls) := by
  induction waiters using Waiters.byEntry with
  | nil => exact ⟨none, rfl, rfl⟩
  | thread id _ ih =>
    obtain ⟨r, hr, hjoin⟩ := ih h
    refine ⟨r.map (.thread id :: ·), by rw [joinFirst, hr, Option.map_some], ?_⟩
    rw [map_cons, Waiter.rename, Waiters.join, hjoin]
    cases r <;> rfl
  | waker waker _ _ ih =>
    rw [map_cons, Waiter.rename, Waiters.owners_waker] at h
    rw [map_cons, Waiter.rename, Waiters.join, joinFirst, hw]
    by_cases heq : cls waker = cls next
    · rw [if_pos heq] at h ⊢
      rw [if_pos (decide_eq_true heq), checkedJoin, if_pos (by omega)]
      exact ⟨_, rfl, rfl⟩
    · rw [if_neg heq] at h ⊢
      obtain ⟨r, hr, hjoin⟩ := ih (by omega)
      rw [if_neg (by simpa using heq), hr, hjoin]
      refine ⟨_, rfl, ?_⟩
      cases r <;> rfl

variable {store : Store R}

theorem join_abs (h : Waiters.owners (cls next) (store.abs cls) < limit) :
    (store.join willWake limit next).map (abs cls) =
    some (Waiters.join (cls next) (store.abs cls)) := by
  obtain ⟨r, hr, hjoin⟩ := joinFirst_abs cls hw h
  rw [join, hr, Option.map_some, Option.map_some, abs, abs, hjoin]
  cases r with
  | none =>
    rw [toList_push]
    rfl
  | some =>
    rw [toList_overwrite store (length_joinFirst hr)]
    rfl

/-- **The update of a future's waker**, while the count of its task is below the limit. -/
theorem updateFutureWaker_abs {previous : Option R}
    (h : (∀ p, previous = some p → cls p ≠ cls next) →
      Waiters.owners (cls next) (store.abs cls) < limit) :
    (store.updateFutureWaker willWake limit previous next).map (abs cls) =
      migrate (store.abs cls) (previous.map cls) (cls next) := by
  cases previous with
  | none => exact join_abs cls hw (h nofun)
  | some p =>
    rw [updateFutureWaker, Option.map_some, migrate, hw]
    by_cases heq : cls p = cls next
    · rw [if_pos (decide_eq_true heq), if_pos heq, Option.map_some]
    · rw [if_neg (by simpa using heq), if_neg heq]
      have hjoin := join_abs cls hw (h fun q hq => by cases hq; exact heq)
      obtain ⟨joined, hj, habs⟩ := Option.map_eq_some_iff.mp hjoin
      rw [hj, Option.bind_some, ← habs]
      exact removeOwner_abs cls hw p joined

/-! ### Staying -/

theorem persistFirst_abs (waker : R) (waiters : List (Waiter R)) :
    Waiters.persist (cls waker) (waiters.map (.rename cls)) =
      ((persistFirst willWake waker waiters).getD (waiters ++ [.waker waker (.persistent 0)])).map
        (.rename cls) := by
  induction waiters using Waiters.byEntry with
  | nil => rfl
  | thread _ rest ih =>
    rw [map_cons, Waiter.rename, Waiters.persist, ih, persistFirst]
    cases persistFirst willWake waker rest <;> rfl
  | waker existing _ rest ih =>
    rw [map_cons, Waiter.rename, Waiters.persist, persistFirst, hw]
    by_cases heq : cls existing = cls waker
    · rw [if_pos heq, if_pos (decide_eq_true heq)]
      rfl
    · rw [if_neg heq, if_neg (by simpa using heq), ih]
      cases persistFirst willWake waker rest <;> rfl

omit hw in
theorem length_persistFirst {waker : R} (h : persistFirst willWake waker waiters = some waiters') :
    waiters'.length = waiters.length := by
  induction waiters generalizing waiters' with
  | nil => cases h
  | cons waiter rest ih =>
    have hrest (first : Waiter R)
        (hsome : (persistFirst willWake waker rest).map (first :: ·) = some waiters') :
        waiters'.length = rest.length + 1 := by
      obtain ⟨tail, htail, rfl⟩ := Option.map_eq_some_iff.mp hsome
      rw [length_cons, ih htail]
    cases waiter with
    | thread => exact hrest _ h
    | waker =>
      rw [persistFirst] at h
      split at h
      · cases h
        rfl
      · exact hrest _ h

/-- **The registration of a waker that stays.** -/
theorem registerWaker_abs (waker : R) (store : Store R) :
    (store.registerWaker willWake waker).abs cls = Waiters.persist (cls waker) (store.abs cls) := by
  rw [abs, abs, persistFirst_abs cls hw, registerWaker]
  split
  · next h =>
    rw [h, toList_overwrite store (length_persistFirst h)]
    rfl
  · next h =>
    rw [h, toList_push]
    rfl

end Abs

end Store

end Observe
