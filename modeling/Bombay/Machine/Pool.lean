import Mathlib.Algebra.Order.BigOperators.Group.List
import Bombay.Machine.Run

/-!
# Pools of threads

A pool is a shared state and a list of threads, each of them at some place of its code.  A schedule
chooses one thread and hands it what its surroundings contribute; the thread then runs one atomic
section, which may change the shared state, moves the thread on, and may start one more thread.
Threads are never removed from the list, so the position of a thread is its name.

Proofs over all schedules are inductive invariants of three kinds, and there is a lemma for each:

* a property of every single thread (`each_move`);
* a *total*, the sum over all threads of what each of them holds (`total_move`): how many threads
  own a guard, a lock or a token;
* the two together along a run (`Pool.invariant`).
-/

set_option autoImplicit false

namespace Machine

open List

variable {σ π ι : Type*}

/-- A shared state and the threads that work on it. -/
structure Pool (σ π : Type*) where
  shared : σ
  threads : List π

/-- What a scheduler does: start a thread, or let a thread run one section. -/
inductive Schedule (π ι : Type*)
  | call (p : π)
  | run (t : ℕ) (i : ι)

/-- The code of the threads.  A section sees the shared state, the name of its thread and the name
the next new thread will get; it gives the new shared state, the place its thread goes on at, and a
thread to start. -/
abbrev Code (σ π ι : Type*) := σ → ℕ → ℕ → π → ι → Option (σ × π × Option π)

/-- One step of a pool.  Only threads at an `entry` can be started from outside. -/
def Pool.step (entry : π → Bool) (code : Code σ π ι) (w : Pool σ π) :
    Schedule π ι → Option (Pool σ π)
  | .call p => if entry p then some ⟨w.shared, w.threads ++ [p]⟩ else none
  | .run t i =>
    match w.threads[t]? with
    | none => none
    | some p =>
      match code w.shared t w.threads.length p i with
      | none => none
      | some (s, p', q) => some ⟨s, w.threads.set t p' ++ q.toList⟩

variable {entry : π → Bool} {code : Code σ π ι} {w w' : Pool σ π} {l : List π} {p p' : π} {t : ℕ}

/-- A thread that is there has a name. -/
theorem lt_of_get (hp : l[t]? = some p) : t < l.length := (List.getElem?_eq_some_iff.mp hp).1

theorem Pool.step_cases {a} (h : w.step entry code a = some w') :
    (∃ p, a = .call p ∧ entry p ∧ w' = ⟨w.shared, w.threads ++ [p]⟩) ∨
    ∃ t i p s p' q, a = .run t i ∧ w.threads[t]? = some p ∧
      code w.shared t w.threads.length p i = some (s, p', q) ∧
      w' = ⟨s, w.threads.set t p' ++ q.toList⟩ := by
  cases a with
  | call p =>
    simp only [Pool.step] at h
    split at h
    · next hentry => exact .inl ⟨p, rfl, hentry, (Option.some.inj h).symm⟩
    · cases h
  | run t i =>
    simp only [Pool.step] at h
    split at h
    · cases h
    · next p hp =>
      split at h
      · cases h
      · next s p' q hcode =>
        exact .inr ⟨t, i, p, s, p', q, rfl, hp, hcode, (Option.some.inj h).symm⟩

/-- **The invariant rule for pools.**  Each step is taken at the end of a run, so that an invariant
proved before can be used there. -/
@[elab_as_elim]
theorem Pool.invariant {w0} {tr}
    {P : Pool σ π → Prop} (h : Run (Pool.step entry code) w0 tr w) (h0 : P w0)
    (hcall : ∀ tr w p, Run (Pool.step entry code) w0 tr w → P w → entry p →
      P ⟨w.shared, w.threads ++ [p]⟩)
    (hact : ∀ tr w t i p s p' q, Run (Pool.step entry code) w0 tr w → P w →
      w.threads[t]? = some p → code w.shared t w.threads.length p i = some (s, p', q) →
      P ⟨s, w.threads.set t p' ++ q.toList⟩) : P w := by
  refine h.history (P := fun _ => P) h0 fun tr w a w' hrun hw hstep => ?_
  rcases Pool.step_cases hstep with ⟨p, -, hentry, rfl⟩ | ⟨t, i, p, s, p', q, -, hp, hcode, rfl⟩
  · exact hcall tr w p hrun hw hentry
  · exact hact tr w t i p s p' q hrun hw hp hcode

/-! ## Every thread -/

variable {r : π} {u : ℕ}

/-- Whoever stands in a pool that somebody has joined was there before, or is the new one. -/
theorem of_joined (h : (l ++ [p])[u]? = some r) : l[u]? = some r ∨ u = l.length ∧ r = p := by
  by_cases hu : u < l.length
  · rw [getElem?_append_left hu] at h
    exact .inl h
  · have hlt := lt_of_get h
    rw [length_append, length_singleton] at hlt
    obtain rfl : u = l.length := by omega
    rw [getElem?_concat_length] at h
    exact .inr ⟨rfl, (Option.some.inj h).symm⟩

/-- Whoever stands in a pool in which `t` has moved is `t`, or was there before. -/
theorem of_moved (h : (l.set t p')[u]? = some r) : u = t ∧ r = p' ∨ u ≠ t ∧ l[u]? = some r := by
  by_cases hu : u = t
  · subst hu
    have hlt : u < l.length := by simpa using (lt_of_get h)
    rw [getElem?_set_self hlt] at h
    exact .inl ⟨rfl, (Option.some.inj h).symm⟩
  · rw [getElem?_set_ne (Ne.symm hu)] at h
    exact .inr ⟨hu, h⟩

/-- A thread that has moved is where it moved to. -/
theorem get_moved (hp : l[t]? = some p) (p' : π) (q : Option π) :
    (l.set t p' ++ q.toList)[t]? = some p' := by
  have hlt := lt_of_get hp
  rw [getElem?_append_left (by simpa using hlt), getElem?_set_self hlt]

/-- A property of all threads, each at its name. -/
def Each (P : ℕ → π → Prop) (l : List π) : Prop := ∀ t p, l[t]? = some p → P t p

theorem each_nil (P : ℕ → π → Prop) : Each P [] := by
  intro t p hp
  cases hp

variable {P : ℕ → π → Prop} {q : Option π}

theorem each_append (h : Each P l)
    (hq : ∀ p, q = some p → P l.length p) : Each P (l ++ q.toList) := by
  intro t p hp
  by_cases ht : t < l.length
  · rw [getElem?_append_left ht] at hp
    exact h t p hp
  · rw [getElem?_append_right (Nat.le_of_not_lt ht)] at hp
    cases q with
    | none => cases hp
    | some =>
      cases hk : t - l.length with
      | zero =>
        obtain rfl : t = l.length := by omega
        rw [hk] at hp
        exact hq p (by simpa using hp)
      | succ => simp [hk] at hp

variable {P' : ℕ → π → Prop}

/-- One thread moves: it satisfies the property at its new place, the property of the other threads
is stable, and a new thread starts with it. -/
theorem each_move (h : Each P l) (hp : l[t]? = some p)
    (hmove : P t p → P' t p') (hother : ∀ u r, u ≠ t → P u r → P' u r)
    (hq : ∀ r, q = some r → P' l.length r) : Each P' (l.set t p' ++ q.toList) := by
  refine each_append (fun u r hr => ?_) (by simpa using hq)
  by_cases hu : u = t
  · subst hu
    have hlt := lt_of_get hp
    rw [getElem?_set_self hlt] at hr
    obtain rfl := Option.some.inj hr
    exact hmove (h u p hp)
  · rw [getElem?_set_ne (Ne.symm hu)] at hr
    exact hother u r hu (h u r hr)

theorem each_set (h : Each P l) (hp : l[t]? = some p)
    (hmove : P t p → P' t p') (hother : ∀ u r, u ≠ t → P u r → P' u r) : Each P' (l.set t p') := by
  simpa using each_move (q := none) h hp hmove hother (fun r hr => by cases hr)

/-! ## Totals -/

/-- The sum over all threads of what each of them holds. -/
def total (f : π → ℕ) (l : List π) : ℕ := (l.map f).sum

@[simp] theorem total_nil (f : π → ℕ) : total f [] = 0 := rfl

@[simp] theorem total_cons (f : π → ℕ) (p : π) (l : List π) :
    total f (p :: l) = f p + total f l := by
  simp [total]

@[simp] theorem total_append (f : π → ℕ) (l l' : List π) :
    total f (l ++ l') = total f l + total f l' := by
  simp [total]

theorem total_eraseIdx (f : π → ℕ) (hp : l[t]? = some p) :
    total f l = total f (l.eraseIdx t) + f p := by
  induction l generalizing t with
  | nil => cases hp
  | cons r _ ih =>
    cases t with
    | zero =>
      obtain rfl : r = p := by simpa using hp
      rw [eraseIdx_cons_zero, total_cons, Nat.add_comm]
    | succ =>
      rw [eraseIdx_cons_succ, total_cons, total_cons, ih (by simpa using hp), Nat.add_assoc]

theorem total_set_eraseIdx (f : π → ℕ) (p' : π) (hp : l[t]? = some p) :
    total f (l.set t p') = total f (l.eraseIdx t) + f p' := by
  have hlt := lt_of_get hp
  rw [total_eraseIdx f (getElem?_set_self hlt), eraseIdx_set_eq]

theorem total_set (f : π → ℕ) (p' : π) (hp : l[t]? = some p) :
    total f (l.set t p') + f p = total f l + f p' := by
  rw [total_set_eraseIdx f p' hp, total_eraseIdx f hp]
  omega

/-- One thread moves: the total changes by what it holds before and after, and by what the new
thread holds. -/
theorem total_move (f : π → ℕ) (p' : π) (q : Option π) (hp : l[t]? = some p) :
    total f (l.set t p' ++ q.toList) + f p = total f l + f p' + total f q.toList := by
  have := total_set f p' hp
  rw [total_append]
  omega

theorem le_total (f : π → ℕ) (hp : l[t]? = some p) : f p ≤ total f l := by
  rw [total_eraseIdx f hp]
  exact Nat.le_add_left _ _

theorem add_le_total (f : π → ℕ) (hp : l[t]? = some p) (hr : l[u]? = some r)
    (hne : t ≠ u) : f p + f r ≤ total f l := by
  obtain ⟨v, hv⟩ := mem_iff_getElem?.mp (mem_eraseIdx_iff_getElem?.mpr ⟨u, hne.symm, hr⟩)
  have := le_total f hv
  rw [total_eraseIdx f hp]
  omega

variable {f g : π → ℕ}

theorem total_le (h : ∀ p ∈ l, f p ≤ g p) : total f l ≤ total g l := sum_le_sum h

theorem total_lt (h : ∀ p ∈ l, f p ≤ g p) (hp : l[t]? = some p) (hlt : f p < g p) :
    total f l < total g l :=
  sum_lt_sum f g h ⟨p, mem_of_getElem? hp, hlt⟩

theorem total_add_mul {h : π → ℕ} {k : ℕ} (hf : ∀ p, f p = g p + k * h p) (l : List π) :
    total f l = total g l + k * total h l := by
  induction l with
  | nil => rfl
  | cons _ _ ih =>
    rw [total_cons, total_cons, total_cons, ih, hf, Nat.mul_add]
    omega

theorem total_eq_zero (h : ∀ p ∈ l, f p = 0) : total f l = 0 :=
  sum_eq_zero (forall_mem_map.mpr h)

theorem total_sole (hp : l[t]? = some p)
    (hother : ∀ u r, u ≠ t → l[u]? = some r → f r = 0) : total f l = f p := by
  rw [total_eraseIdx f hp, total_eq_zero fun r hr => ?_, Nat.zero_add]
  obtain ⟨u, hne, hu⟩ := mem_eraseIdx_iff_getElem?.mp hr
  exact hother u r hne hu

/-- A total is at most one when only one thread holds anything, and that at most once. -/
theorem total_le_one (hone : ∀ p ∈ l, f p ≤ 1)
    (hsole : ∀ {t u : ℕ} {p r : π}, l[t]? = some p → l[u]? = some r → f p ≠ 0 → f r ≠ 0 → t = u) :
    total f l ≤ 1 := by
  by_cases hall : ∀ p ∈ l, f p = 0
  · rw [total_eq_zero hall]
    exact Nat.zero_le _
  · obtain ⟨p, hp, hne⟩ : ∃ p ∈ l, f p ≠ 0 := by simpa using hall
    obtain ⟨t, ht⟩ := mem_iff_getElem?.mp hp
    rw [total_sole ht fun u r hu hr => Decidable.byContradiction fun h => hu (hsole hr ht h hne)]
    exact hone p hp

end Machine
