import Mathlib.Algebra.BigOperators.Group.List.Basic
import Mathlib.Algebra.Order.Ring.Nat
import Mathlib.Data.List.Basic

/-!
# Runs of a partial step function

A machine here is a function `step : σ → ι → Option σ`: in state `s` the world supplies the input
`i`, and either the machine moves to the one state `step s i` or the input makes no sense at `s`.
Everything nondeterministic about a program (which reply a host gives, which thread moves next,
whether a future is dropped) is an input, so a statement about *every* schedule and *every* host
is a statement about every list of inputs.

* `Run step s tr u` says that the machine goes from `s` to `u` through the transitions `tr`, oldest
  first.  A transition remembers the state it left, so a property of the whole history can mention
  what was true at each point of it.
* `Run.invariant` and `Run.history` are the two induction rules: a property of states kept by every
  step holds in every state reached, and a property of history and state together likewise.
  `Run.historyOn` is the second of them for runs whose transitions all satisfy a side condition.
* `Run.split` and `Run.uncons` take a run apart at a point of its history.
* `exec` runs a concrete list of inputs, for the witnesses.
-/

set_option autoImplicit false

namespace Machine

open List

variable {σ ι : Type*}

/-- One transition of a machine: the state it left, the input it read, the state it reached. -/
structure Transition (σ ι : Type*) where
  /-- The state before the input. -/
  source : σ
  /-- What the world supplied. -/
  input : ι
  /-- The state after it. -/
  target : σ
  deriving DecidableEq, Repr

/-- The runs of `step` from `s`, indexed by their history and their last state. -/
inductive Run (step : σ → ι → Option σ) (s : σ) : List (Transition σ ι) → σ → Prop
  | refl : Run step s [] s
  | snoc {tr : List (Transition σ ι)} {t u : σ} {i : ι} (h : Run step s tr t)
      (hstep : step t i = some u) : Run step s (tr ++ [⟨t, i, u⟩]) u

variable {step : σ → ι → Option σ} {s t u : σ} {tr pre post : List (Transition σ ι)}

/-! ## Composing runs and taking them apart -/

theorem Run.single {i : ι} (h : step s i = some u) : Run step s [⟨s, i, u⟩] u :=
  show Run step s ([] ++ [⟨s, i, u⟩]) u from Run.refl.snoc h

theorem Run.eq_of_nil (h : Run step s [] u) : u = s := by
  generalize htr : ([] : List (Transition σ ι)) = tr at h
  cases h with
  | refl => rfl
  | snoc => simp at htr

theorem Run.append (h : Run step s pre t) (h' : Run step t post u) :
    Run step s (pre ++ post) u := by
  induction h' with
  | refl => simpa using h
  | snoc _ hstep ih => rw [← append_assoc]; exact ih.snoc hstep

theorem Run.split (h : Run step s (pre ++ post) u) : ∃ t, Run step s pre t ∧ Run step t post u := by
  generalize htr : pre ++ post = tr at h
  induction h generalizing post with
  | refl =>
    obtain ⟨rfl, rfl⟩ := append_eq_nil_iff.mp htr
    exact ⟨s, .refl, .refl⟩
  | @snoc tr t u i h hstep ih =>
    rcases eq_nil_or_concat post with rfl | ⟨post', x, rfl⟩
    · rw [append_nil] at htr
      subst htr
      exact ⟨u, h.snoc hstep, .refl⟩
    · rw [concat_eq_append, ← append_assoc] at htr
      obtain ⟨hpre, hx⟩ := append_inj' htr rfl
      obtain ⟨m, hm, hm'⟩ := ih hpre
      cases hx
      exact ⟨m, hm, by rw [concat_eq_append]; exact hm'.snoc hstep⟩

variable {x : Transition σ ι}

theorem Run.uncons (h : Run step s (x :: post) u) :
    x.source = s ∧ step s x.input = some x.target ∧ Run step x.target post u := by
  have h' : Run step s ([x] ++ post) u := h
  obtain ⟨t, h1, h2⟩ := h'.split
  generalize hx : [x] = tr at h1
  cases h1 with
  | refl => simp at hx
  | @snoc tr m _ i h1 hstep =>
    have hx' : ([] : List (Transition σ ι)) ++ [x] = tr ++ [⟨m, i, t⟩] := hx
    obtain ⟨htr, hx⟩ := append_inj' hx' rfl
    rw [← htr] at h1
    obtain rfl := h1.eq_of_nil
    cases hx
    exact ⟨rfl, hstep, h2⟩

/-- Every transition in the history of a run is one the machine makes, from a state that the run
had reached by then. -/
theorem Run.at (h : Run step s (pre ++ x :: post) u) :
    Run step s pre x.source ∧ step x.source x.input = some x.target ∧
      Run step x.target post u := by
  obtain ⟨t, h1, h2⟩ := h.split
  obtain ⟨rfl, hstep, h3⟩ := h2.uncons
  exact ⟨h1, hstep, h3⟩

theorem Run.of_mem (h : Run step s tr u) (hx : x ∈ tr) :
    ∃ pre post, tr = pre ++ x :: post ∧ Run step s pre x.source ∧
      step x.source x.input = some x.target := by
  obtain ⟨pre, post, rfl⟩ := append_of_mem hx
  exact ⟨pre, post, rfl, h.at.1, h.at.2.1⟩

/-! ## Induction over a run -/

/-- **The invariant rule.** -/
@[elab_as_elim]
theorem Run.invariant {P : σ → Prop} (h : Run step s tr u) (h0 : P s)
    (hs : ∀ t i u, P t → step t i = some u → P u) : P u := by
  induction h with
  | refl => exact h0
  | snoc _ hstep ih => exact hs _ _ _ ih hstep

variable {P : List (Transition σ ι) → σ → Prop}

/-- **The history rule**: a property of the history and the state it led to, for runs whose
transitions all satisfy `ok`. -/
@[elab_as_elim]
theorem Run.historyOn {ok : Transition σ ι → Prop}
    (h : Run step s tr u) (hok : ∀ x ∈ tr, ok x) (h0 : P [] s)
    (hs : ∀ tr t i u, Run step s tr t → P tr t → ok ⟨t, i, u⟩ → step t i = some u →
      P (tr ++ [⟨t, i, u⟩]) u) : P tr u := by
  induction h with
  | refl => exact h0
  | snoc h hstep ih =>
    exact hs _ _ _ _ h (ih fun x hx => hok x (mem_append_left _ hx))
      (hok _ (mem_append_right _ (mem_singleton_self _))) hstep

@[elab_as_elim]
theorem Run.history (h : Run step s tr u) (h0 : P [] s)
    (hs : ∀ tr t i u, Run step s tr t → P tr t → step t i = some u → P (tr ++ [⟨t, i, u⟩]) u) :
    P tr u :=
  h.historyOn (fun _ _ => trivial) h0 fun _ _ _ _ hrun ih _ hstep => hs _ _ _ _ hrun ih hstep

/-- **A threshold is crossed at most once**: along a run on which the measure `m` never falls, a
kind of transition that lifts it over `k` occurs at most once, and not before. -/
theorem Run.crosses_once {m : σ → ℕ} {q : Transition σ ι → Bool} (k : ℕ) (h : Run step s tr u)
    (hmono : ∀ x ∈ tr, m x.source ≤ m x.target)
    (hcross : ∀ x ∈ tr, q x → m x.source ≤ k ∧ k < m x.target) :
    tr.countP q ≤ 1 ∧ (m u ≤ k → tr.countP q = 0) := by
  induction h with
  | refl => simp
  | @snoc tr t u i _ _ ih =>
    obtain ⟨hle, hzero⟩ := ih (fun x hx => hmono x (mem_append_left _ hx))
      (fun x hx => hcross x (mem_append_left _ hx))
    have hlast : (⟨t, i, u⟩ : Transition σ ι) ∈ tr ++ [⟨t, i, u⟩] := by simp
    have hstep : m t ≤ m u := hmono _ hlast
    rw [countP_append, countP_singleton]
    by_cases hq : q ⟨t, i, u⟩
    · have hbefore : m t ≤ k ∧ k < m u := hcross _ hlast hq
      rw [if_pos hq, hzero hbefore.1]
      exact ⟨by omega, fun hu => by omega⟩
    · rw [if_neg hq]
      exact ⟨by omega, fun hu => by have := hzero (by omega); omega⟩

/-! ## Running a concrete list of inputs -/

/-- Feed the inputs to the machine one after another, collecting the history. -/
def exec (step : σ → ι → Option σ) : σ → List ι → Option (List (Transition σ ι) × σ)
  | s, [] => some ([], s)
  | s, i :: is =>
    match step s i with
    | none => none
    | some t =>
      match exec step t is with
      | none => none
      | some (tr, u) => some (⟨s, i, t⟩ :: tr, u)

theorem exec_spec {is : List ι} : ∀ {s : σ} {tr : List (Transition σ ι)} {u : σ},
    exec step s is = some (tr, u) → Run step s tr u ∧ tr.map Transition.input = is := by
  induction is with
  | nil =>
    intro s tr u h
    obtain ⟨rfl, rfl⟩ := Prod.mk.inj (Option.some.inj h)
    exact ⟨.refl, rfl⟩
  | cons i _ ih =>
    intro s tr u h
    rw [exec] at h
    split at h
    · cases h
    · rename_i t hstep
      split at h
      · cases h
      · rename_i tr' u' hrest
        obtain ⟨rfl, rfl⟩ := Prod.mk.inj (Option.some.inj h)
        obtain ⟨hrun, hinputs⟩ := ih hrest
        exact ⟨(Run.single hstep).append hrun, congrArg (i :: ·) hinputs⟩

theorem exec_run {is : List ι} {s u : σ} {tr}
    (h : exec step s is = some (tr, u)) : Run step s tr u := (exec_spec h).1

end Machine
