import Mathlib.Data.List.Induction

/-!
# Logs in which every entry has its reason

A log grows at its end.  `Justified R log` says that each entry was allowed, when it was written, by
what stood before it.  An invariant of the form "whenever `x` happened, `y` had happened before and
`z` had not" is then one case of `R`, kept by showing that the entry written now is allowed now.
-/

set_option autoImplicit false

namespace Machine

open List

variable {α : Type*}

/-- Every entry is allowed by what stands before it. -/
inductive Justified (R : List α → α → Prop) : List α → Prop
  | nil : Justified R []
  | snoc {log : List α} {x : α} (h : Justified R log) (hx : R log x) : Justified R (log ++ [x])

namespace Justified

variable {R : List α → α → Prop} {log before after : List α} {x : α}

theorem last (h : Justified R (log ++ [x])) : Justified R log ∧ R log x := by
  generalize hl : log ++ [x] = l at h
  cases h with
  | nil => exact absurd hl (append_ne_nil_of_right_ne_nil log (cons_ne_nil x []))
  | snoc h hx =>
    obtain ⟨rfl, hlast⟩ := append_inj' hl rfl
    obtain rfl := singleton_inj.mp hlast
    exact ⟨h, hx⟩

theorem upTo (h : Justified R (before ++ after)) : Justified R before := by
  induction after using List.reverseRecOn with
  | nil => exact append_nil before ▸ h
  | append_singleton _ _ ih =>
    rw [← append_assoc] at h
    exact ih h.last.1

/-- **The reason of an entry.** -/
theorem reason (h : Justified R log) (hlog : log = before ++ x :: after) : R before x := by
  rw [hlog, append_cons] at h
  exact h.upTo.last.2

theorem of_mem (h : Justified R log) (hx : x ∈ log) : ∃ before after, log = before ++ x :: after ∧
    R before x := by
  obtain ⟨before, after, hlog⟩ := append_of_mem hx
  exact ⟨before, after, hlog, h.reason hlog⟩

theorem unique {P : α → Prop} (h : Justified R log)
    (hR : ∀ before x, R before x → P x → ∀ y ∈ before, ¬P y)
    {y : α} (hx : x ∈ log) (hy : y ∈ log) (hPx : P x) (hPy : P y) : x = y := by
  induction h with
  | nil => exact absurd hx not_mem_nil
  | @snoc log z h hz ih =>
    simp only [mem_append, mem_singleton] at hx hy
    rcases hx with hx | rfl <;> rcases hy with hy | rfl
    · exact ih hx hy
    · exact absurd hPx (hR log y hz hPy x hx)
    · exact absurd hPy (hR log x hz hPx y hy)
    · rfl

theorem countP_le_one {p : α → Bool} (h : Justified R log)
    (hR : ∀ before x, R before x → p x → ∀ y ∈ before, p y = false) : log.countP p ≤ 1 := by
  induction h with
  | nil => exact Nat.zero_le 1
  | @snoc log x h hx ih =>
    rw [countP_append]
    cases hp : p x with
    | false =>
      rw [countP_singleton, hp]
      exact ih
    | true =>
      have hnone : log.countP p = 0 :=
        countP_eq_zero.mpr fun y hy => Bool.eq_false_iff.mp (hR log x hx hp y hy)
      rw [hnone, countP_singleton, hp]
      exact Nat.le_refl 1

end Justified

end Machine
