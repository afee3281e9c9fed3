import Mathlib.Data.List.Induction

/-!
# Checks with early exits

`Exactly V x I` says that the computation `x` decides `V`: it succeeds, with a value of which `I`
holds, if `V` does, and fails if not.  A check that returns an error as soon as something is wrong
is put together from its exits (`exit`), its parts (`bind`) and its loops (`foldlM`).
-/

set_option autoImplicit false

namespace Machine

variable {α β γ ε : Type} {U V : Prop} {x : Except ε β} {I : β → Prop}

/-- The computation decides `V`. -/
def Exactly (V : Prop) (x : Except ε β) (I : β → Prop) : Prop :=
  (V ∧ ∃ b, x = .ok b ∧ I b) ∨ (¬ V ∧ ∃ e, x = .error e)

namespace Exactly

theorem ok {b : β} (hV : V) (hI : I b) : Exactly V (.ok b : Except ε β) I := .inl ⟨hV, b, rfl, hI⟩

theorem error {e : ε} (hV : ¬ V) : Exactly V (.error e : Except ε β) I := .inr ⟨hV, e, rfl⟩

theorem congr (h : Exactly U x I) (hU : V ↔ U) : Exactly V x I := by
  rwa [Exactly, hU]

theorem exit {p : Prop} [Decidable p] {e : ε} (hp : p → ¬ V) (h : ¬ p → Exactly V x I) :
    Exactly V (if p then .error e else x) I := by
  split
  · next hyes => exact error (hp hyes)
  · next hno => exact h hno

theorem bind {f : β → Except ε γ} {J : γ → Prop} (h : Exactly U x I) (hU : V → U)
    (hf : ∀ b, U → I b → Exactly V (f b) J) : Exactly V (x >>= f) J := by
  rcases h with ⟨hyes, b, rfl, hI⟩ | ⟨hno, e, rfl⟩
  · exact hf b hyes hI
  · exact error fun hV => hno (hU hV)

/-- **A loop is exact if its rounds are.** -/
theorem foldlM {f : β → α → Except ε β} {b : β} {V : List α → Prop} {I : List α → β → Prop}
    (hV : V []) (hI : I [] b) (hmono : ∀ l a, V (l ++ [a]) → V l)
    (hstep : ∀ l a c, V l → I l c → Exactly (V (l ++ [a])) (f c a) (I (l ++ [a]))) (l : List α) :
    Exactly (V l) (l.foldlM f b) (I l) := by
  induction l using List.reverseRecOn with
  | nil => exact ok hV hI
  | append_singleton l a ih =>
    rw [List.foldlM_append]
    refine ih.bind (hmono l a) fun c hl hc => ?_
    rw [List.foldlM_cons]
    refine (hstep l a c hl hc).bind id fun c' hla hc' => ?_
    exact ok hla hc'

theorem of_ok {b : β} (h : Exactly V x I) (hx : x = .ok b) : V ∧ I b := by
  rcases h with ⟨hV, b', hb, hI⟩ | ⟨-, e, he⟩
  · cases hb.symm.trans hx
    exact ⟨hV, hI⟩
  · cases he.symm.trans hx

end Exactly

end Machine
