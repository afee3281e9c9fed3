import Bombay.Machine.Run

/-!
# Machines that run by themselves

A machine whose world is fixed is a function `next : σ → Option σ`, and what it does to the world in
a state is a label of that state.  `Performs next label s l u` says that the machine goes from `s`
to `u` and shows the labels `l` on the way.

Such a machine has one run only: once it has come to a halt, every other run from the same state is
seen to be a first part of it (`Performs.halts`).
-/

set_option autoImplicit false

namespace Machine

variable {σ α : Type*}

/-- The machine goes from one state to another and shows these labels, oldest first. -/
inductive Performs (next : σ → Option σ) (label : σ → Option α) : σ → List α → σ → Prop
  | refl (s : σ) : Performs next label s [] s
  | silent {s t u : σ} {l : List α} (hnext : next s = some t) (hlabel : label s = none)
      (h : Performs next label t l u) : Performs next label s l u
  | shows {s t u : σ} {a : α} {l : List α} (hnext : next s = some t) (hlabel : label s = some a)
      (h : Performs next label t l u) : Performs next label s (a :: l) u

variable {next : σ → Option σ} {label : σ → Option α} {s t u : σ} {l l' : List α}

theorem Performs.trans (h : Performs next label s l t) (h' : Performs next label t l' u) :
    Performs next label s (l ++ l') u := by
  induction h with
  | refl => exact h'
  | silent hnext hlabel _ ih => exact .silent hnext hlabel (ih h')
  | shows hnext hlabel _ ih => exact .shows hnext hlabel (ih h')

theorem Performs.halts (h : Performs next label s l u) (hu : next u = none)
    (h' : Performs next label s l' t) : ∃ later, l = l' ++ later ∧
    Performs next label t later u := by
  induction h' generalizing l with
  | refl => exact ⟨l, rfl, h⟩
  | silent hnext hlabel _ ih =>
    cases h with
    | refl => cases hu.symm.trans hnext
    | silent hnext' _ h =>
      cases hnext.symm.trans hnext'
      exact ih h
    | shows _ hlabel' => cases hlabel.symm.trans hlabel'
  | shows hnext hlabel _ ih =>
    cases h with
    | refl => cases hu.symm.trans hnext
    | silent _ hlabel' => cases hlabel.symm.trans hlabel'
    | shows hnext' hlabel' h =>
      cases hnext.symm.trans hnext'
      cases hlabel.symm.trans hlabel'
      obtain ⟨later, hl, hlater⟩ := ih h
      exact ⟨later, by rw [hl, List.cons_append], hlater⟩

/-- **The simulation by a machine with inputs**: if every move is one of `step`, under an input that
`ok` allows, then the run is a run of `step` with such inputs, and its history shows the labels. -/
theorem Performs.run {τ ι : Type*} {step : τ → ι → Option τ} {view : σ → τ} {shown : τ → Option α}
    {ok : ι → Prop} (h : Performs next label s l u) (hlabel : ∀ s, label s = shown (view s))
    (hstep : ∀ s t, next s = some t → ∃ i, ok i ∧ step (view s) i = some (view t)) :
    ∃ tr, Run step (view s) tr (view u) ∧ (∀ x ∈ tr, ok x.input) ∧
      tr.filterMap (fun x => shown x.source) = l := by
  induction h with
  | refl => exact ⟨[], .refl, by simp, rfl⟩
  | @silent s t u l hnext hl _ ih =>
    obtain ⟨i, hi, hmove⟩ := hstep s t hnext
    obtain ⟨tr, hrun, hok, htr⟩ := ih
    refine ⟨⟨view s, i, view t⟩ :: tr, (Run.single hmove).append hrun, ?_, ?_⟩
    · rintro x (_ | ⟨_, hx⟩)
      · exact hi
      · exact hok x hx
    · rw [List.filterMap_cons_none (by rw [← hlabel, hl]), htr]
  | @shows s t u a l hnext hl _ ih =>
    obtain ⟨i, hi, hmove⟩ := hstep s t hnext
    obtain ⟨tr, hrun, hok, htr⟩ := ih
    refine ⟨⟨view s, i, view t⟩ :: tr, (Run.single hmove).append hrun, ?_, ?_⟩
    · rintro x (_ | ⟨_, hx⟩)
      · exact hi
      · exact hok x hx
    · rw [List.filterMap_cons_some (by rw [← hlabel, hl]), htr]

end Machine
