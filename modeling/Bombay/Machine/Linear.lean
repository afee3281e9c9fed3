import Mathlib.Data.List.Induction

/-!
# Linear resources

A value is written once, may be looked at while it is there, and is disposed of once: moved away or
destroyed.  `Lives uses life` says that a sequence of uses keeps to this, and how far it has come.
What a program does to many such values is one log; the uses of each value are a part of it.

`Lives.first` and `Lives.before` are the rules for a position in the sequence, `Lives.count_write`
and `Lives.count_dispose` those for the whole.
-/

set_option autoImplicit false

namespace Machine

open List

variable {α : Type*}

/-- What can be done to a value. -/
inductive Use (α : Type*)
  | write (a : α)
  | read (a : α)
  | dispose (a : α)

/-- What has become of a value. -/
inductive Life (α : Type*)
  | unwritten
  | held (a : α)
  | disposed (a : α)

namespace Use

def isWrite : Use α → Bool
  | write _ => true
  | _ => false

def isDispose : Use α → Bool
  | dispose _ => true
  | _ => false

/-- The value that a use is about. -/
def value : Use α → α
  | write a | read a | dispose a => a

end Use

namespace Life

/-- How many disposals are still due. -/
def owes : Life α → ℕ
  | held _ => 1
  | _ => 0

/-- How often the value has been written. -/
def writes : Life α → ℕ
  | unwritten => 0
  | _ => 1

/-- How often the value has been disposed of. -/
def disposals : Life α → ℕ
  | disposed _ => 1
  | _ => 0

theorem writes_le_one (l : Life α) : l.writes ≤ 1 := by
  cases l with
  | unwritten => exact Nat.zero_le 1
  | held | disposed => exact Nat.le_refl 1

theorem disposals_le_one (l : Life α) : l.disposals ≤ 1 := by
  cases l with
  | unwritten | held => exact Nat.zero_le 1
  | disposed => exact Nat.le_refl 1

theorem disposals_add_owes (l : Life α) : l.disposals + l.owes = l.writes := by
  cases l with
  | unwritten | held | disposed => rfl

end Life

/-- The uses of a linear value, and what has become of it. -/
inductive Lives : List (Use α) → Life α → Prop
  | unwritten : Lives [] .unwritten
  | write {us : List (Use α)} (a : α) (h : Lives us .unwritten) : Lives (us ++ [.write a]) (.held a)
  | read {us : List (Use α)} {a : α} (h : Lives us (.held a)) : Lives (us ++ [.read a]) (.held a)
  | dispose {us : List (Use α)} {a : α} (h : Lives us (.held a)) :
      Lives (us ++ [.dispose a]) (.disposed a)

namespace Lives

variable {us pre post : List (Use α)} {l : Life α} {a : α}

theorem eq_nil (h : Lives us .unwritten) : us = [] := by
  cases h
  rfl

theorem last {u : Use α} (h : Lives (us ++ [u]) l) :
    u.isWrite ∧ Lives us .unwritten ∨ u.isWrite = false ∧ Lives us (.held u.value) := by
  generalize hv : us ++ [u] = v at h
  cases h with
  | unwritten => exact absurd hv (append_ne_nil_of_right_ne_nil us (cons_ne_nil u []))
  | write _ h =>
    obtain ⟨rfl, hu⟩ := append_inj' hv rfl
    obtain rfl := singleton_inj.mp hu
    exact .inl ⟨rfl, h⟩
  | read h | dispose h =>
    obtain ⟨rfl, hu⟩ := append_inj' hv rfl
    obtain rfl := singleton_inj.mp hu
    exact .inr ⟨rfl, h⟩

theorem upTo (h : Lives (pre ++ post) l) : ∃ l', Lives pre l' := by
  induction post using List.reverseRecOn generalizing l with
  | nil => exact ⟨l, append_nil pre ▸ h⟩
  | append_singleton _ _ ih =>
    rw [← append_assoc] at h
    rcases h.last with ⟨-, h⟩ | ⟨-, h⟩
    · exact ih h
    · exact ih h

/-- **Use before, at and after.**  A use other than the write finds the value held. -/
theorem before {u : Use α} (h : Lives (pre ++ u :: post) l) (hu : u.isWrite = false) :
    Lives pre (.held u.value) := by
  rw [append_cons] at h
  obtain ⟨l', h'⟩ := h.upTo
  rcases h'.last with ⟨hw, -⟩ | ⟨-, h⟩
  · exact absurd (hw.symm.trans hu) Bool.noConfusion
  · exact h

theorem first {u : Use α} (h : Lives (pre ++ u :: post) l) (hu : u.isWrite) : pre = [] := by
  rw [append_cons] at h
  obtain ⟨l', h'⟩ := h.upTo
  rcases h'.last with ⟨-, h⟩ | ⟨hw, -⟩
  · exact h.eq_nil
  · exact absurd (hu.symm.trans hw) Bool.noConfusion

theorem count_write (h : Lives us l) : us.countP Use.isWrite = l.writes := by
  induction h with
  | unwritten => rfl
  | write _ _ ih | read _ ih | dispose _ ih =>
    rw [countP_append, ih]
    rfl

theorem count_dispose (h : Lives us l) : us.countP Use.isDispose = l.disposals := by
  induction h with
  | unwritten => rfl
  | write _ _ ih | read _ ih | dispose _ ih =>
    rw [countP_append, ih]
    rfl

theorem write_mem (h : Lives us (.held a)) : .write a ∈ us := by
  generalize hl : Life.held a = l at h
  induction h with
  | unwritten | dispose => cases hl
  | write =>
    obtain rfl := Life.held.inj hl
    exact mem_append_right _ (mem_singleton_self _)
  | read _ ih => exact mem_append_left _ (ih hl)

theorem of_write_mem (h : Lives us l) (hw : .write a ∈ us) : l = .held a ∨ l = .disposed a := by
  induction h with
  | unwritten => cases hw
  | write _ h =>
    obtain rfl := h.eq_nil
    obtain rfl := Use.write.inj (mem_singleton.mp hw)
    exact .inl rfl
  | read _ ih =>
    rcases mem_append.mp hw with hw | hw
    · exact ih hw
    · cases mem_singleton.mp hw
  | dispose _ ih =>
    rcases mem_append.mp hw with hw | hw
    · rcases ih hw with hl | hl
      · exact .inr (congrArg Life.disposed (Life.held.inj hl))
      · cases hl
    · cases mem_singleton.mp hw

end Lives

end Machine
