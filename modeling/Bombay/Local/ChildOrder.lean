import Bombay.Local.ChildRegistry
import Bombay.Local.ChildRows

/-!
# The order of the children and their rows agree

`creation_order` is kept beside the map of creations, and a row is removed and recorded again
several times while its creation waits.  `Occurrence.Ordered` says that the two agree: no identity
is listed twice, what is listed has a row that owns something, and what owns something is listed.
`OrderedBut` says it of all rows but one, which an operation has taken out and puts back.
-/

set_option autoImplicit false

namespace Local

open Machine Engine List

variable {P : ChildPort} [DecidableEq P.Id]

/-! ## One occurrence -/

/-- The order and the rows agree, but for the creation `id`, whose row is out of the map. -/
structure Occurrence.OrderedBut (id : P.Id) (o : Occurrence P) : Prop where
  nodup : o.creationOrder.Nodup
  held : ∀ i ∈ o.creationOrder, i ≠ id → ∃ row, o.creations.lookup i = some row ∧ row.Held
  listed : ∀ {i row}, o.creations.lookup i = some row → row.ordered = true → i ∈ o.creationOrder
  absent : o.creations.lookup id = none

/-- **The order and the rows agree.** -/
structure Occurrence.Ordered (o : Occurrence P) : Prop where
  nodup : o.creationOrder.Nodup
  held : ∀ i ∈ o.creationOrder, ∃ row, o.creations.lookup i = some row ∧ row.Held
  listed : ∀ {i row}, o.creations.lookup i = some row → row.ordered = true → i ∈ o.creationOrder

namespace Occurrence

variable {o o' : Occurrence P} {id : P.Id} {row : CreationBinding P}

theorem lookup_insert (cs : AList fun _ : P.Id => CreationBinding P) (i id : P.Id)
    (row : CreationBinding P) :
    (cs.insert id row).lookup i = if i = id then some row else cs.lookup i := by
  split
  · rename_i h
    subst h
    exact AList.lookup_insert cs
  · rename_i h
    exact AList.lookup_insert_ne h

theorem lookup_erase (cs : AList fun _ : P.Id => CreationBinding P) (i id : P.Id) :
    (cs.erase id).lookup i = if i = id then none else cs.lookup i := by
  split
  · rename_i h
    subst h
    exact AList.lookup_erase i cs
  · rename_i h
    exact AList.lookup_erase_ne h

theorem ordered_empty : (empty : Occurrence P).Ordered where
  nodup := nodup_nil
  held := by simp [empty]
  listed := by simp [empty]

theorem Ordered.but_of_absent (h : o.Ordered) (hid : id ∉ o.creations) : o.OrderedBut id where
  nodup := h.nodup
  held i hi _ := h.held i hi
  listed := h.listed
  absent := AList.lookup_eq_none.mpr hid

theorem Ordered.remove (h : o.Ordered) (id : P.Id) : (o.remove id).OrderedBut id where
  nodup := h.nodup
  held i hi hne := by
    obtain ⟨row, hrow, hheld⟩ := h.held i hi
    exact ⟨row, by rw [Occurrence.remove, lookup_erase, if_neg hne, hrow], hheld⟩
  listed {i row} hrow hord := by
    rw [Occurrence.remove, lookup_erase] at hrow
    split at hrow
    · cases hrow
    · exact h.listed hrow hord
  absent := by rw [Occurrence.remove, lookup_erase, if_pos rfl]

theorem OrderedBut.record_eq (h : o.OrderedBut id) (row : CreationBinding P) :
    o.recordChildCreation id row = some ⟨o.creations.insert id row, o.recordedOrder id row⟩ :=
  if_neg (AList.lookup_eq_none.mp h.absent)

/-- **A recording restores the agreement.** -/
theorem OrderedBut.record (h : o.OrderedBut id) (hrow : row.ordered = true → row.Held) :
    (⟨o.creations.insert id row, o.recordedOrder id row⟩ : Occurrence P).Ordered := by
  cases hord : row.ordered with
  | true =>
    have hmem : ∀ i, i ∈ o.recordedOrder id row ↔ i = id ∨ i ∈ o.creationOrder := by
      intro i
      rw [recordedOrder, if_pos hord]
      split
      · rename_i hid
        exact ⟨.inr, fun h => h.elim (fun h => h ▸ hid) fun h => h⟩
      · rw [mem_append, mem_singleton, or_comm]
    refine ⟨?_, ?_, ?_⟩
    · rw [recordedOrder, if_pos hord]
      split
      · exact h.nodup
      · rename_i hid
        exact h.nodup.append (nodup_singleton id) (disjoint_singleton.mpr hid)
    · intro i hi
      by_cases hii : i = id
      · subst hii
        exact ⟨row, by rw [lookup_insert, if_pos rfl], hrow hord⟩
      · obtain ⟨row', hrow', hheld⟩ := h.held i (((hmem i).mp hi).resolve_left hii) hii
        exact ⟨row', by rw [lookup_insert, if_neg hii, hrow'], hheld⟩
    · intro i row' hrow' hord'
      rw [lookup_insert] at hrow'
      split at hrow'
      · exact (hmem i).mpr (.inl ‹_›)
      · exact (hmem i).mpr (.inr (h.listed hrow' hord'))
  | false =>
    have horder : o.recordedOrder id row = o.creationOrder.filter (· ≠ id) := by
      rw [recordedOrder, hord]
      rfl
    rw [horder]
    refine ⟨h.nodup.filter _, ?_, ?_⟩
    · intro i hi
      have hi' := mem_filter.mp hi
      have hne : i ≠ id := by simpa using hi'.2
      obtain ⟨row', hrow', hheld⟩ := h.held i hi'.1 hne
      exact ⟨row', by rw [lookup_insert, if_neg hne, hrow'], hheld⟩
    · intro i row' hrow' hord'
      rw [lookup_insert] at hrow'
      split at hrow'
      · cases hrow'
        rw [hord] at hord'
        cases hord'
      · rename_i hne
        exact mem_filter.mpr ⟨h.listed hrow' hord', by simpa using hne⟩

theorem Ordered.update (h : o.Ordered) (hid : id ∈ o.creationOrder) (hrow : row.Held) :
    (o.update id row).Ordered where
  nodup := h.nodup
  held i hi := by
    rw [Occurrence.update, lookup_insert]
    split
    · exact ⟨row, rfl, hrow⟩
    · exact h.held i hi
  listed {i row'} hrow' hord := by
    rw [Occurrence.update, lookup_insert] at hrow'
    split at hrow'
    · rename_i hi
      exact hi ▸ hid
    · exact h.listed hrow' hord

theorem Ordered.takeOut {rest : List P.Id} (h : o.Ordered) (ho : o.creationOrder = id :: rest) :
    ({ o.remove id with creationOrder := o.creationOrder.tail } : Occurrence P).Ordered := by
  have hnodup : (id :: rest).Nodup := ho ▸ h.nodup
  rw [ho, tail_cons]
  refine ⟨(nodup_cons.mp hnodup).2, ?_, ?_⟩
  · intro i hi
    obtain ⟨row, hrow, hheld⟩ := h.held i (ho ▸ mem_cons_of_mem id hi)
    have hne : i ≠ id := fun e => (nodup_cons.mp hnodup).1 (e ▸ hi)
    exact ⟨row, by rw [Occurrence.remove, lookup_erase, if_neg hne, hrow], hheld⟩
  · intro i row hrow hord
    rw [Occurrence.remove, lookup_erase] at hrow
    split at hrow
    · cases hrow
    · rename_i hne
      have hi : i ∈ id :: rest := ho ▸ h.listed hrow hord
      exact (mem_cons.mp hi).resolve_left hne

/-! ## Asking the rows to retire -/

omit [DecidableEq P.Id] in
theorem guarded_requestRetirement (row : CreationBinding P) :
    row.requestRetirement.guarded = row.guarded := by
  cases row with
  | retiringStartup _ custody => cases custody <;> rfl
  | established _ _ slots =>
    obtain ⟨owned, received, notice⟩ := slots
    cases owned <;> cases received <;> rfl
  | starting | rejected | startupRejected => rfl

theorem foldlM_requestRow : ∀ (ids : List P.Id) (cs : AList fun _ : P.Id => CreationBinding P),
    ids.Nodup → (∀ i ∈ ids, ∃ row, cs.lookup i = some row) →
    ∃ cs', ids.foldlM requestRetirement.requestRow cs = some cs' ∧
      ∀ i, cs'.lookup i =
        if i ∈ ids then (cs.lookup i).map CreationBinding.requestRetirement else cs.lookup i := by
  intro ids
  induction ids with
  | nil => exact fun cs _ _ => ⟨cs, rfl, fun i => by simp⟩
  | cons id _ ih =>
    intro cs hnodup hrows
    obtain ⟨row, hrow⟩ := hrows id mem_cons_self
    have hid := (nodup_cons.mp hnodup).1
    obtain ⟨cs', hfold, hlookup⟩ := ih (cs.insert id row.requestRetirement)
      (nodup_cons.mp hnodup).2 fun i hi => by
        obtain ⟨row', hrow'⟩ := hrows i (mem_cons_of_mem id hi)
        have hne : i ≠ id := fun e => hid (e ▸ hi)
        exact ⟨row', by rw [lookup_insert, if_neg hne, hrow']⟩
    refine ⟨cs', by rw [foldlM_cons, requestRetirement.requestRow, hrow]; exact hfold, ?_⟩
    intro i
    rw [hlookup i, lookup_insert]
    by_cases hii : i = id
    · subst hii
      rw [if_neg hid, if_pos rfl, if_pos mem_cons_self, hrow, Option.map_some]
    · simp only [mem_cons, hii, false_or, if_false]

/-- What asking an occurrence to retire leaves as it was. -/
structure Requested (o o' : Occurrence P) : Prop where
  order : o'.creationOrder = o.creationOrder
  ordered : o'.Ordered
  guarded : o'.guarded = o.guarded

theorem Ordered.requestRetirement (h : o.Ordered) :
    ∃ o', o.requestRetirement = some o' ∧ o.Requested o' := by
  obtain ⟨cs, hfold, hlookup⟩ := foldlM_requestRow o.creationOrder o.creations h.nodup fun i hi =>
    (h.held i hi).imp fun _ => And.left
  refine ⟨{ o with creations := cs }, by rw [Occurrence.requestRetirement, hfold]; rfl, rfl, ?_, ?_⟩
  · refine ⟨h.nodup, ?_, ?_⟩
    · intro i hi
      obtain ⟨row, hrow, hheld⟩ := h.held i hi
      exact ⟨row.requestRetirement, by rw [hlookup, if_pos hi, hrow, Option.map_some],
        hheld.requestRetirement⟩
    · intro i row hrow hord
      by_contra hi
      rw [hlookup, if_neg hi] at hrow
      exact hi (h.listed hrow hord)
  · rw [Bool.eq_iff_iff, Occurrence.guarded, Occurrence.guarded, any_eq_true, any_eq_true]
    refine exists_congr fun i => and_congr_right fun hi => ?_
    rw [hlookup, if_pos hi]
    cases o.creations.lookup i with
    | none => rfl
    | some row => rw [Option.map_some]; exact Bool.eq_iff_iff.mp (guarded_requestRetirement row)

theorem requestAll_of_ordered : ∀ {os : List (Occurrence P)}, (∀ o ∈ os, o.Ordered) →
    ∃ os', ChildRegistry.requestAll os = some os' ∧ List.Forall₂ Requested os os' := by
  intro os
  induction os with
  | nil => exact fun _ => ⟨[], rfl, .nil⟩
  | cons o _ ih =>
    intro h
    obtain ⟨o', ho', hr⟩ := (h o mem_cons_self).requestRetirement
    obtain ⟨os', hos', hrs⟩ := ih fun o ho => h o (mem_cons_of_mem _ ho)
    refine ⟨o' :: os', ?_, .cons hr hrs⟩
    rw [ChildRegistry.requestAll, mapM_cons, ho']
    rw [ChildRegistry.requestAll] at hos'
    simp [hos']

theorem unguarded_iff : o.guarded = false ↔
    ∀ i ∈ o.creationOrder, ∀ row, o.creations.lookup i = some row → row.guarded = false := by
  rw [Occurrence.guarded, any_eq_false]
  refine forall₂_congr fun i hi => ?_
  cases o.creations.lookup i with
  | none | some => simp

end Occurrence

end Local
