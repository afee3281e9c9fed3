import Mathlib.Data.List.Nodup
import Std.Data.HashMap.Lemmas

/-!
# The table of keys

An `ObservationSpace` finds the slot of a key in a `SmallMap`: a short vector of pairs, searched
from the front, that becomes a hash map when a fifth key is inserted and stays one.  The model of
the space treats the table as a finite map; this file is why it may.  `Represents` says what a table
stands for, `apply_represents` that an operation on the table is the operation on the finite map,
and `small_map_refines` that nobody who uses the table can tell the two apart.
-/

set_option autoImplicit false

namespace Observe.KeyTable

open List Option Function

variable {K S : Type}

/-! ## The source -/

/-- A slot and the generation it was made in. -/
structure SlotEntry (S : Type) where
  generation : ℕ
  slot : S

/-- `INLINE_CAP`. -/
def inlineCap : ℕ := 4

/-- A list for few keys, and a hash map for more. -/
inductive SmallMap (K S : Type) [BEq K] [Hashable K]
  | inline (entries : List (K × SlotEntry S))
  | hash (map : Std.HashMap K (SlotEntry S))

/-- `Vec::swap_remove`: the last element takes the place of the one removed. -/
def swapRemove {α : Type} (l : List α) (index : ℕ) : List α :=
  match l.getLast? with
  | none => l
  | some last => (l.set index last).dropLast

namespace SmallMap

variable [DecidableEq K] [Hashable K]

def empty : SmallMap K S := .inline []

/-- The entry of a key. -/
def get (key : K) : SmallMap K S → Option (SlotEntry S)
  | .inline entries => (entries.find? (·.1 == key)).map (·.2)
  | .hash map => map[key]?

/-- The key has no entry. -/
def isVacant (key : K) : SmallMap K S → Bool
  | .inline entries => !entries.any (·.1 == key)
  | .hash map => !map.contains key

/-- An entry for a key that has none. -/
def insertVacant (key : K) (entry : SlotEntry S) : SmallMap K S → SmallMap K S
  | .inline entries =>
    if inlineCap ≤ entries.length then
      .hash (((Std.HashMap.emptyWithCapacity (inlineCap * 2)).insertMany entries).insert key entry)
    else .inline (entries ++ [(key, entry)])
  | .hash map => .hash (map.insert key entry)

/-- The entry goes if it is of this generation. -/
def removeIf (key : K) (generation : ℕ) : SmallMap K S → SmallMap K S × Bool
  | .inline entries =>
    match entries.findIdx? (·.1 == key) with
    | none => (.inline entries, false)
    | some index =>
      if (entries[index]?).any (·.2.generation == generation) then
        (.inline (swapRemove entries index), true)
      else (.inline entries, false)
  | .hash map =>
    if (map[key]?).any (·.generation == generation) then (.hash (map.erase key), true)
    else (.hash map, false)

/-- The keys that have entries. -/
def keys : SmallMap K S → List K
  | .inline entries => entries.map (·.1)
  | .hash map => map.keys

end SmallMap

/-! ## Operations -/

/-- The operations of the table. -/
inductive Op (K S : Type)
  | insertVacant (key : K) (entry : SlotEntry S)
  | get (key : K)
  | isVacant (key : K)
  | removeIf (key : K) (generation : ℕ)

/-- Their answers. -/
inductive Answer (S : Type)
  | done
  | entry (entry : Option (SlotEntry S))
  | flag (flag : Bool)

section Apply

variable [DecidableEq K] [Hashable K]

/-- An operation on the table.  The caller guarantees that an inserted key is vacant. -/
def SmallMap.apply (m : SmallMap K S) : Op K S → Option (SmallMap K S × Answer S)
  | .insertVacant key entry =>
    if m.isVacant key then some (m.insertVacant key entry, .done) else none
  | .get key => some (m, .entry (m.get key))
  | .isVacant key => some (m, .flag (m.isVacant key))
  | .removeIf key generation =>
    let (m, removed) := m.removeIf key generation
    some (m, .flag removed)

/-- The operation on a finite map. -/
def applyTo (f : K → Option (SlotEntry S)) : Op K S → Option ((K → Option (SlotEntry S)) × Answer S)
  | .insertVacant key entry =>
    if (f key).isNone then some (update f key (some entry), .done) else none
  | .get key => some (f, .entry (f key))
  | .isVacant key => some (f, .flag (f key).isNone)
  | .removeIf key generation =>
    if (f key).any (·.generation == generation) then some (update f key none, .flag true)
    else some (f, .flag false)

end Apply

/-- All operations of a list in turn, with their answers. -/
def applyAll {M O A : Type} (apply : M → O → Option (M × A)) : M → List O → Option (M × List A)
  | m, [] => some (m, [])
  | m, op :: ops => do
    let (m, answer) ← apply m op
    let (m, answers) ← applyAll apply m ops
    return (m, answer :: answers)

/-! ## What a table stands for -/

theorem swapRemove_perm {α : Type} (before : List α) (x : α) (after : List α) :
    (swapRemove (before ++ x :: after) before.length).Perm (before ++ after) := by
  rcases eq_nil_or_concat' after with rfl | ⟨init, last, rfl⟩
  · simp [swapRemove]
  · have hset : swapRemove (before ++ x :: (init ++ [last])) before.length =
        before ++ last :: init := by
      have hlast : before ++ x :: (init ++ [last]) = (before ++ x :: init) ++ [last] := by simp
      have hswap : (before ++ last :: (init ++ [last])) = (before ++ last :: init) ++ [last] := by
        simp
      rw [swapRemove, hlast, getLast?_concat, ← hlast]
      simp only [set_append_right _ _ (Nat.le_refl _), Nat.sub_self, set_cons_zero]
      rw [hswap, dropLast_concat]
    rw [hset]
    exact (perm_append_singleton last init).symm.append_left before

section Represents

variable [DecidableEq K] [Hashable K] {entries : List (K × SlotEntry S)}
  {f : K → Option (SlotEntry S)} {m : SmallMap K S}

theorem get_inline_eq_some (hnodup : (entries.map (·.1)).Nodup) {key : K} {e} :
    (SmallMap.inline entries).get key = some e ↔ (key, e) ∈ entries := by
  constructor
  · intro h
    obtain ⟨⟨k, e'⟩, hfind, rfl⟩ := map_eq_some_iff.mp h
    obtain rfl : k = key := by simpa using find?_some hfind
    exact mem_of_find?_eq_some hfind
  · intro h
    cases hfind : entries.find? (·.1 == key) with
    | none => exact absurd (find?_eq_none.mp hfind _ h) (by simp)
    | some pair =>
      have hkey : pair.1 = key := by simpa using find?_some hfind
      have hmem := mem_of_find?_eq_some hfind
      rw [SmallMap.get, hfind, inj_on_of_nodup_map hnodup hmem h hkey]
      rfl

/-- The table stands for the finite map, and stores no key twice. -/
structure Represents (m : SmallMap K S) (f : K → Option (SlotEntry S)) : Prop where
  get : ∀ key, m.get key = f key
  nodup : m.keys.Nodup

theorem isVacant_eq (m : SmallMap K S) (key : K) : m.isVacant key = (m.get key).isNone := by
  cases m with
  | inline =>
    rw [SmallMap.isVacant, SmallMap.get, isNone_map, ← not_isSome, isSome_find?]
  | hash => simp [SmallMap.isVacant, SmallMap.get]

theorem represents_inline :
    Represents (.inline entries) f ↔ (entries.map (·.1)).Nodup ∧ ∀ p, p ∈ entries ↔
    f p.1 = some p.2 := by
  constructor
  · rintro ⟨hget, hnodup⟩
    exact ⟨hnodup, fun p => by rw [← hget, get_inline_eq_some hnodup]⟩
  · rintro ⟨hnodup, hmem⟩
    refine ⟨fun key => Option.ext fun e => ?_, hnodup⟩
    rw [get_inline_eq_some hnodup, hmem]

theorem represents_hash {map} (h : ∀ key, map[key]? = f key) : Represents (.hash map) f := by
  refine ⟨h, map.distinct_keys.imp fun hne => ?_⟩
  simpa using hne

theorem represents_insert {key : K} {entry} (h : Represents m f) (hv : f key = none) :
    Represents (m.insertVacant key entry) (update f key (some entry)) := by
  cases m with
  | inline entries =>
    obtain ⟨hnodup, hmem⟩ := represents_inline.mp h
    have hfresh : ∀ e, (key, e) ∉ entries := fun e he => by rw [hmem, hv] at he; cases he
    rw [SmallMap.insertVacant]
    split
    · refine represents_hash fun k => ?_
      have hdist : entries.Pairwise fun a b => (a.1 == b.1) = false := by
        refine (pairwise_map.mp hnodup).imp fun hne => ?_
        simpa using hne
      by_cases hk : k = key
      · subst hk
        rw [Std.HashMap.getElem?_insert_self, update_self]
      · rw [Std.HashMap.getElem?_insert, if_neg (by simpa using Ne.symm hk), update_of_ne hk]
        cases hf : f k with
        | some e =>
          exact Std.HashMap.getElem?_insertMany_list_of_mem (by simp) hdist ((hmem (k, e)).mpr hf)
        | none =>
          rw [Std.HashMap.getElem?_insertMany_list_of_contains_eq_false]
          · simp
          · simp only [contains_eq_mem, List.mem_map, decide_eq_false_iff_not]
            rintro ⟨⟨k', e⟩, he, rfl⟩
            rw [hmem, hf] at he
            cases he
    · refine represents_inline.mpr ⟨?_, fun p => ?_⟩
      · rw [map_append, nodup_append]
        refine ⟨hnodup, nodup_singleton _, ?_⟩
        rintro _ ha _ hb rfl
        obtain ⟨⟨k, e⟩, he, rfl⟩ := mem_map.mp ha
        obtain rfl : k = key := mem_singleton.mp hb
        exact hfresh e he
      · rw [mem_append, mem_singleton, hmem]
        by_cases hp : p.1 = key
        · rw [hp, hv, update_self]
          obtain ⟨k, e⟩ := p
          obtain rfl : k = key := hp
          simp [eq_comm]
        · rw [update_of_ne hp]
          exact or_iff_left fun h => hp (by rw [h])
  | hash map =>
    refine represents_hash fun k => ?_
    have hget : ∀ k, map[k]? = f k := h.get
    rw [Std.HashMap.getElem?_insert, hget]
    by_cases hk : k = key
    · rw [hk, if_pos (by simp), update_self]
    · rw [if_neg (by simpa using Ne.symm hk), update_of_ne hk]

omit [Hashable K] in
theorem findIdx?_inline (hnodup : (entries.map (·.1)).Nodup) {key : K} {index : ℕ}
    (h : entries.findIdx? (·.1 == key) = some index) : ∃ before e after,
      entries = before ++ (key, e) :: after ∧ index = before.length ∧
        ∀ p ∈ before ++ after, p.1 ≠ key := by
  obtain ⟨hlt, hkey, -⟩ := findIdx?_eq_some_iff_getElem.mp h
  have hkey : entries[index].1 = key := by simpa using hkey
  have hsplit : entries = entries.take index ++ (key, entries[index].2) ::
      entries.drop (index + 1) := by
    rw [← hkey, getElem_cons_drop, take_append_drop]
  refine ⟨_, _, _, hsplit, by rw [length_take, Nat.min_eq_left (Nat.le_of_lt hlt)], ?_⟩
  rw [hsplit, map_append, map_cons, nodup_middle, ← map_append] at hnodup
  intro p hp hpkey
  exact (nodup_cons.mp hnodup).1 (mem_map.mpr ⟨p, hp, hpkey⟩)

theorem represents_removeIf (key : K) (generation : ℕ) (h : Represents m f) :
    (m.removeIf key generation).2 = (f key).any (·.generation == generation) ∧
      Represents (m.removeIf key generation).1
        (if (f key).any (·.generation == generation) then update f key none else f) := by
  cases m with
  | inline =>
    obtain ⟨hnodup, hmem⟩ := represents_inline.mp h
    rw [SmallMap.removeIf]
    split
    · next hnone =>
      have hf : f key = none := by
        rw [← h.get, SmallMap.get, map_eq_none_iff, find?_eq_none]
        exact fun p hp => by simpa using findIdx?_eq_none_iff.mp hnone p hp
      rw [hf]
      exact ⟨rfl, h⟩
    · next index hindex =>
      obtain ⟨before, e, after, rfl, rfl, hne⟩ := findIdx?_inline hnodup hindex
      have hf : f key = some e := (hmem (key, e)).mp (by simp)
      rw [hf, getElem?_append_right (Nat.le_refl _), Nat.sub_self, getElem?_cons_zero]
      simp only [any_some]
      split
      · next hgen =>
        refine ⟨hgen.symm, represents_inline.mpr ?_⟩
        have hperm := swapRemove_perm before (key, e) after
        rw [map_append, map_cons, nodup_middle, ← map_append] at hnodup
        refine ⟨((hperm.map _).nodup_iff).mpr (nodup_cons.mp hnodup).2, fun p => ?_⟩
        rw [hperm.mem_iff]
        by_cases hp : p.1 = key
        · rw [hp, update_self]
          exact iff_of_false (fun hp' => hne p hp' hp) nofun
        · rw [update_of_ne hp, ← hmem, mem_append, mem_append, mem_cons]
          refine or_congr Iff.rfl (or_iff_right fun hp' => hp (by rw [hp'])).symm
      · next hgen => exact ⟨(Bool.not_eq_true _ ▸ hgen).symm, h⟩
  | hash map =>
    have hget : ∀ k, map[k]? = f k := h.get
    rw [SmallMap.removeIf, hget]
    split
    · next hgen =>
      refine ⟨hgen.symm, represents_hash fun k => ?_⟩
      rw [Std.HashMap.getElem?_erase, hget]
      by_cases hk : k = key
      · rw [hk, if_pos (by simp), update_self]
      · rw [if_neg (by simpa using Ne.symm hk), update_of_ne hk]
    · next hgen => exact ⟨(Bool.not_eq_true _ ▸ hgen).symm, h⟩

/-! ## The refinement -/

/-- **One operation**: it is possible on both or on neither, and answers the same. -/
theorem apply_represents (h : Represents m f) (op : Op K S) :
    Option.Rel (fun x y => Represents x.1 y.1 ∧ x.2 = y.2) (m.apply op) (applyTo f op) := by
  cases op with
  | insertVacant =>
    rw [SmallMap.apply, applyTo, isVacant_eq, h.get]
    split
    · next hv => exact .some ⟨represents_insert h (isNone_iff_eq_none.mp hv), rfl⟩
    · exact .none
  | get =>
    rw [SmallMap.apply, applyTo, h.get]
    exact .some ⟨h, rfl⟩
  | isVacant =>
    rw [SmallMap.apply, applyTo, isVacant_eq, h.get]
    exact .some ⟨h, rfl⟩
  | removeIf key generation =>
    obtain ⟨hflag, hrep⟩ := represents_removeIf key generation h
    rw [applyTo]
    split
    · next hg =>
      rw [if_pos hg] at hrep
      exact .some ⟨hrep, congrArg Answer.flag (hflag.trans hg)⟩
    · next hg =>
      rw [if_neg hg] at hrep
      exact .some ⟨hrep, congrArg Answer.flag (hflag.trans (Bool.not_eq_true _ ▸ hg))⟩

theorem applyAll_represents (ops : List (Op K S)) : ∀ {m : SmallMap K S} {f}, Represents m f →
    Option.Rel (fun x y => Represents x.1 y.1 ∧ x.2 = y.2) (applyAll SmallMap.apply m ops)
      (applyAll applyTo f ops) := by
  induction ops with
  | nil => exact fun h => .some ⟨h, rfl⟩
  | cons op ops ih =>
    intro m f h
    have hop := apply_represents h op
    rw [applyAll, applyAll]
    generalize m.apply op = x at hop
    generalize applyTo f op = y at hop
    cases hop with
    | none => exact .none
    | some hxy =>
      obtain ⟨hrep, hanswer⟩ := hxy
      have hrest := ih hrep
      simp only [bind_eq_bind, bind_some]
      generalize applyAll SmallMap.apply _ ops = x at hrest
      generalize applyAll applyTo _ ops = y at hrest
      cases hrest with
      | none => exact .none
      | some hxy => exact .some ⟨hxy.1, by rw [hanswer, hxy.2]⟩

/-- **The table refines a finite map**: every list of operations can be carried out on both or on
neither, with the same answers, and the table then holds what the map holds, no key twice. -/
theorem small_map_refines (ops : List (Op K S)) :
    Option.Rel (fun x y => x.2 = y.2 ∧ (∀ key, x.1.get key = y.1 key) ∧ x.1.keys.Nodup)
      (applyAll SmallMap.apply .empty ops) (applyAll applyTo (fun _ => none) ops) := by
  have hempty : Represents (.empty : SmallMap K S) fun _ => none := ⟨fun _ => rfl, nodup_nil⟩
  have hall := applyAll_represents ops hempty
  generalize applyAll SmallMap.apply _ ops = x at hall
  generalize applyAll applyTo _ ops = y at hall
  cases hall with
  | none => exact .none
  | some h => exact .some ⟨h.2, h.1.get, h.1.nodup⟩

end Represents

end Observe.KeyTable
