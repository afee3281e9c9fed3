import Bombay.Observe.Provenance
import Bombay.Observe.Space

/-!
# The generations of one slot keep apart

A slot is recycled on the strength of an `Arc` count, and may pass through the hands of many
subjects.  `Apart` says which slots, table entries and generations go together: a slot has at most
one generation that may still use it, and none while it is in the pool.  The count that lets
`Subject::drop` recycle a slot is one, so nobody but the retiring subject has a handle
(`sole_handle`); and a slot that is left alone like that is reset to a new one (`reset_new`): its
mutex is free, whoever is still in the registry has set `HAS_WAITER`, and an outcome that was
written is valid.
-/

set_option autoImplicit false

namespace Observe

open Machine List Option

variable {K W O : Type}

/-! ## What an operation does -/

theorem isHeld_iff {handles : List (Handle O)} {t : ℕ} :
    (handles[t]?.map Handle.isHeld).getD false ↔ handles[t]? = some .held := by
  cases h : handles[t]? with
  | none => simp
  | some x => cases x <;> simp [Handle.isHeld]

theorem place_iff {places : List (Place W O)} {t : ℕ} {f : Place W O → Bool} :
    (places[t]?.map f).getD false ↔ ∃ p, places[t]? = some p ∧ f p := by
  cases h : places[t]? <;> simp

variable [DecidableEq K] [DecidableEq W]

/-- The operations on a space, by name. -/
inductive Moves (s : Space K W O) : Op K W O → Space K W O → Prop
  | refused (key panics) : Moves s (.subject key panics) s
  | exhausted (key panics n) :
      Moves s (.subject key panics) { s with pool := s.pool.dropLast, nextGeneration := n }
  | lost (key i n slot) (pooled : s.pool = s.pool.dropLast ++ [i]) :
      Moves s (.subject key true)
        { s with pool := s.pool.dropLast, nextGeneration := n, slots := s.slots.set i slot }
  | fresh (key n) (vacant : key ∉ s.map) (empty : s.pool = []) :
      Moves s (.subject key false)
        ({ s with nextGeneration := n, slots := s.slots ++ [Slot.new] }.enroll key s.nextGeneration
          s.slots.length)
  | reused (key i n slot) (vacant : key ∉ s.map)
      (pooled : s.pool = s.pool.dropLast ++ [i]) (here : s.slots[i]? = some slot) :
      Moves s (.subject key false)
        ({ s with pool := s.pool.dropLast, nextGeneration := n,
                  slots := s.slots.set i slot.reset }.enroll key s.nextGeneration i)
  | unknown (key place) (absent : s.map.lookup key = none) : Moves s (.observe key place) s
  /-- A thread runs, or an observer joins. -/
  | ran (op g a G slot w) (scheduled : op.schedule s = some (g, a))
      (generation : s.generations[g]? = some G) (here : s.slots[G.slot]? = some slot)
      (steps : step .shared ⟨slot, G.places⟩ a = some w)
      (entitled : (∃ key entry, s.map.lookup key = some entry ∧ entry.owner = g) ∨
        ∃ t : ℕ, G.handles[t]? = some .held)
      (holds : ∀ t i, a = .run t i → G.handles[t]? = some .held) :
      Moves s op { s with slots := s.slots.set G.slot w.shared
                          generations := s.generations.set g (G.next a w.threads) }
  | released (g t G h p) (generation : s.generations[g]? = some G) (handle : G.handles[t]? = some h)
      (place : G.places[t]? = some p) (may : h = .retiring ∨ h = .held ∧ p.droppable) :
      Moves s (.drop g t) (s.setHandle g t G .released)
  | unwrapped (g t G p)
      (generation : s.generations[g]? = some G) (handle : G.handles[t]? = some .held)
      (place : G.places[t]? = some p) (idle : p.observation) :
      Moves s (.intoOutcome g t) (s.setHandle g t G (.unwrapped none))
  | took (g t G p slot)
      (generation : s.generations[g]? = some G) (handle : G.handles[t]? = some .held)
      (place : G.places[t]? = some p) (idle : p.observation) (last : s.strongCount G.slot = 1)
      (here : s.slots[G.slot]? = some slot) (completed : slot.completed) :
      Moves s (.intoOutcome g t)
        ({ s with slots := s.slots.set G.slot { slot with outcomeValid := false } }.setHandle g t G
          (if slot.outcomeValid then .unwrapped slot.outcome else .failed))
  | retired (g G p) (generation : s.generations[g]? = some G) (handle : G.handles[0]? = some .held)
      (place : G.places[0]? = some p) (idle : p.subject) :
      Moves s (.dropSubject g) (s.dropSubject g G)

section Inversion

variable {s s' : Space K W O} {op : Op K W O}

theorem run_moves {g : ℕ} {a} (h : s.run g a = some s')
    (hop : op.schedule s = some (g, a)) (hentitled : ∀ G, s.generations[g]? = some G →
      (∃ key entry, s.map.lookup key = some entry ∧ entry.owner = g) ∨
        ∃ t : ℕ, G.handles[t]? = some .held)
    (hholds : ∀ G, s.generations[g]? = some G → ∀ t i, a = .run t i → G.handles[t]? = some .held) :
    Moves s op s' := by
  unfold Space.run at h
  split at h
  · cases h
  · next G hG =>
    split at h
    · cases h
    · next slot hslot =>
      split at h
      · cases h
      · next w hw =>
        obtain rfl := some.inj h
        exact .ran op g a G slot w hop hG hslot hw (hentitled G hG) (hholds G hG)

theorem pool_cases (l : List ℕ) :
    l.getLast? = none ∧ l = [] ∨ ∃ i, l.getLast? = some i ∧ l = l.dropLast ++ [i] := by
  rcases eq_nil_or_concat l with rfl | ⟨l, i, rfl⟩
  · exact .inl ⟨rfl, rfl⟩
  · exact .inr ⟨i, by simp⟩

theorem subject_moves {key : K} {panics : Bool} (h : s.subject key panics = some s') :
    Moves s (.subject key panics) s' := by
  unfold Space.subject at h
  dsimp only at h
  split at h
  · have hpool : s.pool.dropLast ++ s.pool.getLast?.toList = s.pool := by
      rcases pool_cases s.pool with ⟨hlast, hpool⟩ | ⟨i, hlast, hpool⟩
      · rw [hpool]
        rfl
      · rw [hlast, toList_some, ← hpool]
    rw [hpool] at h
    obtain rfl := some.inj h
    exact .refused key panics
  · next vacant =>
    split at h
    · obtain rfl := some.inj h
      exact .exhausted key panics _
    · rcases pool_cases s.pool with ⟨hlast, hpool⟩ | ⟨i, hlast, hpool⟩
      · rw [hlast] at h
        dsimp only at h
        cases panics with
        | true => cases h
        | false =>
          obtain rfl := some.inj h
          have hsame : s.pool.dropLast = s.pool := by rw [hpool]; rfl
          simp only [hsame]
          exact .fresh key _ vacant hpool
      · rw [hlast] at h
        dsimp only at h
        split at h
        · cases h
        · next slot hslot =>
          cases panics with
          | true =>
            simp only [if_true] at h
            split at h
            · obtain rfl := some.inj h
              exact .lost key i _ _ hpool
            · cases h
          | false =>
            obtain rfl := some.inj h
            exact .reused key i _ slot vacant hpool hslot

theorem intoOutcome_moves {g t : ℕ} {G} {p : Place W O}
    (h : s.intoOutcome g t G = some s') (hG : s.generations[g]? = some G)
    (hh : G.handles[t]? = some .held) (hp : G.places[t]? = some p) (hidle : p.observation) :
    Moves s (.intoOutcome g t) s' := by
  unfold Space.intoOutcome at h
  split at h
  · next hlast =>
    split at h
    · cases h
    · next slot hslot =>
      dsimp only at h
      split at h
      · next hc =>
        have hrule := Moves.took g t G p slot hG hh hp hidle hlast hslot hc
        split at h
        · next hv =>
          obtain rfl := some.inj h
          rwa [if_pos hv] at hrule
        · next hv =>
          obtain rfl := some.inj h
          rwa [if_neg hv] at hrule
      · obtain rfl := some.inj h
        exact .unwrapped g t G p hG hh hp hidle
  · obtain rfl := some.inj h
    exact .unwrapped g t G p hG hh hp hidle

theorem space_moves (h : s.step op = some s')
    (haligned : ∀ (g : ℕ) G, s.generations[g]? = some G → G.handles.length = G.places.length) :
    Moves s op s' := by
  cases op with
  | subject => exact subject_moves h
  | observe key place =>
    simp only [Space.step] at h
    split at h
    · next habsent =>
      obtain rfl := some.inj h
      exact .unknown key place habsent
    · next entry hentry =>
      exact run_moves h (by simp [Op.schedule, hentry]) (fun G hG => .inl ⟨key, entry, hentry, rfl⟩)
        fun G hG t i => nofun
  | clone _ t =>
    simp only [Space.step] at h
    split at h
    · cases h
    · next G hG =>
      split at h
      · next hmay =>
        refine run_moves h rfl (fun G' hG' => .inr ⟨t, ?_⟩) fun G' hG' t i => nofun
        obtain rfl := some.inj (hG.symm.trans hG')
        exact isHeld_iff.mp hmay.1
      · cases h
  | act g t i =>
    simp only [Space.step] at h
    split at h
    · cases h
    · next G hG =>
      split at h
      · next hmay =>
        have hheld : ∀ G', s.generations[g]? = some G' → G'.handles[t]? = some .held := by
          intro G' hG'
          obtain rfl := some.inj (hG.symm.trans hG')
          exact isHeld_iff.mp hmay
        refine run_moves h rfl (fun G' hG' => .inr ⟨t, hheld G' hG'⟩) ?_
        rintro G' hG' t i ⟨⟩
        exact hheld G' hG'
      · cases h
  | intoOutcome =>
    simp only [Space.step] at h
    split at h
    · cases h
    · next G hG =>
      split at h
      · next hmay =>
        obtain ⟨p, hp, hidle⟩ := place_iff.mp hmay.2
        exact intoOutcome_moves h hG (isHeld_iff.mp hmay.1) hp hidle
      · cases h
  | drop g t =>
    simp only [Space.step] at h
    split at h
    · cases h
    · next G hG =>
      split at h
      · next hh =>
        obtain rfl := some.inj h
        have hlt : t < G.places.length :=
          haligned g G hG ▸ lt_of_get hh
        exact .released g t G .retiring _ hG hh (getElem?_eq_getElem hlt) (.inl rfl)
      · next hh =>
        split at h
        · next hmay =>
          obtain rfl := some.inj h
          obtain ⟨p, hp, hdrop⟩ := place_iff.mp hmay
          exact .released g t G .held p hG hh hp (.inr ⟨rfl, hdrop⟩)
        · cases h
      · cases h
  | dropSubject g =>
    simp only [Space.step] at h
    split at h
    · cases h
    · next G hG =>
      split at h
      · next hmay =>
        obtain rfl := some.inj h
        obtain ⟨p, hp, hidle⟩ := place_iff.mp hmay.2
        exact .retired g G p hG (isHeld_iff.mp hmay.1) hp hidle
      · cases h

end Inversion

/-! ## Generations of one slot keep apart -/

/-- Somebody may still use the slot. -/
def Generation.Active (G : Generation K W O) : Prop := ∃ t : ℕ, G.handles[t]? = some .held

/-- A place at which a thread may have no handle. -/
def Place.quiet (p : Place W O) : Bool := p.droppable || p.subject

/-- Which slots, table entries and generations go together. -/
structure Apart (s : Space K W O) : Prop where
  aligned : ∀ (g : ℕ) G, s.generations[g]? = some G → G.handles.length = G.places.length
  allocated : ∀ (g : ℕ) G, s.generations[g]? = some G → G.slot < s.slots.length
  mapped : ∀ key entry, s.map.lookup key = some entry → ∃ G, s.generations[entry.owner]? = some G ∧
    G.key = key ∧ G.slot = entry.slot ∧ G.generation = entry.generation ∧
    G.handles[0]? = some .held
  live : ∀ (g : ℕ) G, s.generations[g]? = some G → G.handles[0]? = some .held →
    ∃ entry, s.map.lookup G.key = some entry ∧ entry.owner = g
  /-- A slot has at most one generation that may use it, -/
  exclusive : ∀ (g g' : ℕ) G G', s.generations[g]? = some G → s.generations[g']? = some G' →
    G.Active → G'.Active → G.slot = G'.slot → g = g'
  /-- and none while it is in the pool, -/
  unused : ∀ i ∈ s.pool, ∀ (g : ℕ) G, s.generations[g]? = some G → G.Active → G.slot ≠ i
  /-- where it waits to be as good as new. -/
  pristine : ∀ i ∈ s.pool, ∃ slot, s.slots[i]? = some slot ∧ slot.reset = Slot.new
  nodup : s.pool.Nodup
  bounded : s.pool.length ≤ slotPoolCap
  quiet : ∀ (g t : ℕ) G h p, s.generations[g]? = some G → G.handles[t]? = some h →
    G.places[t]? = some p → h.isHeld = false → p.quiet

section Apart

variable {s : Space K W O}

omit [DecidableEq W]

theorem Apart.shrink (h : Apart s) {pool : List ℕ} (hsub : pool.Sublist s.pool) (n : ℕ) :
    Apart { s with pool := pool, nextGeneration := n } :=
  ⟨h.aligned, h.allocated, h.mapped, h.live, h.exclusive, fun j hj => h.unused j (hsub.subset hj),
    fun j hj => h.pristine j (hsub.subset hj), h.nodup.sublist hsub, hsub.length_le.trans h.bounded,
    h.quiet⟩

theorem Apart.setSlot (h : Apart s) {i : ℕ} (hpool : i ∉ s.pool) (slot : Slot W O) :
    Apart { s with slots := s.slots.set i slot } := by
  refine ⟨h.aligned, fun g G hG => ?_, h.mapped, h.live, h.exclusive, h.unused, fun j hj => ?_,
    h.nodup, h.bounded, h.quiet⟩
  · simpa using h.allocated g G hG
  · obtain ⟨x, hx, hreset⟩ := h.pristine j hj
    have hne : i ≠ j := fun heq => hpool (heq ▸ hj)
    exact ⟨x, (getElem?_set_ne hne).trans hx, hreset⟩

theorem Apart.popped (h : Apart s) {i : ℕ} (hpool : s.pool = s.pool.dropLast ++ [i]) :
    i ∈ s.pool ∧ i ∉ s.pool.dropLast := by
  have hnodup := h.nodup
  rw [hpool] at hnodup
  refine ⟨hpool ▸ mem_append_right _ (mem_singleton_self i), fun hi => ?_⟩
  exact (nodup_append.mp hnodup).2.2 i hi i (mem_singleton_self i) rfl

theorem Apart.allocate (h : Apart s) (n : ℕ) (slot : Slot W O) :
    Apart { s with nextGeneration := n, slots := s.slots ++ [slot] } := by
  refine ⟨h.aligned, fun g G hG => ?_, h.mapped, h.live, h.exclusive, h.unused, fun j hj => ?_,
    h.nodup, h.bounded, h.quiet⟩
  · have := h.allocated g G hG
    simp only [length_append]
    omega
  · obtain ⟨x, hx, hreset⟩ := h.pristine j hj
    have hlt := lt_of_get hx
    exact ⟨x, (getElem?_append_left hlt).trans hx, hreset⟩

theorem Apart.enroll (h : Apart s) {key : K} {n i : ℕ} (hvacant : key ∉ s.map)
    (hi : i < s.slots.length) (hpool : i ∉ s.pool)
    (hunused : ∀ (g : ℕ) G, s.generations[g]? = some G → G.Active → G.slot ≠ i) :
    Apart (s.enroll key n i) := by
  have hnone : s.map.lookup key = none := AList.lookup_eq_none.mpr hvacant
  have hold {g : ℕ} {G : Generation K W O} (hG : s.generations[g]? = some G) :
      (s.enroll key n i).generations[g]? = some G :=
    (getElem?_append_left (lt_of_get hG)).trans hG
  have hnew : (s.enroll key n i).generations[s.generations.length]? =
      some ⟨key, n, i, [.publisher], [.held]⟩ := getElem?_concat_length ..
  refine ⟨fun g G hG => ?_, fun g G hG => ?_, fun key' entry he => ?_, fun g G hG hlive => ?_,
    fun g g' G G' hG hG' ha ha' hslot => ?_, fun j hj g G hG ha => ?_, h.pristine, h.nodup,
    h.bounded, fun g t G x p hG hx hp hheld => ?_⟩
  · rcases of_joined hG with hG | ⟨-, rfl⟩
    · exact h.aligned g G hG
    · rfl
  · rcases of_joined hG with hG | ⟨-, rfl⟩
    · exact h.allocated g G hG
    · exact hi
  · by_cases hkey : key' = key
    · subst hkey
      obtain rfl := some.inj ((AList.lookup_insert ..).symm.trans he)
      exact ⟨_, hnew, rfl, rfl, rfl, rfl⟩
    · obtain ⟨G, hG, hrest⟩ := h.mapped key' entry ((AList.lookup_insert_ne hkey).symm.trans he)
      exact ⟨G, hold hG, hrest⟩
  · rcases of_joined hG with hG | ⟨rfl, rfl⟩
    · obtain ⟨entry, he, howner⟩ := h.live g G hG hlive
      have hkey : G.key ≠ key := by
        intro hkey
        rw [hkey, hnone] at he
        cases he
      exact ⟨entry, (AList.lookup_insert_ne hkey).trans he, howner⟩
    · exact ⟨_, AList.lookup_insert .., rfl⟩
  · rcases of_joined hG with hG | ⟨rfl, rfl⟩
    · rcases of_joined hG' with hG' | ⟨rfl, rfl⟩
      · exact h.exclusive g g' G G' hG hG' ha ha' hslot
      · exact absurd hslot (hunused g G hG ha)
    · rcases of_joined hG' with hG' | ⟨rfl, rfl⟩
      · exact absurd hslot.symm (hunused g' G' hG' ha')
      · rfl
  · rcases of_joined hG with hG | ⟨rfl, rfl⟩
    · exact h.unused j hj g G hG ha
    · rintro rfl
      exact hpool hj
  · rcases of_joined hG with hG | ⟨rfl, rfl⟩
    · exact h.quiet g t G x p hG hx hp hheld
    · obtain rfl := mem_singleton.mp (mem_of_getElem? hx)
      cases hheld

theorem Apart.active (h : Apart s) {g : ℕ} {G} (hG : s.generations[g]? = some G)
    (hentitled : (∃ key entry, s.map.lookup key = some entry ∧ entry.owner = g) ∨
      ∃ t : ℕ, G.handles[t]? = some .held) : G.Active := by
  rcases hentitled with ⟨key, entry, he, rfl⟩ | hheld
  · obtain ⟨G', hG', -, -, -, hlive⟩ := h.mapped key entry he
    obtain rfl := some.inj (hG.symm.trans hG')
    exact ⟨0, hlive⟩
  · exact hheld

section Handles

variable {g t : ℕ} {G : Generation K W O} {x : Handle O}

omit [DecidableEq K] in
theorem Generation.Active.of_set (hx : x.isHeld = false)
    (h : ({ G with handles := G.handles.set t x } : Generation K W O).Active) : G.Active := by
  obtain ⟨u, hu⟩ := h
  rcases of_moved hu with ⟨rfl, rfl⟩ | ⟨-, hu⟩
  · cases hx
  · exact ⟨u, hu⟩

theorem Apart.of_setHandle (hx : x.isHeld = false) (hG : s.generations[g]? = some G) {g' : ℕ}
    {G'} (hG' : (s.setHandle g t G x).generations[g']? = some G') :
    ∃ G₀, s.generations[g']? = some G₀ ∧ G'.slot = G₀.slot ∧ G'.key = G₀.key ∧
      G'.places = G₀.places ∧ G'.handles.length = G₀.handles.length ∧ (G'.Active → G₀.Active) := by
  rcases of_moved hG' with ⟨rfl, rfl⟩ | ⟨-, hG'⟩
  · exact ⟨G, hG, rfl, rfl, rfl, by simp, Generation.Active.of_set hx⟩
  · exact ⟨G', hG', rfl, rfl, rfl, rfl, id⟩

/-- A handle is given up.  The table is told if it is the handle of a live subject. -/
theorem Apart.setHandle (h : Apart s) (map : AList fun _ : K => SlotEntry) {p : Place W O}
    (hG : s.generations[g]? = some G) (hp : G.places[t]? = some p) (hquiet : p.quiet)
    (hx : x.isHeld = false)
    (hmap : map = s.map ∧ (t = 0 → G.handles[0]? ≠ some .held) ∨ t = 0 ∧ map = s.map.erase G.key ∧
      G.handles[0]? = some .held) :
    Apart ({ s with map := map }.setHandle g t G x) := by
  have hlt := lt_of_get hG
  -- the only entry of the table that may go is the one of this generation
  have hlookup {key : K} {entry : SlotEntry} (he : map.lookup key = some entry) :
      s.map.lookup key = some entry ∧ (t = 0 → entry.owner ≠ g) := by
    rcases hmap with ⟨rfl, hfirst⟩ | ⟨rfl, rfl, hlive⟩
    · refine ⟨he, fun ht hg => ?_⟩
      obtain ⟨G', hG', -, -, -, hheld⟩ := h.mapped key entry he
      obtain rfl := some.inj ((hg ▸ hG).symm.trans hG')
      exact hfirst ht hheld
    · have hkey : key ≠ G.key := by
        rintro rfl
        rw [AList.lookup_erase] at he
        cases he
      have he' := (AList.lookup_erase_ne hkey).symm.trans he
      refine ⟨he', fun _ hg => ?_⟩
      obtain ⟨G', hG', hk, -⟩ := h.mapped key entry he'
      obtain rfl := some.inj ((hg ▸ hG).symm.trans hG')
      exact hkey hk.symm
  refine ⟨fun g' G' hG' => ?_, fun g' G' hG' => ?_, fun key entry he => ?_,
    fun g' G' hG' hlive => ?_, fun g₁ g₂ G₁ G₂ h₁ h₂ ha₁ ha₂ heq => ?_, fun j hj g' G' hG' ha => ?_,
    h.pristine, h.nodup, h.bounded, fun g' u G' y q hG' hy hq hheld => ?_⟩
  · obtain ⟨G₀, hG₀, -, -, hpl, hlen, -⟩ := Apart.of_setHandle hx hG hG'
    rw [hlen, hpl]
    exact h.aligned g' G₀ hG₀
  · obtain ⟨G₀, hG₀, hslot, -⟩ := Apart.of_setHandle hx hG hG'
    rw [hslot]
    exact h.allocated g' G₀ hG₀
  · obtain ⟨he', hne⟩ := hlookup he
    obtain ⟨G', hG', hk, hs, hn, hheld⟩ := h.mapped key entry he'
    by_cases hg : entry.owner = g
    · have ht : t ≠ 0 := fun ht => hne ht hg
      subst hg
      obtain rfl := some.inj (hG.symm.trans hG')
      exact ⟨_, getElem?_set_self hlt, hk, hs, hn, (getElem?_set_ne ht).trans hheld⟩
    · exact ⟨G', (getElem?_set_ne (Ne.symm hg)).trans hG', hk, hs, hn, hheld⟩
  · rcases of_moved hG' with ⟨rfl, rfl⟩ | ⟨hg, hG'⟩
    · rcases of_moved hlive with ⟨-, rfl⟩ | ⟨ht, hlive⟩
      · cases hx
      · rcases hmap with ⟨rfl, -⟩ | ⟨rfl, -⟩
        · exact h.live g' G hG hlive
        · exact absurd rfl ht
    · obtain ⟨entry, he, howner⟩ := h.live g' G' hG' hlive
      rcases hmap with ⟨rfl, -⟩ | ⟨-, rfl, hheld⟩
      · exact ⟨entry, he, howner⟩
      · have hkey : G'.key ≠ G.key := by
          intro hkey
          obtain ⟨entry', he', howner'⟩ := h.live g G hG hheld
          rw [hkey, he'] at he
          obtain rfl := some.inj he
          exact hg (howner.symm.trans howner')
        exact ⟨entry, (AList.lookup_erase_ne hkey).trans he, howner⟩
  · obtain ⟨G₁', h₁', hs₁, -, -, -, hact₁⟩ := Apart.of_setHandle hx hG h₁
    obtain ⟨G₂', h₂', hs₂, -, -, -, hact₂⟩ := Apart.of_setHandle hx hG h₂
    exact h.exclusive g₁ g₂ G₁' G₂' h₁' h₂' (hact₁ ha₁) (hact₂ ha₂) (hs₁.symm.trans (heq.trans hs₂))
  · obtain ⟨G₀, hG₀, hslot, -, -, -, hact⟩ := Apart.of_setHandle hx hG hG'
    rw [hslot]
    exact h.unused j hj g' G₀ hG₀ (hact ha)
  · rcases of_moved hG' with ⟨rfl, rfl⟩ | ⟨-, hG'⟩
    · rcases of_moved hy with ⟨rfl, rfl⟩ | ⟨-, hy⟩
      · obtain rfl := some.inj (hp.symm.trans hq)
        exact hquiet
      · exact h.quiet g' u G y q hG hy hq hheld
    · exact h.quiet g' u G' y q hG' hy hq hheld

theorem sole_handle (hG : s.generations[g]? = some G) (hh : G.handles[t]? = some .held)
    (hcount : s.strongCount G.slot = 1) :
    G.slot ∉ s.pool ∧ (∀ u, G.handles[u]? = some .held → u = t) ∧
      ∀ g' G', s.generations[g']? = some G' → G'.Active → G'.slot = G.slot → g' = g := by
  have hheld : ∀ {G' : Generation K W O} {u : ℕ}, G'.handles[u]? = some .held → 1 ≤ G'.strong := by
    intro G' u hu
    exact le_total (fun h : Handle O => if h.counts then 1 else 0) hu
  have hown := hheld hh
  have htotal :=
    le_total (fun G' : Generation K W O => if G'.slot = G.slot then G'.strong else 0) hG
  simp only [if_true] at htotal
  unfold Space.strongCount at hcount
  refine ⟨fun hmem => ?_, fun u hu => ?_, fun g' G' hG' hactive hslot => ?_⟩
  · have := count_pos_iff.mpr hmem
    omega
  · by_contra hne
    have htwo := add_le_total (fun h : Handle O => if h.counts then 1 else 0) hu hh hne
    change 1 + 1 ≤ G.strong at htwo
    omega
  · by_contra hne
    obtain ⟨u, hu⟩ := hactive
    have htwo :=
      add_le_total (fun G' : Generation K W O => if G'.slot = G.slot then G'.strong else 0) hG' hG
        hne
    have := hheld hu
    simp only [hslot, if_true] at htwo
    omega

theorem Apart.push (h : Apart s) {i : ℕ} {slot : Slot W O} (hpool : i ∉ s.pool)
    (hcap : s.pool.length < slotPoolCap)
    (hunused : ∀ (g : ℕ) G, s.generations[g]? = some G → G.Active → G.slot ≠ i)
    (hslot : s.slots[i]? = some slot) (hreset : slot.reset = Slot.new) :
    Apart { s with pool := s.pool ++ [i] } := by
  refine ⟨h.aligned, h.allocated, h.mapped, h.live, h.exclusive, fun j hj => ?_, fun j hj => ?_, ?_,
    ?_, h.quiet⟩
  · rcases mem_append.mp hj with hj | hj
    · exact h.unused j hj
    · obtain rfl := mem_singleton.mp hj
      exact hunused
  · rcases mem_append.mp hj with hj | hj
    · exact h.pristine j hj
    · obtain rfl := mem_singleton.mp hj
      exact ⟨slot, hslot, hreset⟩
  · refine nodup_append.mpr ⟨h.nodup, nodup_singleton i, fun a ha b hb => ?_⟩
    obtain rfl := mem_singleton.mp hb
    exact ne_of_mem_of_not_mem ha hpool
  · simp only [length_append, length_singleton]
    omega

end Handles

end Apart

theorem Apart.ran {s : Space K W O} (h : Apart s) {g : ℕ} {a} {G} {slot : Slot W O} {w}
    (hG : s.generations[g]? = some G) (hsteps : step .shared ⟨slot, G.places⟩ a = some w)
    (hactive : G.Active) (hholds : ∀ t i, a = .run t i → G.handles[t]? = some .held) :
    Apart { s with slots := s.slots.set G.slot w.shared
                   generations := s.generations.set g (G.next a w.threads) } := by
  have hlt := lt_of_get hG
  have hslot : (G.next a w.threads).slot = G.slot := by cases a <;> rfl
  have hkey : (G.next a w.threads).key = G.key := by cases a <;> rfl
  have hgen : (G.next a w.threads).generation = G.generation := by cases a <;> rfl
  have hhandle {t : ℕ} {x : Handle O} (hx : (G.next a w.threads).handles[t]? = some x) :
      G.handles[t]? = some x ∨ x = .held := by
    cases a with
    | call => exact (of_joined hx).imp id And.right
    | run => exact .inl hx
  have hkeeps {t : ℕ} {x : Handle O} (hx : G.handles[t]? = some x) :
      (G.next a w.threads).handles[t]? = some x := by
    cases a with
    | call => exact (getElem?_append_left (lt_of_get hx)).trans hx
    | run => exact hx
  have hfirst (h0 : (G.next a w.threads).handles[0]? = some .held) :
      G.handles[0]? = some .held := by
    cases a with
    | call =>
      obtain ⟨t, ht⟩ := hactive
      have hpos := lt_of_get ht
      exact (of_joined h0).elim id fun h => absurd h.1 (by omega)
    | run => exact h0
  refine ⟨fun g' G' hG' => ?_, fun g' G' hG' => ?_, fun key entry he => ?_,
    fun g' G' hG' hlive => ?_, fun g₁ g₂ G₁ G₂ h₁ h₂ ha₁ ha₂ heq => ?_, fun j hj g' G' hG' ha => ?_,
    fun j hj => ?_, h.nodup, h.bounded, fun g' t G' x p hG' hx hp hheld => ?_⟩
  · rcases of_moved hG' with ⟨rfl, rfl⟩ | ⟨-, hG'⟩
    · have hal := h.aligned g' G hG
      rcases step_cases hsteps with ⟨p, rfl, -, rfl⟩ | ⟨u, i, p, s1, p', rfl, -, -, rfl⟩
      all_goals simp [Generation.next, hal]
    · exact h.aligned g' G' hG'
  · rcases of_moved hG' with ⟨rfl, rfl⟩ | ⟨-, hG'⟩
    · rw [hslot]
      simpa using h.allocated g' G hG
    · simpa using h.allocated g' G' hG'
  · obtain ⟨G', hG', hrest⟩ := h.mapped key entry he
    by_cases hg : entry.owner = g
    · subst hg
      obtain rfl := some.inj (hG.symm.trans hG')
      refine ⟨_, getElem?_set_self hlt, ?_⟩
      rw [hslot, hkey, hgen]
      exact ⟨hrest.1, hrest.2.1, hrest.2.2.1, hkeeps hrest.2.2.2⟩
    · exact ⟨G', (getElem?_set_ne (Ne.symm hg)).trans hG', hrest⟩
  · rcases of_moved hG' with ⟨rfl, rfl⟩ | ⟨-, hG'⟩
    · rw [hkey]
      exact h.live g' G hG (hfirst hlive)
    · exact h.live g' G' hG' hlive
  · have hback {g' : ℕ} {G' : Generation K W O}
        (hG' : (s.generations.set g (G.next a w.threads))[g']? = some G') (ha : G'.Active) :
        ∃ G₀, s.generations[g']? = some G₀ ∧ G₀.Active ∧ G₀.slot = G'.slot := by
      rcases of_moved hG' with ⟨rfl, rfl⟩ | ⟨-, hG'⟩
      · exact ⟨G, hG, hactive, hslot.symm⟩
      · exact ⟨G', hG', ha, rfl⟩
    obtain ⟨G₁', h₁', ha₁', hs₁⟩ := hback h₁ ha₁
    obtain ⟨G₂', h₂', ha₂', hs₂⟩ := hback h₂ ha₂
    exact h.exclusive g₁ g₂ G₁' G₂' h₁' h₂' ha₁' ha₂' (hs₁.trans (heq.trans hs₂.symm))
  · rcases of_moved hG' with ⟨rfl, rfl⟩ | ⟨-, hG'⟩
    · rw [hslot]
      exact h.unused j hj g' G hG hactive
    · exact h.unused j hj g' G' hG' ha
  · obtain ⟨x, hx, hreset⟩ := h.pristine j hj
    exact ⟨x, (getElem?_set_ne (h.unused j hj g G hG hactive)).trans hx, hreset⟩
  · rcases of_moved hG' with ⟨rfl, rfl⟩ | ⟨-, hG'⟩
    · have hx' : G.handles[t]? = some x := by
        rcases hhandle hx with hx | rfl
        · exact hx
        · cases hheld
      refine h.quiet g' t G x p hG hx' ?_ hheld
      rcases step_cases hsteps with ⟨q, rfl, -, rfl⟩ | ⟨u, i, q, s1, q', rfl, -, -, rfl⟩
      · have hlen : t < G.places.length := h.aligned g' G hG ▸ (lt_of_get hx')
        exact (getElem?_append_left hlen).symm.trans hp
      · have hne : u ≠ t := by
          rintro rfl
          obtain rfl := some.inj ((hholds u i rfl).symm.trans hx')
          cases hheld
        exact (getElem?_set_ne hne).symm.trans hp
    · exact h.quiet g' t G' x p hG' hx hp hheld

theorem reset_new {tr : SlotHistory W O} {w : Pool (Slot W O) (Place W O)}
    (h : SlotRun .shared tr w)
    (hquiet : ∀ (t : ℕ) p, w.threads[t]? = some p → p.quiet) : w.shared.reset = Slot.new := by
  have hg := ground_run h
  have hw := handshake_run h
  have hk := kept_run h
  have hholder : w.shared.holder = none := by
    by_contra hne
    obtain ⟨t, ht⟩ := ne_none_iff_exists'.mp hne
    obtain ⟨p, hp⟩ : ∃ p, w.threads[t]? = some p := ⟨_, getElem?_eq_getElem (hg.holder t ht)⟩
    have hin := (hg.fits t p hp).inside.mpr ht
    have hq := hquiet t p hp
    cases p <;> simp_all [Place.quiet, Place.droppable, Place.subject]
  have hwait : w.shared.hasWaiter = false → w.shared.waiters = [] := by
    intro hno
    by_contra hne
    rw [hw.announced hne] at hno
    cases hno
  have houtcome : w.shared.outcomeValid = false → w.shared.outcome = none := by
    intro hno
    by_contra hne
    rcases hk.early (isSome_iff_ne_none.mpr hne) with hc | hmark
    · rw [hk.valid hc] at hno
      cases hno
    · cases hquiet 0 _ hmark
  unfold Slot.reset Slot.new
  rw [hholder]
  cases hv : w.shared.outcomeValid <;> cases hh : w.shared.hasWaiter <;>
    simp [hwait, houtcome, hv, hh]

end Observe
