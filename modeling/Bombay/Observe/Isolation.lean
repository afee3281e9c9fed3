import Bombay.Observe.Generations

/-!
# Generations are isolated

No generation can tell that its slot has been used before, or is used again: what happens at the
slot of a generation between its beginning and its end is a history of a *new* slot with that
generation alone.  All that is known of a single slot then holds for each generation by itself, and
in particular where its outcomes and its notices come from.
-/

set_option autoImplicit false

namespace Observe

open Machine List Option

variable {K W O : Type} [DecidableEq K]

/-! ## Each generation is alone at its slot -/

/-- A step of the space as the generation `g` sees it. -/
def project (g : ℕ) (x : Transition (Space K W O) (Op K W O)) :
    Option (Transition (Pool (Slot W O) (Place W O)) (Schedule (Place W O) (Input W O))) :=
  match x.input.schedule x.source, x.source.view g, x.target.view g with
  | some (g', a), some v, some w => if g' = g then some ⟨v, a, w⟩ else none
  | _, _, _ => none

/-- The history of the space as the generation `g` sees it. -/
def seen (g : ℕ) (tr : SpaceHistory K W O) : SlotHistory W O := tr.filterMap (project g)

variable {s s' : Space K W O} {tr : SpaceHistory K W O} {op : Op K W O} {g : ℕ}

theorem seen_snoc (g : ℕ) (tr : SpaceHistory K W O) (x : Transition (Space K W O) (Op K W O)) :
    seen g (tr ++ [x]) = seen g tr ++ (project g x).toList := by
  unfold seen
  cases h : project g x <;> simp [h]

theorem seen_silent (tr : SpaceHistory K W O) (s' : Space K W O) (g : ℕ)
    (h : op.schedule s = none) :
    seen g (tr ++ [⟨s, op, s'⟩]) = seen g tr := by
  have hnone : project g ⟨s, op, s'⟩ = none := by
    unfold project
    dsimp only
    rw [h]
  rw [seen_snoc, hnone, toList_none, append_nil]

theorem mem_seen {y} (h : y ∈ seen g tr) : ∃ x ∈ tr, x.input.schedule x.source = some (g, y.input) ∧
      x.source.view g = some y.source := by
  obtain ⟨x, hx, hproject⟩ := mem_filterMap.mp h
  refine ⟨x, hx, ?_⟩
  unfold project at hproject
  split at hproject
  · next hop hv hw =>
    split at hproject
    · next hg =>
      subst hg
      obtain rfl := some.inj hproject
      exact ⟨hop, hv⟩
    · cases hproject
  · cases hproject

theorem schedule_run {op : Op K W O} {t : ℕ} {i : Input W O}
    (h : op.schedule s = some (g, .run t i)) : op = .act g t i := by
  cases op with
  | observe =>
    simp only [Op.schedule] at h
    split at h <;> simp at h
  | act =>
    obtain ⟨rfl, hrun⟩ := Prod.mk.inj (some.inj h)
    cases hrun
    rfl
  | _ => simp [Op.schedule] at h

theorem apart_new : Apart (Space.new : Space K W O) := by
  have hnil (g : ℕ) (G : Generation K W O) :
      (Space.new : Space K W O).generations[g]? ≠ some G := nofun
  refine ⟨fun g G hG => absurd hG (hnil g G), fun g G hG => absurd hG (hnil g G),
    fun key entry he => ?_, fun g G hG => absurd hG (hnil g G),
    fun g g' G G' hG => absurd hG (hnil g G), nofun, nofun, nodup_nil, Nat.zero_le _,
    fun g t G h p hG => absurd hG (hnil g G)⟩
  cases (AList.lookup_empty key).symm.trans he

variable [DecidableEq W]

/-- Each generation is alone with a slot that was new when it began. -/
structure Alone (tr : SpaceHistory K W O) (s : Space K W O) : Prop where
  alone : ∀ (g : ℕ) G, s.generations[g]? = some G → ∃ w, SlotRun .shared (seen g tr) w ∧
    w.threads = G.places ∧ (G.Active → s.slots[G.slot]? = some w.shared)
  fresh : ∀ g, s.generations.length ≤ g → seen g tr = []
  outcomes : ∀ (g t : ℕ) G outcome, s.generations[g]? = some G →
    G.handles[t]? = some (.unwrapped (some outcome)) → Publishes (seen g tr) outcome
  unfailing : ∀ (g t : ℕ) G, s.generations[g]? = some G → G.handles[t]? ≠ some .failed

section Alone

/-- An operation that leads to no slot leaves the generations as they are, but for some handles and
for slots that nobody uses. -/
theorem Alone.silent (h : Alone tr s) (hop : op.schedule s = none)
    (hlen : s'.generations.length = s.generations.length)
    (hback : ∀ (g : ℕ) G', s'.generations[g]? = some G' → ∃ G, s.generations[g]? = some G ∧
      G'.places = G.places ∧ G'.slot = G.slot ∧ (G'.Active → G.Active) ∧
      (G'.Active → s'.slots[G.slot]? = s.slots[G.slot]?) ∧
      (∀ (t : ℕ) o, G'.handles[t]? = some (.unwrapped (some o)) →
        G.handles[t]? = some (.unwrapped (some o)) ∨ Publishes (seen g tr) o) ∧
      ∀ t : ℕ, G'.handles[t]? = some .failed → G.handles[t]? = some .failed) :
    Alone (tr ++ [⟨s, op, s'⟩]) s' := by
  refine ⟨fun g G' hG' => ?_, fun g hg => ?_, fun g t G' o hG' ho => ?_, fun g t G' hG' hf => ?_⟩
  · obtain ⟨G, hG, hplaces, hslot, hactive, hsame, -⟩ := hback g G' hG'
    obtain ⟨w, hrun, hthr, hhere⟩ := h.alone g G hG
    refine ⟨w, (seen_silent tr s' g hop).symm ▸ hrun, hthr.trans hplaces.symm, fun ha => ?_⟩
    rw [hslot, hsame ha]
    exact hhere (hactive ha)
  · rw [seen_silent tr s' g hop]
    exact h.fresh g (hlen ▸ hg)
  · obtain ⟨G, hG, -, -, -, -, hout, -⟩ := hback g G' hG'
    rw [seen_silent tr s' g hop]
    exact (hout t o ho).elim (h.outcomes g t G o hG) id
  · obtain ⟨G, hG, -, -, -, -, -, hfail⟩ := hback g G' hG'
    exact h.unfailing g t G hG (hfail t hf)

theorem Alone.enroll {s₁ : Space K W O} (h : Alone tr s) {key : K} {panics : Bool} {n i : ℕ}
    (hgens : s₁.generations = s.generations)
    (hslots : ∀ (g : ℕ) G, s.generations[g]? = some G → G.Active →
      s₁.slots[G.slot]? = s.slots[G.slot]?)
    (hnew : s₁.slots[i]? = some Slot.new) :
    Alone (tr ++ [⟨s, .subject key panics, s₁.enroll key n i⟩]) (s₁.enroll key n i) := by
  have hsilent (g : ℕ) := seen_silent tr (s₁.enroll key n i) g
    (show (Op.subject key panics : Op K W O).schedule s = none from rfl)
  have hcases {g : ℕ} {G : Generation K W O} (hG : (s₁.enroll key n i).generations[g]? = some G) :
      s.generations[g]? = some G ∨ g = s.generations.length ∧
        G = ⟨key, n, i, [.publisher], [.held]⟩ := hgens ▸ of_joined hG
  refine ⟨fun g G hG => ?_, fun g hg => ?_, fun g t G o hG ho => ?_, fun g t G hG hf => ?_⟩
  · rw [hsilent]
    rcases hcases hG with hG | ⟨rfl, rfl⟩
    · obtain ⟨w, hrun, hthr, hhere⟩ := h.alone g G hG
      exact ⟨w, hrun, hthr, fun ha => (hslots g G hG ha).trans (hhere ha)⟩
    · rw [h.fresh _ (Nat.le_refl _)]
      exact ⟨start .shared, .refl, rfl, fun _ => hnew⟩
  · rw [hsilent]
    refine h.fresh g ?_
    simp only [Space.enroll, length_append, hgens] at hg
    omega
  · rw [hsilent]
    rcases hcases hG with hG | ⟨rfl, rfl⟩
    · exact h.outcomes g t G o hG ho
    · cases mem_singleton.mp (mem_of_getElem? ho)
  · rcases hcases hG with hG | ⟨rfl, rfl⟩
    · exact h.unfailing g t G hG hf
    · cases mem_singleton.mp (mem_of_getElem? hf)

variable {g : ℕ} {G : Generation K W O}

/-- A generation works on its slot: it sees the step, and nobody else does. -/
theorem Alone.ran (h : Alone tr s) (hs : Apart s) {a}
    {slot : Slot W O} {w}
    (hop : op.schedule s = some (g, a)) (hG : s.generations[g]? = some G)
    (hhere : s.slots[G.slot]? = some slot) (hsteps : step .shared ⟨slot, G.places⟩ a = some w)
    (hactive : G.Active) (hs' : s' = { s with
      slots := s.slots.set G.slot w.shared
      generations := s.generations.set g (G.next a w.threads) }) :
    Alone (tr ++ [⟨s, op, s'⟩]) s' := by
  have hlt := lt_of_get hG
  have hltslot : G.slot < s.slots.length := hs.allocated g G hG
  have hslot : (G.next a w.threads).slot = G.slot := by cases a <;> rfl
  have hplaces : (G.next a w.threads).places = w.threads := by cases a <;> rfl
  have hbefore : s.view g = some ⟨slot, G.places⟩ := by simp [Space.view, hG, hhere]
  have hafter : s'.view g = some w := by
    subst hs'
    simp [Space.view, getElem?_set_self hlt, hslot, hplaces, getElem?_set_self hltslot]
  have hseen : seen g (tr ++ [⟨s, op, s'⟩]) = seen g tr ++ [⟨⟨slot, G.places⟩, a, w⟩] := by
    simp [seen_snoc, project, hop, hbefore, hafter]
  have hother {g' : ℕ} (hne : g' ≠ g) : seen g' (tr ++ [⟨s, op, s'⟩]) = seen g' tr := by
    have hnone : project g' ⟨s, op, s'⟩ = none := by
      unfold project
      dsimp only
      rw [hop]
      split
      · next heq _ _ =>
        obtain ⟨rfl, rfl⟩ := Prod.mk.inj (some.inj heq)
        exact if_neg (Ne.symm hne)
      · rfl
    rw [seen_snoc, hnone, toList_none, append_nil]
  have hhandles {t : ℕ} {x : Handle O} (hx : (G.next a w.threads).handles[t]? = some x) :
      G.handles[t]? = some x ∨ x = .held := by
    cases a with
    | call => exact (of_joined hx).imp id And.right
    | run => exact .inl hx
  obtain ⟨w₀, hrun, hthr, hshared⟩ := h.alone g G hG
  have hw₀ : w₀ = ⟨slot, G.places⟩ := by
    cases w₀
    obtain rfl := some.inj ((hshared hactive).symm.trans hhere)
    obtain rfl := hthr
    rfl
  subst hw₀
  refine ⟨fun g' G' hG' => ?_, fun g' hg' => ?_, fun g' t G' o hG' ho => ?_,
    fun g' t G' hG' hf => ?_⟩
  · subst hs'
    rcases of_moved hG' with ⟨rfl, rfl⟩ | ⟨hne, hG'⟩
    · rw [hseen]
      refine ⟨w, hrun.snoc hsteps, hplaces.symm, fun _ => ?_⟩
      rw [hslot]
      exact getElem?_set_self hltslot
    · rw [hother hne]
      obtain ⟨w', hrun', hthr', hshared'⟩ := h.alone g' G' hG'
      refine ⟨w', hrun', hthr', fun ha => ?_⟩
      have hapart : G.slot ≠ G'.slot :=
        fun heq => hne (hs.exclusive g' g G' G hG' hG ha hactive heq.symm)
      exact (getElem?_set_ne hapart).trans (hshared' ha)
  · have hg : g' ≠ g := by
      rintro rfl
      subst hs'
      simp only [length_set] at hg'
      omega
    rw [hother hg]
    subst hs'
    exact h.fresh g' (by simpa using hg')
  · subst hs'
    rcases of_moved hG' with ⟨rfl, rfl⟩ | ⟨hne, hG'⟩
    · rw [hseen]
      exact ((hhandles ho).elim (h.outcomes g' t G o hG) nofun).mono
    · rw [hother hne]
      exact h.outcomes g' t G' o hG' ho
  · subst hs'
    rcases of_moved hG' with ⟨rfl, rfl⟩ | ⟨hne, hG'⟩
    · exact (hhandles hf).elim (h.unfailing g' t G hG) nofun
    · exact h.unfailing g' t G' hG' hf

variable {t : ℕ}

theorem Alone.observer (h : Alone tr s) {p : Place W O}
    (hG : s.generations[g]? = some G) (hp : G.places[t]? = some p) (hrole : p.publishes = false) :
    t ≠ 0 := by
  obtain ⟨w, hrun, hthr, -⟩ := h.alone g G hG
  exact ((ground_run hrun).fits t p (hthr ▸ hp)).role.not.mp (Bool.eq_false_iff.mp hrole)

theorem Alone.setHandle (h : Alone tr s) (hop : op.schedule s = none)
    {x : Handle O} (hG : s.generations[g]? = some G) (hx : x.isHeld = false)
    (hgens : s'.generations = (s.setHandle g t G x).generations)
    (hslots : ∀ (g' : ℕ) G', s'.generations[g']? = some G' → G'.Active →
      s'.slots[G'.slot]? = s.slots[G'.slot]?)
    (hout : ∀ o, x = .unwrapped (some o) → Publishes (seen g tr) o) (hfail : x ≠ .failed) :
    Alone (tr ++ [⟨s, op, s'⟩]) s' := by
  refine h.silent hop (by rw [hgens]; exact length_set) fun g' G' hG' => ?_
  have hsame := hslots g' G' hG'
  rw [hgens] at hG'
  rcases of_moved hG' with ⟨rfl, rfl⟩ | ⟨-, hG'⟩
  · refine ⟨G, hG, rfl, rfl, Generation.Active.of_set hx, hsame, fun u o ho => ?_, fun u hu => ?_⟩
    · rcases of_moved ho with ⟨-, rfl⟩ | ⟨-, ho⟩
      · exact .inr (hout o rfl)
      · exact .inl ho
    · rcases of_moved hu with ⟨-, rfl⟩ | ⟨-, hu⟩
      · exact absurd rfl hfail
      · exact hu
  · exact ⟨G', hG', rfl, rfl, id, hsame, fun u o ho => .inl ho, fun u hu => hu⟩

end Alone

/-! ## Runs -/

section Runs

variable {g : ℕ} {G : Generation K W O} {p : Place W O}

theorem isolated_took (hs : Apart s) (ha : Alone tr s) {t : ℕ}
    {slot : Slot W O} (hG : s.generations[g]? = some G)
    (hh : G.handles[t]? = some .held) (hp : G.places[t]? = some p) (hidle : p.observation)
    (hlast : s.strongCount G.slot = 1) (hhere : s.slots[G.slot]? = some slot) (hc : slot.completed)
    (hs' : s' =
      { s with slots := s.slots.set G.slot { slot with outcomeValid := false } }.setHandle g t
      G (if slot.outcomeValid then .unwrapped slot.outcome else .failed)) :
    Apart s' ∧ Alone (tr ++ [⟨s, .intoOutcome g t, s'⟩]) s' := by
  obtain ⟨hpool, hsole, hothers⟩ := sole_handle hG hh hlast
  obtain ⟨w, hrun, hthr, hshared⟩ := ha.alone g G hG
  obtain rfl := some.inj ((hshared ⟨t, hh⟩).symm.trans hhere)
  have hvalid := (kept_run hrun).valid hc
  rw [if_pos hvalid] at hs'
  have ht : t ≠ 0 := ha.observer hG hp (by cases p <;> first | rfl | cases hidle)
  have hquiet : p.quiet := by cases p <;> first | rfl | cases hidle
  have hset : Apart (s.setHandle g t G (.unwrapped w.shared.outcome)) :=
    hs.setHandle s.map hG hp hquiet rfl (.inl ⟨rfl, fun h0 => absurd h0 ht⟩)
  subst hs'
  refine ⟨hset.setSlot hpool _, ha.setHandle rfl hG rfl rfl (fun g' G' hG' hactive => ?_)
    (fun o ho => ?_) nofun⟩
  · refine getElem?_set_ne fun heq => ?_
    rcases of_moved hG' with ⟨rfl, rfl⟩ | ⟨hne, hG'⟩
    · obtain ⟨u, hu⟩ := hactive
      rcases of_moved hu with ⟨-, hu⟩ | ⟨hut, hu⟩
      · cases hu
      · exact hut (hsole u hu)
    · exact hne (hothers g' G' hG' hactive heq.symm)
  · exact (published_run hrun).outcome o (by simpa using ho)

theorem isolated_retired (hs : Apart s) (ha : Alone tr s)
    (hG : s.generations[g]? = some G) (hh : G.handles[0]? = some .held)
    (hp : G.places[0]? = some p) (hidle : p.subject) : Apart (s.dropSubject g G) ∧
      Alone (tr ++ [⟨s, .dropSubject g, s.dropSubject g G⟩]) (s.dropSubject g G) := by
  have hquiet : p.quiet := by rw [Place.quiet, hidle, Bool.or_true]
  -- the entry of a live subject is its own
  obtain ⟨entry, he, howner⟩ := hs.live g G hG hh
  obtain ⟨G', hG', -, -, hnumber, -⟩ := hs.mapped G.key entry he
  obtain rfl := some.inj (hG.symm.trans (howner ▸ hG'))
  have hset : Apart ({ s with map := s.map.erase G.key }.setHandle g 0 G .retiring) :=
    hs.setHandle (s.map.erase G.key) hG hp hquiet rfl (.inr ⟨rfl, rfl, hh⟩)
  unfold Space.dropSubject
  rw [he]
  dsimp only
  rw [if_pos hnumber.symm]
  split
  · next hcount =>
    obtain ⟨hpool, hsole, hothers⟩ :=
      sole_handle (s := { s with map := s.map.erase G.key }) hG hh hcount.1
    obtain ⟨w, hrun, hthr, hshared⟩ := ha.alone g G hG
    have hreset : w.shared.reset = Slot.new := by
      refine reset_new hrun fun t q hq => ?_
      rw [hthr] at hq
      by_cases ht : t = 0
      · subst ht
        obtain rfl := some.inj (hp.symm.trans hq)
        exact hquiet
      · have hlt : t < G.handles.length := hs.aligned g G hG ▸ (lt_of_get hq)
        obtain ⟨x, hx⟩ : ∃ x, G.handles[t]? = some x := ⟨_, getElem?_eq_getElem hlt⟩
        refine hs.quiet g t G x q hG hx hq (Bool.eq_false_iff.mpr fun hheld => ht (hsole t ?_))
        cases x <;> first | exact hx | cases hheld
    refine ⟨hset.push hpool hcount.2 (fun g' G' hG' hactive heq => ?_) (hshared ⟨0, hh⟩) hreset,
      ha.setHandle rfl hG rfl rfl (fun _ _ _ _ => rfl) (by simp) (by simp)⟩
    rcases of_moved hG' with ⟨rfl, rfl⟩ | ⟨hne, hG'⟩
    · obtain ⟨u, hu⟩ := hactive
      rcases of_moved hu with ⟨-, hu⟩ | ⟨hut, hu⟩
      · cases hu
      · exact hut (hsole u hu)
    · exact hne (hothers g' G' hG' hactive heq)
  · exact ⟨hset, ha.setHandle rfl hG rfl rfl (fun _ _ _ _ => rfl) (by simp) (by simp)⟩

theorem isolated_step (hs : Apart s) (ha : Alone tr s) (h : Moves s op s') :
    Apart s' ∧ Alone (tr ++ [⟨s, op, s'⟩]) s' := by
  have hback {s₁ : Space K W O} (hgens : s₁.generations = s.generations)
      (hslots : ∀ (g : ℕ) G, s.generations[g]? = some G → G.Active →
        s₁.slots[G.slot]? = s.slots[G.slot]?) (hop : op.schedule s = none) :
      Alone (tr ++ [⟨s, op, s₁⟩]) s₁ :=
    ha.silent hop (hgens ▸ rfl) fun g G hG => ⟨G, hgens ▸ hG, rfl, rfl, id,
      hslots g G (hgens ▸ hG), fun _ _ h => .inl h, fun _ h => h⟩
  cases h with
  | refused => exact ⟨hs, hback rfl (fun _ _ _ _ => rfl) rfl⟩
  | exhausted _ _ n =>
    exact ⟨hs.shrink (dropLast_sublist _) n, hback rfl (fun _ _ _ _ => rfl) rfl⟩
  | lost _ i n slot pooled =>
    obtain ⟨hi, hout⟩ := hs.popped pooled
    refine ⟨(hs.shrink (dropLast_sublist _) n).setSlot hout slot,
      hback rfl (fun g G hG hactive => ?_) rfl⟩
    exact getElem?_set_ne (Ne.symm (hs.unused i hi g G hG hactive))
  | fresh _ n vacant empty =>
    refine ⟨(hs.allocate n Slot.new).enroll vacant (by simp) (by simp [empty]) fun g G hG _ => ?_,
      ha.enroll rfl (fun g G hG _ => ?_) (getElem?_concat_length ..)⟩
    · exact Nat.ne_of_lt (hs.allocated g G hG)
    · exact getElem?_append_left (hs.allocated g G hG)
  | reused _ i n slot vacant pooled here =>
    obtain ⟨hi, hout⟩ := hs.popped pooled
    have hlt := lt_of_get here
    obtain ⟨slot', here', hreset⟩ := hs.pristine i hi
    obtain rfl := some.inj (here.symm.trans here')
    refine ⟨((hs.shrink (dropLast_sublist _) n).setSlot hout slot.reset).enroll vacant
      (by simpa using hlt) hout (hs.unused i hi), ha.enroll rfl (fun g G hG hactive => ?_) ?_⟩
    · exact getElem?_set_ne (Ne.symm (hs.unused i hi g G hG hactive))
    · exact hreset ▸ getElem?_set_self hlt
  | unknown _ _ absent =>
    exact ⟨hs, hback rfl (fun _ _ _ _ => rfl) (by simp [Op.schedule, absent])⟩
  | ran _ _ _ _ _ _ scheduled generation here steps entitled holds =>
    have hactive := hs.active generation entitled
    exact ⟨hs.ran generation steps hactive holds,
      ha.ran hs scheduled generation here steps hactive rfl⟩
  | released g t G _ p generation handle place may =>
    have hx : t = 0 → G.handles[0]? ≠ some .held := by
      rintro rfl hheld
      rcases may with rfl | ⟨-, hdrop⟩
      · cases handle.symm.trans hheld
      · exact ha.observer generation place (by cases p <;> first | rfl | cases hdrop) rfl
    have hquiet : p.quiet := by
      rcases may with rfl | ⟨-, hdrop⟩
      · exact hs.quiet g t G _ p generation handle place rfl
      · rw [Place.quiet, hdrop, Bool.true_or]
    exact ⟨hs.setHandle s.map generation place hquiet rfl (.inl ⟨rfl, hx⟩),
      ha.setHandle rfl generation rfl rfl (fun _ _ _ _ => rfl) (by simp) (by simp)⟩
  | unwrapped _ t _ p generation _ place idle =>
    have ht : t ≠ 0 := ha.observer generation place (by cases p <;> first | rfl | cases idle)
    have hquiet : p.quiet := by cases p <;> first | rfl | cases idle
    exact ⟨hs.setHandle s.map generation place hquiet rfl (.inl ⟨rfl, fun h0 => absurd h0 ht⟩),
      ha.setHandle rfl generation rfl rfl (fun _ _ _ _ => rfl) (by simp) (by simp)⟩
  | took _ _ _ _ _ generation handle place idle last here completed =>
    exact isolated_took hs ha generation handle place idle last here completed rfl
  | retired _ _ _ generation handle place idle =>
    exact isolated_retired hs ha generation handle place idle

theorem isolated_run (h : SpaceRun tr s) : Apart s ∧ Alone tr s := by
  refine h.history ⟨apart_new, ?_⟩
    fun tr s op s' _ hs hstep => isolated_step hs.1 hs.2 (space_moves hstep hs.1.aligned)
  exact ⟨nofun, fun _ _ => rfl, nofun, nofun⟩

end Runs

/-! ## The result -/

variable {tr : SpaceHistory K W O} {s : Space K W O}

variable {g : ℕ}

/-- The subject of the generation `g` has published this outcome. -/
def SubjectPublishes (g : ℕ) (tr : SpaceHistory K W O) (outcome : O) : Prop :=
  ∃ x ∈ tr, x.input = .act g 0 (.complete outcome)

/-- An observer of the generation `g` has put itself into the registry of its slot. -/
def ObserverEnlists (g : ℕ) (who : W ⊕ ℕ) (tr : SpaceHistory K W O) : Prop :=
  ∃ x ∈ tr, ∃ t p v, x.input = .act g t .advance ∧ x.source.view g = some v ∧
    v.threads[t]? = some p ∧ ((∃ timed, p = .push timed ∧ who = .inr t) ∨
      ∃ call a, p = .install call ∧ call.installs = some a ∧ who = .inl a)

/-- What a history of the space guarantees. -/
structure GenerationIsolation (tr : SpaceHistory K W O) (s : Space K W O) : Prop where
  /-- What a generation has seen is a history of a new slot with this generation alone, and while it
  can use its slot, the slot is as this history says. -/
  alone : ∀ (g : ℕ) G, s.generations[g]? = some G → ∃ w, SlotRun .shared (seen g tr) w ∧
    w.threads = G.places ∧ ((∃ t : ℕ, G.handles[t]? = some .held) →
      s.slots[G.slot]? = some w.shared)
  /-- A poll or a wait returns only an outcome that the subject of its generation has published, -/
  outcome : ∀ (g t : ℕ) G p outcome, s.generations[g]? = some G → G.places[t]? = some p →
    p.carries = some outcome → SubjectPublishes g tr outcome
  /-- and so does `into_outcome`, which never panics. -/
  unwrapped : ∀ (g t : ℕ) G outcome, s.generations[g]? = some G →
    G.handles[t]? = some (.unwrapped (some outcome)) → SubjectPublishes g tr outcome
  unfailing : ∀ (g t : ℕ) G, s.generations[g]? = some G → G.handles[t]? ≠ some .failed
  /-- Whomever the completion of a generation notifies has registered with that generation. -/
  notified : ∀ before x after g i v waiter rest panicked, tr = before ++ x :: after →
    x.input = .act g 0 i → x.source.view g = some v →
    v.threads[0]? = some (.notify (waiter :: rest) panicked) → ObserverEnlists g waiter.who before
  /-- A slot in the pool is in no entry of the table, -/
  unmapped : ∀ i ∈ s.pool, ∀ key entry, s.map.lookup key = some entry → entry.slot ≠ i
  /-- nobody has a subject or an observation of it, -/
  unobserved : ∀ i ∈ s.pool, ∀ (g t : ℕ) G, s.generations[g]? = some G → G.slot = i →
    G.handles[t]? ≠ some .held
  /-- it is there once, and there are at most 128 of them. -/
  nodup : s.pool.Nodup
  bounded : s.pool.length ≤ 128

theorem enlists_of_notice {before after} {x} {v} {waiter : Waiter W} {rest} {panicked : Bool}
    (h : SpaceRun (before ++ x :: after) s) (hv : x.source.view g = some v)
    (hnotify : v.threads[0]? = some (.notify (waiter :: rest) panicked)) :
    ObserverEnlists g waiter.who before := by
  obtain ⟨hbefore, -, -⟩ := h.at
  obtain ⟨-, halone⟩ := isolated_run hbefore
  obtain ⟨G, hG, hplaces⟩ : ∃ G, x.source.generations[g]? = some G ∧ v.threads = G.places := by
    unfold Space.view at hv
    split at hv
    · cases hv
    · next G hG =>
      split at hv
      · cases hv
      · obtain rfl := some.inj hv
        exact ⟨G, hG, rfl⟩
  obtain ⟨w, hrun, hthr, -⟩ := halone.alone g G hG
  obtain ⟨y, hy, t, p, hinput, hp, henlists⟩ := (listed_run hrun).notices 0 _
    (hthr.symm ▸ hplaces ▸ hnotify) waiter.who (mem_cons_self ..)
  obtain ⟨z, hz, hop, hview⟩ := mem_seen hy
  exact ⟨z, hz, t, p, y.source, schedule_run (hinput ▸ hop), hview, hp, henlists⟩

/-- **Generations are isolated**, whatever the keys and in whatever order subjects, observations and
futures come and go. -/
theorem generation_isolation (h : SpaceRun tr s) : GenerationIsolation tr s := by
  obtain ⟨hs, ha⟩ := isolated_run h
  have hpub {g : ℕ} {outcome : O} (hp : Publishes (seen g tr) outcome) :
      SubjectPublishes g tr outcome := by
    obtain ⟨y, hy, hinput⟩ := hp
    obtain ⟨x, hx, hop, -⟩ := mem_seen hy
    exact ⟨x, hx, schedule_run (hinput ▸ hop)⟩
  refine ⟨ha.alone, fun g t G p outcome hG hp hc => ?_, fun g t G outcome hG ho => ?_, ha.unfailing,
    ?_, fun i hi key entry he heq => ?_, fun i hi g t G hG hslot hheld => ?_, hs.nodup, hs.bounded⟩
  · obtain ⟨w, hrun, hthr, -⟩ := ha.alone g G hG
    exact hpub ((published_run hrun).places t p outcome (hthr ▸ hp) hc)
  · exact hpub (ha.outcomes g t G outcome hG ho)
  · rintro before x after g i v waiter rest panicked rfl hx hv hnotify
    exact enlists_of_notice h hv hnotify
  · obtain ⟨G, hG, -, hslot, -, hheld⟩ := hs.mapped key entry he
    exact hs.unused i hi entry.owner G hG ⟨0, hheld⟩ (hslot.trans heq)
  · exact hs.unused i hi g G hG ⟨t, hheld⟩ hslot

/-- Waker 7 is left behind at the first subject's slot.  The subject is dropped, and its slot is
used for the next one while it still has its handle; a future with waker 8 is told to wait there,
and is woken when the outcome 5 is published. -/
def recycling : List (Op ℕ ℕ ℕ) :=
  [.subject 1 false, .observe 1 (.entry (.register 7))] ++ List.replicate 5 (.act 0 1 .advance) ++
    [.drop 0 1, .dropSubject 0, .subject 2 false, .observe 2 (.future none none),
      .act 1 1 (.poll 8)] ++
    List.replicate 7 (.act 1 1 .advance) ++ .act 1 0 (.complete 5) ::
      List.replicate 6 (.act 1 0 .advance)

theorem generation_isolation_recycling : ∃ tr s, SpaceRun (K := ℕ) (W := ℕ) (O := ℕ) tr s ∧
    s.generations.map Generation.slot = [0, 0] ∧ s.slots.map Slot.woken = [[8]] ∧
    GenerationIsolation tr s := by
  have hexec : ((exec Space.step Space.new recycling).map fun r =>
      (r.2.generations.map Generation.slot, r.2.slots.map Slot.woken)) = some ([0, 0], [[8]]) := by
    decide +kernel
  obtain ⟨⟨tr, s⟩, hrun, hs⟩ := map_eq_some_iff.mp hexec
  obtain ⟨hslots, hwoken⟩ := Prod.mk.inj hs
  exact ⟨tr, s, exec_run hrun, hslots, hwoken, generation_isolation (exec_run hrun)⟩

end Observe
