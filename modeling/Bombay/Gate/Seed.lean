import Bombay.Gate.Verdict

/-!
# A seeded baseline passes

`emit_baseline` makes a baseline of a report: the number of viable mutants under a key becomes its
floor, and a key without any becomes a known-zero entry.  The gate accepts the same report with that
baseline, and with no higher floor.
-/

set_option autoImplicit false

namespace Gate

open Std Machine List

variable {report : Report} {candidates : List Mutant} {equivalents : List String}
    {baseline : Baseline}

/-! ## The source -/

/-- A tally becomes a floor or a known-zero entry. -/
def seed (state : TreeMap String ℕ × List String) (row : String × Tally) :
    Except String (TreeMap String ℕ × List String) :=
  if 0 < row.2.missed ∨ 0 < row.2.timeout then
    .error ("cannot seed baseline from survivor or timeout: " ++ row.1)
  else if row.2.viable = 0 then
    if row.2.unviable ≠ row.2.total then .error ("non-unviable zero-viability outcome: " ++ row.1)
    else .ok (state.1, state.2 ++ [row.1])
  else .ok (state.1.insert row.1 row.2.viable, state.2)

/-- `emit_baseline`, up to the text of the baseline. -/
def emitBaseline (report : Report) (candidates : List Mutant) (equivalentMutants : List String) :
    Except String Baseline := do
  let tallies ← tallies report candidates equivalentMutants
  let (floors, known) ← tallies.toList.foldlM seed (∅, [])
  return ⟨floors, known, equivalentMutants⟩

/-! ## What is seeded -/

structure Seedable (t : Tally) : Prop where
  missed : t.missed = 0
  timeout : t.timeout = 0
  zero : t.viable = 0 → t.unviable = t.total

/-- What was made of the rows. -/
structure Seeded (rows : List (String × Tally))
    (state : TreeMap String ℕ × List String) : Prop where
  known : state.2 = (rows.filter (·.2.viable = 0)).map (·.1)
  floors : (rows.map (·.1)).Nodup → ∀ k v, state.1[k]? = some v ↔
    ∃ t, (k, t) ∈ rows ∧ 0 < t.viable ∧ t.viable = v

theorem seed_exact (rows : List (String × Tally)) :
    Exactly (∀ row ∈ rows, Seedable row.2) (rows.foldlM seed (∅, [])) (Seeded rows) := by
  refine Exactly.foldlM (V := fun rows => ∀ row ∈ rows, Seedable row.2) (I := Seeded) nofun
    ⟨rfl, by simp⟩ (fun l row h x hx => h x (mem_append_left _ hx)) (fun l row c hl hc => ?_) rows
  have hall : (∀ x ∈ l ++ [row], Seedable x.2) ↔ Seedable row.2 := by
    rw [forall_mem_append, forall_mem_singleton]
    exact and_iff_right hl
  refine Exactly.congr ?_ hall
  refine .exit (fun h hs => h.elim hs.missed.not_gt hs.timeout.not_gt) fun hclean => ?_
  obtain ⟨hmissed, htimeout⟩ := not_or.mp hclean
  have hseedable (hzero : row.2.viable = 0 → row.2.unviable = row.2.total) : Seedable row.2 :=
    ⟨Nat.eq_zero_of_not_pos hmissed, Nat.eq_zero_of_not_pos htimeout, hzero⟩
  have hnodup (h : ((l ++ [row]).map (·.1)).Nodup) : (l.map (·.1)).Nodup ∧ row.1 ∉ l.map (·.1) := by
    rw [map_append, map_singleton, nodup_append_comm] at h
    exact (nodup_cons.mp h).symm
  split
  · next hzero =>
    refine .exit (fun h hs => h (hs.zero hzero)) fun hsame => ?_
    refine .ok (hseedable fun _ => not_not.mp hsame) ⟨?_, fun hd k v => ?_⟩
    · simp [hc.known, filter_append, hzero]
    · rw [hc.floors (hnodup hd).1]
      refine exists_congr fun t => and_congr_left fun ht => ?_
      rw [mem_append, mem_singleton]
      exact (or_iff_left fun h => ht.1.ne' (by rw [← hzero, ← h])).symm
  · next hpos =>
    refine .ok (hseedable fun h => absurd h hpos) ⟨?_, fun hd k v => ?_⟩
    · simp [hc.known, filter_append, hpos]
    · obtain ⟨hd, hnew⟩ := hnodup hd
      rw [TreeMap.getElem?_insert]
      simp only [mem_append, mem_singleton, or_and_right, exists_or, ← hc.floors hd]
      split
      · next hk =>
        obtain rfl : row.1 = k := by simpa using hk
        have hnone : c.1[row.1]? ≠ some v := fun h => by
          obtain ⟨t, ht, -⟩ := (hc.floors hd _ _).mp h
          exact hnew (mem_map.mpr ⟨_, ht, rfl⟩)
        rw [iff_false_intro hnone, false_or, Option.some.injEq]
        exact ⟨fun h => ⟨row.2, rfl, Nat.pos_of_ne_zero hpos, h⟩, fun ⟨t, ht, _, hv⟩ =>
          by rw [← ht, hv]⟩
      · next hk =>
        refine (or_iff_left ?_).symm
        rintro ⟨t, rfl, -⟩
        simp at hk

theorem emitBaseline_spec (h : emitBaseline report candidates equivalents = .ok baseline) :
    baseline.equivalentMutants = equivalents ∧ ∃ t : TreeMap String Tally,
      tallies report candidates equivalents = .ok t ∧
        (∀ (k : String) x, t[k]? = some x → Seedable x) ∧
      baseline.knownZeroViable.Nodup ∧
      (∀ k, k ∈ baseline.knownZeroViable ↔ ∃ x, t[k]? = some x ∧ x.viable = 0) ∧
      ∀ (k : String) v, baseline.floors[k]? = some v ↔
        ∃ x : Tally, t[k]? = some x ∧ 0 < x.viable ∧ x.viable = v := by
  rw [emitBaseline] at h
  cases ht : tallies report candidates equivalents with
  | error => rw [ht] at h; cases h
  | ok t =>
    rw [ht] at h
    simp only [bind, Except.bind] at h
    split at h
    · cases h
    next state hstate =>
    cases h
    obtain ⟨hall, hseeded⟩ := (seed_exact t.toList).of_ok hstate
    have hdist : (t.toList.map (·.1)).Nodup := by
      refine pairwise_map.mpr (TreeMap.distinct_keys_toList.imp fun hne => ?_)
      simpa using hne
    simp only [Prod.forall, TreeMap.mem_toList_iff_getElem?_eq_some] at hall
    refine ⟨rfl, t, rfl, hall, ?_, fun k => ?_, fun k v => ?_⟩
    · rw [hseeded.known]
      exact hdist.sublist (filter_sublist.map _)
    · rw [hseeded.known]
      simp [TreeMap.mem_toList_iff_getElem?_eq_some]
    · simp only [hseeded.floors hdist, TreeMap.mem_toList_iff_getElem?_eq_some]

/-- **A seeded baseline passes its own gate**, and no floor of it can be raised. -/
theorem seeded_baseline_passes (h : emitBaseline report candidates equivalents = .ok baseline) :
    check report candidates baseline = .ok () ∧ ∀ k floor, baseline.floors[k]? = some floor →
      check report candidates { baseline with floors := baseline.floors.insert k (floor + 1) } ≠
        .ok () := by
  obtain ⟨rfl, t, ht, hseedable, hnodup, hknown, hfloors⟩ := emitBaseline_spec h
  obtain ⟨hc, htallies⟩ := tallies_exact.of_ok ht
  have hcurrent {k : String} {x : Tally} (hx : t[k]? = some x) : k ∈ candidates.map (·.key) := by
    refine hc.under_ne_nil.mp fun hnil => ?_
    rw [htallies, talliesOf, if_pos hnil] at hx
    cases hx
  have hfloor {k : String} (hk : k ∈ baseline.knownZeroViable) : baseline.floors[k]? = none := by
    obtain ⟨x, hx, hzero⟩ := (hknown k).mp hk
    refine Option.eq_none_iff_forall_ne_some.mpr fun v hv => ?_
    obtain ⟨y, hy, hpos, -⟩ := (hfloors k v).mp hv
    cases hx.symm.trans hy
    exact hpos.ne' hzero
  refine ⟨check_ok_iff.mpr ⟨t, ht, failures_eq_nil.mpr ⟨hnodup, fun k v hv => ?_, fun k hk => ?_,
    fun k x hx => ?_⟩⟩, fun k floor hk hok => ?_⟩
  · obtain ⟨x, hx, hpos, rfl⟩ := (hfloors k v).mp hv
    exact ⟨hpos, hcurrent hx⟩
  · obtain ⟨x, hx, -⟩ := (hknown k).mp hk
    refine ⟨hcurrent hx, fun hmem => ?_⟩
    have := TreeMap.isSome_getElem?_iff_mem.mpr hmem
    rw [hfloor hk] at this
    cases this
  · obtain ⟨hmissed, htimeout, hzero⟩ := hseedable k x hx
    refine ⟨hmissed, htimeout, ?_⟩
    by_cases hv : x.viable = 0
    · have hk := (hknown k).mpr ⟨x, hx, hv⟩
      exact .inr ⟨hfloor hk, hk, hv, hzero hv⟩
    · exact .inl ⟨x.viable, (hfloors k _).mpr ⟨x, hx, Nat.pos_of_ne_zero hv, rfl⟩, Nat.le_refl _⟩
  · obtain ⟨x, hx, -, rfl⟩ := (hfloors k floor).mp hk
    obtain ⟨t', ht', hfail⟩ := check_ok_iff.mp hok
    cases ht.symm.trans ht'
    have hraised := ((failures_eq_nil.mp hfail).2.2.2 k x hx).kept
    rw [TreeMap.getElem?_insert_self] at hraised
    rcases hraised with ⟨v, hv, hle⟩ | ⟨hnone, -⟩
    · cases hv
      exact Nat.not_succ_le_self _ hle
    · cases hnone

theorem seeded_baseline_passes_of_two :
    let report : Report :=
      ⟨[⟨.success, .baseline⟩, ⟨.caughtMutant, .mutant ⟨"m", "a.rs", some "f"⟩⟩,
      ⟨.unviable, .mutant ⟨"n", "a.rs", none⟩⟩]⟩
    let candidates : List Mutant := [⟨"m", "a.rs", some "f"⟩, ⟨"n", "a.rs", none⟩]
    ∃ baseline, emitBaseline report candidates [] = .ok baseline ∧
      baseline.knownZeroViable = ["a.rs::<module>"] ∧
        check report candidates baseline = .ok () := by
  intro report candidates
  have h : (emitBaseline report candidates []).toOption.map (·.knownZeroViable) =
      some ["a.rs::<module>"] := by decide +kernel
  obtain ⟨baseline, hb, hknown⟩ := Option.map_eq_some_iff.mp h
  have hemit : emitBaseline report candidates [] = .ok baseline := by
    cases he : emitBaseline report candidates [] with
    | error => rw [he] at hb; cases hb
    | ok => rw [he] at hb; cases hb; rfl
  exact ⟨baseline, hemit, hknown, (seeded_baseline_passes hemit).1⟩

end Gate
