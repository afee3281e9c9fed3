import Mathlib.Data.Finset.Card
import Std.Data.TreeMap.Lemmas
import Std.Data.TreeSet.Lemmas
import Bombay.Machine.Loop

/-!
# The verdict of the mutation gate

`mutants-gate` compares a mutation report with the candidates that were selected and with a baseline
that is kept in the repository.  `tallies` goes through the report and stops at the first thing that
is wrong with it; `check` then collects everything that is wrong with the counts.  `Passes` is what
the two ask for together, and `check_exact` that they ask for nothing else.
-/

set_option autoImplicit false

namespace Gate

open Std Machine List TreeMap

/-! ## The source -/

/-- How a mutant fared. -/
inductive Summary
  | success
  | caughtMutant
  | missedMutant
  | unviable
  | timeout
  | failure
  deriving DecidableEq

/-- The derived `Debug`. -/
def Summary.debug : Summary → String
  | .success => "Success"
  | .caughtMutant => "CaughtMutant"
  | .missedMutant => "MissedMutant"
  | .unviable => "Unviable"
  | .timeout => "Timeout"
  | .failure => "Failure"

/-- `Mutant` and `Candidate`, with the name of the function. -/
structure Mutant where
  name : String
  file : String
  function : Option String

/-- What was tested. -/
inductive Scenario
  | baseline
  | mutant (mutant : Mutant)

/-- One row of the report. -/
structure Outcome where
  summary : Summary
  scenario : Scenario

/-- The mutation report. -/
structure Report where
  outcomes : List Outcome

/-- The floors that are checked in. -/
structure Baseline where
  floors : TreeMap String ℕ
  knownZeroViable : List String
  equivalentMutants : List String

/-- The counts of one function. -/
structure Tally where
  total : ℕ := 0
  viable : ℕ := 0
  unviable : ℕ := 0
  missed : ℕ := 0
  timeout : ℕ := 0

/-- The name of a function in the baseline. -/
def key (file : String) : Option String → String
  | none => file ++ "::<module>"
  | some function => file ++ "::" ++ function

/-- The function a mutant is in. -/
def Mutant.key (m : Mutant) : String := Gate.key m.file m.function

/-- The outcomes of the unmutated baseline. -/
def Report.baselines (report : Report) : List Summary :=
  report.outcomes.filterMap fun
    | ⟨summary, .baseline⟩ => some summary
    | _ => none

/-- The rows that are about mutants. -/
def Report.mutants (report : Report) : List (Summary × Mutant) :=
  report.outcomes.filterMap fun
    | ⟨summary, .mutant mutant⟩ => some (summary, mutant)
    | _ => none

/-- An outcome is counted. -/
def Tally.record (t : Tally) (reviewed : Bool) : Summary → Tally
  | .caughtMutant => { t with total := t.total + 1, viable := t.viable + 1 }
  | .missedMutant => { t with
      total := t.total + 1
      viable := t.viable + 1
      missed := if reviewed then t.missed else t.missed + 1 }
  | .timeout => { t with
      total := t.total + 1
      viable := t.viable + 1
      timeout := t.timeout + 1 }
  | .unviable => { t with total := t.total + 1, unviable := t.unviable + 1 }
  | .success | .failure => t

/-- One more candidate, unless its name is taken. -/
def expect (expected : TreeMap String String) (candidate : Mutant) :
    Except String (TreeMap String String) :=
  if expected.contains candidate.name then .error ("duplicate candidate: " ++ candidate.name)
  else .ok (expected.insert candidate.name candidate.key)

/-- One row is counted. -/
def observe (expected : TreeMap String String) (reviewed : TreeSet String)
    (state : TreeMap String Tally × TreeSet String) (o : Summary × Mutant) :
    Except String (TreeMap String Tally × TreeSet String) :=
  match expected[o.2.name]? with
  | none => .error ("unexpected mutant outcome: " ++ o.2.name)
  | some expectedKey =>
    if o.2.key ≠ expectedKey then .error ("candidate identity changed: " ++ o.2.name)
    else if state.2.contains o.2.name then .error ("duplicate mutant outcome: " ++ o.2.name)
    else if reviewed.contains o.2.name ∧ o.1 ≠ .missedMutant then
      .error ("reviewed equivalent no longer missed: " ++ o.2.name)
    else if o.1 = .success ∨ o.1 = .failure then
      .error ("invalid mutant outcome " ++ o.2.name ++ ": " ++ o.1.debug)
    else
      .ok (state.1.insert o.2.key ((state.1.getD o.2.key {}).record
        (reviewed.contains o.2.name) o.1),
        state.2.insert o.2.name)

/-- The counts of all functions. -/
def tallies (report : Report) (candidates : List Mutant) (equivalentMutants : List String) :
    Except String (TreeMap String Tally) :=
  match report.baselines with
  | [] => .error "the unmutated baseline is missing"
  | _ :: _ :: _ => .error "the unmutated baseline appears more than once"
  | [summary] =>
    if summary ≠ .success then .error "the unmutated baseline did not pass"
    else if candidates.isEmpty then .error "no mutants were selected"
    else do
      let expected ← candidates.foldlM expect ∅
      let reviewed := TreeSet.ofList equivalentMutants
      if reviewed.size ≠ equivalentMutants.length then .error "duplicate reviewed equivalent mutant"
      else match reviewed.toList.find? (!expected.contains ·) with
        | some name => .error ("stale reviewed equivalent mutant: " ++ name)
        | none => do
          let (result, observed) ← report.mutants.foldlM (observe expected reviewed) (∅, ∅)
          match expected.keys.find? (!observed.contains ·) with
          | some name => .error ("incomplete candidate results: missing " ++ name)
          | none => .ok result

/-- What is wrong with a floor. -/
def floorFailures (expected : TreeSet String) (row : String × ℕ) : List String :=
  if row.2 = 0 then ["invalid zero floor: " ++ row.1]
  else if !expected.contains row.1 then ["stale floor: " ++ row.1]
  else []

/-- What is wrong with a known-zero entry. -/
def knownFailures (expected : TreeSet String) (floors : TreeMap String ℕ) (key : String) :
    List String :=
  (if !expected.contains key then ["stale known-zero-viable entry: " ++ key] else []) ++
    if floors.contains key then ["conflicting baseline entries: " ++ key] else []

/-- What is wrong with a count. -/
def tallyFailures (floors : TreeMap String ℕ) (known : TreeSet String) (row : String × Tally) :
    List String :=
  (if 0 < row.2.missed then [row.1 ++ ": " ++ toString row.2.missed ++ " survivor(s)"] else []) ++
  (if 0 < row.2.timeout then [row.1 ++ ": " ++ toString row.2.timeout ++ " timeout(s)"] else []) ++
  match floors[row.1]? with
  | some floor =>
    if row.2.viable < floor then
      [row.1 ++ ": viability collapsed to " ++ toString row.2.viable ++ " below " ++ toString floor]
    else []
  | none =>
    if known.contains row.1 then
      if 0 < row.2.viable ∨ row.2.unviable ≠ row.2.total then
        [row.1 ++ ": known-zero-viable entry gained viable mutants"]
      else []
    else ["unaccounted: " ++ row.1]

/-- All that is wrong. -/
def failures (candidates : List Mutant) (baseline : Baseline) (tallies : TreeMap String Tally) :
    List String :=
  let expected := TreeSet.ofList (candidates.map (·.key))
  let known := TreeSet.ofList baseline.knownZeroViable
  (if known.size ≠ baseline.knownZeroViable.length
    then ["duplicate known-zero-viable entry"] else []) ++
    baseline.floors.toList.flatMap (floorFailures expected) ++
    known.toList.flatMap (knownFailures expected baseline.floors) ++
    tallies.toList.flatMap (tallyFailures baseline.floors known)

/-- `check`, of files that have been read. -/
def check (report : Report) (candidates : List Mutant) (baseline : Baseline) :
    Except String Unit := do
  let tallies ← tallies report candidates baseline.equivalentMutants
  let failures := failures candidates baseline tallies
  if failures.isEmpty then .ok () else .error ("\n".intercalate failures)

/-! ## The counts -/

section Counts

variable {report : Report} {candidates : List Mutant} {equivalents : List String}

/-- The tally of a list of outcomes. -/
def tallyOf (equivalents : List String) (os : List (Summary × Mutant)) : Tally :=
  os.foldl (fun t o => t.record (equivalents.contains o.2.name) o.1) {}

/-- The outcomes under one key. -/
def Report.under (os : List (Summary × Mutant)) (k : String) : List (Summary × Mutant) :=
  os.filter (·.2.key = k)

theorem tallyOf_snoc (os : List (Summary × Mutant)) (o : Summary × Mutant) :
    tallyOf equivalents (os ++ [o]) =
      (tallyOf equivalents os).record (equivalents.contains o.2.name) o.1 := by
  rw [tallyOf, foldl_append]
  rfl

/-- The mutant compiled. -/
def Summary.isViable (s : Summary) : Bool := s = .caughtMutant || s = .missedMutant || s = .timeout

theorem tallyOf_counts (os : List (Summary × Mutant)) :
    (tallyOf equivalents os).viable = os.countP (·.1.isViable) ∧
    (tallyOf equivalents os).unviable = os.countP (·.1 = .unviable) ∧
    (tallyOf equivalents os).missed =
      os.countP (fun o => o.1 = .missedMutant && !equivalents.contains o.2.name) ∧
    (tallyOf equivalents os).timeout = os.countP (·.1 = .timeout) ∧
    (tallyOf equivalents os).total =
      (tallyOf equivalents os).viable + (tallyOf equivalents os).unviable := by
  induction os using List.reverseRecOn with
  | nil => exact ⟨rfl, rfl, rfl, rfl, rfl⟩
  | append_singleton _ o ih =>
    obtain ⟨hv, hu, hm, ht, hsum⟩ := ih
    obtain ⟨summary, mutant⟩ := o
    rw [tallyOf_snoc]
    simp only [countP_append, countP_singleton]
    cases summary <;> simp [Tally.record, Summary.isViable, hv, hu, hm, ht, hsum] <;> grind

/-- What the map of tallies holds under a key. -/
def talliesOf (equivalents : List String) (os : List (Summary × Mutant)) (k : String) :
    Option Tally :=
  if Report.under os k = [] then none else some (tallyOf equivalents (Report.under os k))

theorem talliesOf_snoc (os : List (Summary × Mutant)) (o : Summary × Mutant) (k : String) :
    talliesOf equivalents (os ++ [o]) k = if o.2.key = k then
      some (((talliesOf equivalents os k).getD {}).record (equivalents.contains o.2.name) o.1)
    else talliesOf equivalents os k := by
  have hunder : Report.under (os ++ [o]) k =
      Report.under os k ++ if o.2.key = k then [o] else [] := by
    simp [Report.under, filter_append, filter_singleton]
  rw [talliesOf, hunder]
  split
  · rw [if_neg (by simp), tallyOf_snoc, talliesOf]
    split
    · next hnil => rw [hnil]; rfl
    · rfl
  · rw [append_nil]
    rfl

end Counts

/-! ## Tallies are exact -/

section Tallies

variable {report : Report} {candidates : List Mutant} {equivalents : List String}
  {expected : TreeMap String String}

theorem size_ofList_eq_length_iff (l : List String) :
    (TreeSet.ofList l).size = l.length ↔ l.Nodup := by
  constructor
  · intro h
    have hset : (TreeSet.ofList l).toList.toFinset = l.toFinset := by
      ext x
      simp [TreeSet.mem_toList, TreeSet.mem_ofList]
    have hdist : (TreeSet.ofList l).toList.Nodup := by
      refine TreeSet.distinct_toList.imp fun hne => ?_
      simpa using hne
    rw [← TreeSet.length_toList, ← toFinset_card_of_nodup hdist, hset] at h
    exact Multiset.toFinset_card_eq_card_iff_nodup.mp h
  · intro h
    refine TreeSet.size_ofList (h.imp fun hne => ?_)
    simpa using hne

/-- The map of the names and keys of some candidates. -/
def Maps (expected : TreeMap String String) (candidates : List Mutant) : Prop :=
  ∀ n k, expected[n]? = some k ↔ (n, k) ∈ candidates.map fun c => (c.name, c.key)

theorem Maps.mem (h : Maps expected candidates) {n : String} :
    n ∈ expected ↔ n ∈ candidates.map (·.name) := by
  rw [← isSome_getElem?_iff_mem, Option.isSome_iff_exists]
  simp [h n]

theorem expect_exact (candidates : List Mutant) : Exactly ((candidates.map (·.name)).Nodup)
    (candidates.foldlM expect ∅) (Maps · candidates) := by
  refine Exactly.foldlM (V := fun l => (l.map (·.name)).Nodup) (I := fun l m => Maps m l) (b := ∅)
    nodup_nil (fun n k => by simp) (fun l c h => ?_) (fun l c m hl hm => ?_) candidates
  · rw [map_append] at h
    exact h.of_append_left
  · have hnodup : ((l ++ [c]).map (·.name)).Nodup ↔ c.name ∉ m := by
      rw [hm.mem, map_append, map_singleton, nodup_append_comm]
      exact nodup_cons.trans (and_iff_left hl)
    refine .exit (fun h h' => hnodup.mp h' (mem_iff_contains.mpr h)) fun h => ?_
    have hnew : c.name ∉ m := fun h' => h (mem_iff_contains.mp h')
    refine .ok (hnodup.mpr hnew) fun n k => ?_
    rw [TreeMap.getElem?_insert, map_append, mem_append, ← hm]
    split
    · next hn =>
      obtain rfl : c.name = n := by simpa using hn
      simp [TreeMap.getElem?_eq_none hnew, eq_comm]
    · next hn =>
      have hne : n ≠ c.name := fun h' => hn (by simp [h'])
      simp [hne]

/-- An outcome that is counted. -/
def Fits (expected : TreeMap String String) (equivalents : List String)
    (o : Summary × Mutant) : Prop :=
  expected[o.2.name]? = some o.2.key ∧ (o.2.name ∈ equivalents → o.1 = .missedMutant) ∧
    o.1 ≠ .success ∧ o.1 ≠ .failure

theorem observe_exact_one (state : TreeMap String Tally × TreeSet String) (o : Summary × Mutant) :
    Exactly (Fits expected equivalents o ∧ o.2.name ∉ state.2)
      (observe expected (TreeSet.ofList equivalents) state o) (· = (state.1.insert o.2.key
        ((state.1.getD o.2.key {}).record (equivalents.contains o.2.name) o.1),
        state.2.insert o.2.name)) := by
  rw [observe, TreeSet.contains_ofList]
  split
  · next h =>
    refine .error fun hf => ?_
    cases h.symm.trans hf.1.1
  · next k hk =>
    refine .exit (fun h hf => h (Option.some.inj (hf.1.1.symm.trans hk))) fun hkey => ?_
    refine .exit (fun h hf => hf.2 (TreeSet.mem_iff_contains.mpr h)) fun hnew => ?_
    refine .exit (fun h hf => h.2 (hf.1.2.1 (by simpa using h.1))) fun hmissed => ?_
    refine .exit (fun h hf => h.elim hf.1.2.2.1 hf.1.2.2.2) fun hjudged => ?_
    refine .ok ⟨⟨?_, fun hn => ?_, fun h => hjudged (.inl h), fun h => hjudged (.inr h)⟩, ?_⟩ rfl
    · rw [hk, not_not.mp hkey]
    · by_contra hne
      exact hmissed ⟨by simpa using hn, hne⟩
    · exact fun h => hnew (TreeSet.mem_iff_contains.mp h)

/-- The outcomes are distinct and counted. -/
def Observed (expected : TreeMap String String) (equivalents : List String)
    (os : List (Summary × Mutant)) : Prop :=
  (os.map (·.2.name)).Nodup ∧ ∀ o ∈ os, Fits expected equivalents o

/-- What the loop has built of the outcomes it went through. -/
def Tallied (equivalents : List String) (os : List (Summary × Mutant))
    (c : TreeMap String Tally × TreeSet String) : Prop :=
  (∀ n, n ∈ c.2 ↔ n ∈ os.map (·.2.name)) ∧ ∀ k, c.1[k]? = talliesOf equivalents os k

theorem observe_exact (os : List (Summary × Mutant)) : Exactly (Observed expected equivalents os)
    (os.foldlM (observe expected (TreeSet.ofList equivalents)) (∅, ∅))
    (Tallied equivalents os) := by
  refine Exactly.foldlM (V := Observed expected equivalents) (I := Tallied equivalents)
    (by simp [Observed]) ⟨by simp, by simp [talliesOf, Report.under]⟩ (fun l o h => ?_)
    (fun l o c hl hc => ?_) os
  · have hnames := h.1
    rw [map_append] at hnames
    exact ⟨hnames.of_append_left, fun x hx => h.2 x (mem_append_left _ hx)⟩
  · have hiff : Observed expected equivalents (l ++ [o]) ↔
        Fits expected equivalents o ∧ o.2.name ∉ c.2 := by
      rw [Observed, hc.1, map_append, map_singleton, nodup_append_comm, forall_mem_append]
      simp only [singleton_append, nodup_cons, mem_singleton, forall_eq]
      exact ⟨fun h => ⟨h.2.2, h.1.1⟩, fun h => ⟨⟨h.2, hl.1⟩, hl.2, h.1⟩⟩
    rcases (observe_exact_one c o).congr hiff with ⟨hV, _, hok, rfl⟩ | hno
    · refine .inl ⟨hV, _, hok, fun n => ?_, fun k => ?_⟩
      · rw [TreeSet.mem_insert, hc.1, map_append, mem_append, map_singleton,
          mem_singleton, Std.compare_eq_iff_eq, or_comm, eq_comm]
      · rw [TreeMap.getElem?_insert, talliesOf_snoc, ← hc.2, TreeMap.getD_eq_getD_getElem?]
        by_cases hk : o.2.key = k
        · simp [hk]
        · simp [hk]
    · exact .inr hno

/-- What `tallies` asks of a report: one baseline, which passed; candidates with distinct names, and
for each of them one outcome under the same key; reviewed mutants that are distinct, current and
missed; and nothing but the four outcomes a mutant can have. -/
structure Complete (report : Report) (candidates : List Mutant)
    (equivalents : List String) : Prop where
  passed : report.baselines = [.success]
  selected : candidates ≠ []
  distinct : (candidates.map (·.name)).Nodup
  reviewed : equivalents.Nodup
  current : ∀ name ∈ equivalents, name ∈ candidates.map (·.name)
  matched : (report.mutants.map fun o => (o.2.name, o.2.key)).Perm
    (candidates.map fun c => (c.name, c.key))
  missed : ∀ o ∈ report.mutants, o.2.name ∈ equivalents → o.1 = .missedMutant
  judged : ∀ o ∈ report.mutants, o.1 ≠ .success ∧ o.1 ≠ .failure

/-- Distinct outcomes that fit, one for every candidate, are the candidates. -/
theorem observed_iff {os} (hdist : (candidates.map (·.name)).Nodup)
    (hmaps : Maps expected candidates) :
    Observed expected equivalents os ∧ (∀ n ∈ expected, n ∈ os.map (·.2.name)) ↔
    (os.map fun o => (o.2.name, o.2.key)).Perm (candidates.map fun c => (c.name, c.key)) ∧
      (∀ o ∈ os, o.2.name ∈ equivalents → o.1 = .missedMutant) ∧
      ∀ o ∈ os, o.1 ≠ .success ∧ o.1 ≠ .failure := by
  have hfst {α : Type} (l : List α) (f g : α → String) :
      (l.map fun a => (f a, g a)).map Prod.fst = l.map f := map_map
  constructor
  · rintro ⟨⟨hnodup, hfits⟩, hall⟩
    refine ⟨?_, fun o ho => (hfits o ho).2.1, fun o ho => (hfits o ho).2.2⟩
    have hnodup' := List.Nodup.of_map Prod.fst (hfst os _ (·.2.key) ▸ hnodup)
    have hdist' := List.Nodup.of_map Prod.fst (hfst candidates _ (·.key) ▸ hdist)
    refine (perm_ext_iff_of_nodup hnodup' hdist').mpr fun p => ⟨fun hp => ?_, fun hp => ?_⟩
    · obtain ⟨o, ho, rfl⟩ := mem_map.mp hp
      exact (hmaps _ _).mp (hfits o ho).1
    · have hn : p.1 ∈ expected := hmaps.mem.mpr (hfst candidates _ _ ▸ mem_map_of_mem hp)
      obtain ⟨o, ho, hon⟩ := mem_map.mp (hall _ hn)
      refine mem_map.mpr ⟨o, ho, Prod.ext hon ?_⟩
      exact Option.some.inj ((hfits o ho).1.symm.trans (hon ▸ (hmaps p.1 p.2).mpr hp))
  · rintro ⟨hperm, hmissed, hjudged⟩
    have hnames := hperm.map Prod.fst
    rw [hfst, hfst] at hnames
    refine ⟨⟨hnames.nodup_iff.mpr hdist, fun o ho => ?_⟩, fun n hn => ?_⟩
    · exact ⟨(hmaps _ _).mpr (hperm.subset (mem_map_of_mem ho)), hmissed o ho, hjudged o ho⟩
    · exact hnames.symm.subset (hmaps.mem.mp hn)

/-- **`tallies` is exact.** -/
theorem tallies_exact : Exactly (Complete report candidates equivalents)
    (tallies report candidates equivalents) fun t =>
      ∀ k, t[k]? = talliesOf equivalents report.mutants k := by
  rw [tallies]
  split
  iterate 2
    · next h => exact .error fun hc => by cases h.symm.trans hc.passed
  next summary hbaseline =>
  refine .exit (fun h hc => h (by cases hbaseline.symm.trans hc.passed; rfl)) fun hsuccess => ?_
  refine .exit (fun h hc => hc.selected (by simpa using h)) fun hselected => ?_
  refine (expect_exact candidates).bind Complete.distinct fun expected hdist hmaps => ?_
  refine .exit (fun h hc => h ((size_ofList_eq_length_iff _).mpr hc.reviewed)) fun hreviewed => ?_
  split
  · next name hname =>
    refine .error fun hc => ?_
    have hmem := TreeSet.mem_toList.mp (mem_of_find?_eq_some hname)
    have hcurrent := hmaps.mem.mpr (hc.current name (by simpa [TreeSet.mem_ofList] using hmem))
    simpa [mem_iff_contains.mp hcurrent] using find?_some hname
  · next hstale =>
    have hcurrent : ∀ n ∈ equivalents, n ∈ candidates.map (·.name) := by
      intro n hn
      have hmem : n ∈ TreeSet.ofList equivalents := by simpa [TreeSet.mem_ofList] using hn
      have := find?_eq_none.mp hstale n (TreeSet.mem_toList.mpr hmem)
      exact hmaps.mem.mp (mem_iff_contains.mpr (by simpa using this))
    have hdone : Complete report candidates equivalents ↔
        Observed expected equivalents report.mutants ∧
          ∀ n ∈ expected, n ∈ report.mutants.map (·.2.name) := by
      rw [observed_iff hdist hmaps]
      refine ⟨fun hc => ⟨hc.matched, hc.missed, hc.judged⟩, fun h => ⟨?_, by simpa using hselected,
        hdist, (size_ofList_eq_length_iff _).mp (not_not.mp hreviewed), hcurrent, h.1,
          h.2.1, h.2.2⟩⟩
      rw [hbaseline, not_not.mp hsuccess]
    refine (observe_exact report.mutants).bind (fun hc => (hdone.mp hc).1) fun c hobs hc => ?_
    obtain ⟨result, observed⟩ := c
    simp only
    split
    · next name hname =>
      refine .error fun h => ?_
      have hexpected := mem_keys.mp (mem_of_find?_eq_some hname)
      have := (hc.1 name).mpr ((hdone.mp h).2 name hexpected)
      simpa [TreeSet.mem_iff_contains.mp this] using find?_some hname
    · next hnone =>
      refine .ok (hdone.mpr ⟨hobs, fun n hn => ?_⟩) hc.2
      have := find?_eq_none.mp hnone n (mem_keys.mpr hn)
      exact (hc.1 n).mp (TreeSet.mem_iff_contains.mpr (by simpa using this))

end Tallies

/-! ## The verdict -/

/-- What the gate asks for: a complete report; outcomes that are caught, unviable, or missed and
reviewed; floors that are positive and current; distinct, current known-zero entries without floors;
and for every current key a floor that is reached, or a known-zero entry and no viable mutant. -/
structure Passes (report : Report) (candidates : List Mutant) (baseline : Baseline) : Prop
    extends Complete report candidates baseline.equivalentMutants where
  counted : ∀ o ∈ report.mutants, o.1 = .caughtMutant ∨ o.1 = .unviable ∨
    o.1 = .missedMutant ∧ o.2.name ∈ baseline.equivalentMutants
  floors : ∀ k floor, baseline.floors[k]? = some floor → 0 < floor ∧ k ∈ candidates.map (·.key)
  known : baseline.knownZeroViable.Nodup
  zeros : ∀ k ∈ baseline.knownZeroViable, k ∈ candidates.map (·.key) ∧ k ∉ baseline.floors
  accounted : ∀ k ∈ candidates.map (·.key),
    (∃ floor, baseline.floors[k]? = some floor ∧ floor ≤ (Report.under report.mutants k).countP
      fun o => o.1 = .caughtMutant ∨ o.1 = .missedMutant) ∨
    (k ∈ baseline.knownZeroViable ∧ ∀ o ∈ Report.under report.mutants k, o.1 = .unviable)

section Verdict

variable {report : Report} {candidates : List Mutant} {baseline : Baseline}
    {equivalents : List String}

/-- What the gate asks of one tally. -/
structure Accounted (floors : TreeMap String ℕ) (known : List String) (k : String) (t : Tally) :
    Prop where
  missed : t.missed = 0
  timeout : t.timeout = 0
  kept : (∃ floor, floors[k]? = some floor ∧ floor ≤ t.viable) ∨
    (floors[k]? = none ∧ k ∈ known ∧ t.viable = 0 ∧ t.unviable = t.total)

theorem tallyFailures_eq_nil {floors} {known} {k : String} {t : Tally} :
    tallyFailures floors (TreeSet.ofList known) (k, t) = [] ↔ Accounted floors known k t := by
  have hsplit : Accounted floors known k t ↔ t.missed = 0 ∧ t.timeout = 0 ∧
      ((∃ floor, floors[k]? = some floor ∧ floor ≤ t.viable) ∨
        (floors[k]? = none ∧ k ∈ known ∧ t.viable = 0 ∧ t.unviable = t.total)) :=
    ⟨fun h => ⟨h.1, h.2, h.3⟩, fun h => ⟨h.1, h.2.1, h.2.2⟩⟩
  rw [hsplit, tallyFailures, append_eq_nil_iff, append_eq_nil_iff, and_assoc]
  refine and_congr (by simp) (and_congr (by simp) ?_)
  cases hfloor : floors[k]? with
  | some => simp
  | none =>
    by_cases hk : k ∈ known
    · simp [hk]
    · simp [hk]

theorem failures_eq_nil {t} : failures candidates baseline t = [] ↔
    baseline.knownZeroViable.Nodup ∧
    (∀ k floor, baseline.floors[k]? = some floor → 0 < floor ∧ k ∈ candidates.map (·.key)) ∧
    (∀ k ∈ baseline.knownZeroViable, k ∈ candidates.map (·.key) ∧ k ∉ baseline.floors) ∧
    ∀ k x, t[k]? = some x → Accounted baseline.floors baseline.knownZeroViable k x := by
  have hexpected : ∀ k, (TreeSet.ofList (candidates.map (·.key))).contains k = true ↔
      k ∈ candidates.map (·.key) := by simp
  rw [failures, append_eq_nil_iff, append_eq_nil_iff, append_eq_nil_iff, and_assoc, and_assoc]
  refine and_congr ?_ (and_congr ?_ (and_congr ?_ ?_))
  · rw [← size_ofList_eq_length_iff]
    simp
  · simp only [flatMap_eq_nil_iff, Prod.forall, mem_toList_iff_getElem?_eq_some]
    refine forall₂_congr fun k floor => imp_congr_right fun _ => ?_
    rw [← hexpected, floorFailures]
    by_cases hzero : floor = 0
    · simp [hzero]
    · simp [hzero, Nat.pos_of_ne_zero hzero]
  · simp only [flatMap_eq_nil_iff, TreeSet.mem_toList]
    refine forall_congr' fun k => imp_congr (by simp) ?_
    rw [← hexpected, knownFailures, append_eq_nil_iff, mem_iff_contains]
    simp
  · simp only [flatMap_eq_nil_iff, Prod.forall, mem_toList_iff_getElem?_eq_some,
      tallyFailures_eq_nil]

theorem check_ok_iff : check report candidates baseline = .ok () ↔ ∃ t,
    tallies report candidates baseline.equivalentMutants = .ok t ∧
      failures candidates baseline t = [] := by
  rw [check]
  cases tallies report candidates baseline.equivalentMutants with
  | error => exact iff_of_false nofun (by rintro ⟨t, ⟨⟩, -⟩)
  | ok t =>
    cases hf : failures candidates baseline t with
    | nil | cons => simp [hf, bind, Except.bind]

theorem accounted_iff {floors} {known} {k : String}
    {os} (hj : ∀ o ∈ os, o.1 ≠ .success ∧ o.1 ≠ .failure) :
    Accounted floors known k (tallyOf equivalents os) ↔
      (∀ o ∈ os, o.1 = .caughtMutant ∨ o.1 = .unviable ∨
        o.1 = .missedMutant ∧ o.2.name ∈ equivalents) ∧
      ((∃ floor, floors[k]? = some floor ∧
          floor ≤ os.countP fun o => o.1 = .caughtMutant ∨ o.1 = .missedMutant) ∨
        floors[k]? = none ∧ k ∈ known ∧ ∀ o ∈ os, o.1 = .unviable) := by
  obtain ⟨hviable, hunviable, hmissed, htimeout, htotal⟩ := @tallyOf_counts equivalents os
  have hcounted : (tallyOf equivalents os).missed = 0 ∧ (tallyOf equivalents os).timeout = 0 ↔
      ∀ o ∈ os, o.1 = .caughtMutant ∨ o.1 = .unviable ∨
        o.1 = .missedMutant ∧ o.2.name ∈ equivalents := by
    rw [hmissed, htimeout, countP_eq_zero, countP_eq_zero, ← forall₂_and]
    refine forall₂_congr fun o ho => ?_
    obtain ⟨summary, mutant⟩ := o
    have := hj _ ho
    cases summary <;> simp_all
  have hcount (h : (tallyOf equivalents os).timeout = 0) : (tallyOf equivalents os).viable =
      os.countP fun o => o.1 = .caughtMutant ∨ o.1 = .missedMutant := by
    rw [htimeout, countP_eq_zero] at h
    rw [hviable]
    refine countP_congr fun o ho => ?_
    have := h o ho
    simp_all [Summary.isViable]
  have hzero : (tallyOf equivalents os).viable = 0 ∧
      (tallyOf equivalents os).unviable = (tallyOf equivalents os).total ↔
        ∀ o ∈ os, o.1 = .unviable := by
    rw [htotal, eq_comm (a := (tallyOf equivalents os).unviable), Nat.add_eq_right,
      and_self, hviable,
      countP_eq_zero]
    refine forall₂_congr fun o ho => ?_
    obtain ⟨summary, mutant⟩ := o
    have := hj _ ho
    cases summary <;> simp_all [Summary.isViable]
  constructor
  · rintro ⟨hm, ht, hkept⟩
    refine ⟨hcounted.mp ⟨hm, ht⟩, ?_⟩
    rwa [← hcount ht, ← hzero]
  · rintro ⟨hc, hkept⟩
    obtain ⟨hm, ht⟩ := hcounted.mpr hc
    refine ⟨hm, ht, ?_⟩
    rwa [hcount ht, ← hcount ht, hzero, hcount ht]

theorem Complete.under_ne_nil (h : Complete report candidates equivalents) {k : String} :
    Report.under report.mutants k ≠ [] ↔ k ∈ candidates.map (·.key) := by
  have hkeys := (h.matched.map Prod.snd).mem_iff (a := k)
  rw [map_map, map_map] at hkeys
  rw [show candidates.map (·.key) = candidates.map (Prod.snd ∘ fun c => (c.name, c.key))
    from rfl, ← hkeys,
    Report.under, Ne, filter_eq_nil_iff]
  simp

/-- **The verdict is exact.** -/
theorem check_exact (report : Report) (candidates : List Mutant) (baseline : Baseline) :
    check report candidates baseline = .ok () ↔ Passes report candidates baseline := by
  have hexact := @tallies_exact report candidates baseline.equivalentMutants
  have hj (hc : Complete report candidates baseline.equivalentMutants) (k : String) :
      ∀ o ∈ Report.under report.mutants k, o.1 ≠ .success ∧ o.1 ≠ .failure :=
    fun o ho => hc.judged o (mem_of_mem_filter ho)
  rw [check_ok_iff]
  constructor
  · rintro ⟨t, hok, hfail⟩
    obtain ⟨hc, ht⟩ := hexact.of_ok hok
    obtain ⟨hknown, hfloors, hzeros, hall⟩ := failures_eq_nil.mp hfail
    have haccounted (k : String) (hk : k ∈ candidates.map (·.key)) := (accounted_iff (hj hc k)).mp
      (hall k _ (by rw [ht, talliesOf, if_neg (hc.under_ne_nil.mpr hk)]))
    refine ⟨hc, fun o ho => ?_, hfloors, hknown, hzeros, fun k hk => ?_⟩
    · have hunder : o ∈ Report.under report.mutants o.2.key := mem_filter.mpr ⟨ho, by simp⟩
      exact (haccounted _ (hc.under_ne_nil.mp (ne_nil_of_mem hunder))).1 o hunder
    · exact (haccounted k hk).2.imp_right And.right
  · intro hp
    obtain ⟨t, hok, ht⟩ : ∃ t, tallies report candidates baseline.equivalentMutants = .ok t ∧ _ :=
      (hexact.resolve_right fun h => h.1 hp.toComplete).2
    refine ⟨t, hok, failures_eq_nil.mpr ⟨hp.known, hp.floors, hp.zeros, fun k x hx => ?_⟩⟩
    rw [ht, talliesOf] at hx
    split at hx
    · cases hx
    next hunder =>
    cases hx
    refine (accounted_iff (hj hp.toComplete k)).mpr
      ⟨fun o ho => hp.counted o (mem_of_mem_filter ho), ?_⟩
    refine (hp.accounted k (hp.under_ne_nil.mp hunder)).imp_right fun h => ⟨?_, h⟩
    exact TreeMap.getElem?_eq_none (hp.zeros k h.1).2

end Verdict

end Gate
