import Bombay.Entity.Decides

/-!
# Stale facts can be erased

Every decision is weighed by its evidence (`Weighs`).  From one weighed decision the rest is an
induction over the history: dropping the ignored facts leaves exactly the other transitions.
-/

set_option autoImplicit false

namespace Entity

open Machine

variable {C E L : Type*}

/-! ## Histories without ignored facts -/

def evidence (x : Transition (EntitySlot C E L) (SlotEvent C E L)) : TransitionEvidence :=
  (x.source.decide x.input).evidence

/-- A transition whose fact was not ignored. -/
def counts (x : Transition (EntitySlot C E L) (SlotEvent C E L)) : Bool :=
  decide (evidence x ≠ .ignored)

/-- The facts of a list that are not ignored when it is folded. -/
def kept (s : EntitySlot C E L) (es : List (SlotEvent C E L)) : List (SlotEvent C E L) :=
  ((history s es).filter counts).map Transition.input

theorem mem_history {s : EntitySlot C E L} {es : List (SlotEvent C E L)}
    {x : Transition (EntitySlot C E L) (SlotEvent C E L)} (hx : x ∈ history s es) :
    x.target = (x.source.decide x.input).state := by
  induction es generalizing s with
  | nil => cases hx
  | cons _ _ ih =>
    rcases List.mem_cons.mp hx with rfl | hx
    · rfl
    · exact ih hx

theorem foldl_accumulate_state (es : List (SlotEvent C E L)) (acc : SlotDecision C E L) :
    (es.foldl EntitySlot.accumulate acc).state = (acc.state.decideAll es).state := by
  induction es generalizing acc with
  | nil => rfl
  | cons _ _ ih =>
    rw [EntitySlot.decideAll, List.foldl_cons, List.foldl_cons, ih, ih]
    rfl

theorem decideAll_cons_state (s : EntitySlot C E L) (e : SlotEvent C E L)
    (es : List (SlotEvent C E L)) :
    (s.decideAll (e :: es)).state = ((s.decide e).state.decideAll es).state :=
  foldl_accumulate_state es _

theorem state_of_ignored {s : EntitySlot C E L} {e : SlotEvent C E L}
    (h : (s.decide e).evidence = .ignored) :
    (s.decide e).state = s ∧ GivesBack e (s.decide e).effects := by
  have hw := (decide_follows s e).weighs
  generalize s.decide e = d at h hw
  cases hw with
  | ignored hg => exact ⟨rfl, hg⟩
  | looped | traversed => cases h

/-- **Folding the kept facts makes the kept transitions.** -/
theorem history_kept (s : EntitySlot C E L) (es : List (SlotEvent C E L)) :
    history s (kept s es) = (history s es).filter counts ∧
      (s.decideAll (kept s es)).state = (s.decideAll es).state := by
  induction es generalizing s with
  | nil => exact ⟨rfl, rfl⟩
  | cons e es ih =>
    obtain ⟨hh, hs⟩ := ih (s.decide e).state
    by_cases he : (s.decide e).evidence = .ignored
    · -- the fact goes, and the slot is where it was
      have hstate := (state_of_ignored he).1
      have hdrop : (history s (e :: es)).filter counts = (history s es).filter counts := by
        rw [history, hstate, List.filter_cons_of_neg (by simp [counts, evidence, he])]
      rw [hstate] at hh hs
      rw [kept, hdrop]
      refine ⟨hh, hs.trans ?_⟩
      rw [decideAll_cons_state, hstate]
    · have hkeep : (history s (e :: es)).filter counts =
          ⟨s, e, (s.decide e).state⟩ :: (history (s.decide e).state es).filter counts :=
        List.filter_cons_of_pos (by simp [counts, evidence, he])
      rw [kept, hkeep, List.map_cons, decideAll_cons_state, decideAll_cons_state]
      exact ⟨congrArg _ hh, hs⟩

/-- What it means that stale facts can be erased from the fold of `es`. -/
structure Erasable (s : EntitySlot C E L) (es : List (SlotEvent C E L)) : Prop where
  /-- The kept facts lead to the same slot. -/
  state : (s.decideAll (kept s es)).state = (s.decideAll es).state
  /-- Of all that was emitted, the kept facts emit what they emitted before. -/
  emits : (s.decideAll es).effects = (history s es).flatMap emitted ∧
    (s.decideAll (kept s es)).effects = ((history s es).filter counts).flatMap emitted
  /-- An ignored fact changes nothing and emits at most what it brought. -/
  returns : ∀ x ∈ history s es, evidence x = .ignored →
    x.target = x.source ∧ GivesBack x.input (emitted x)
  /-- Every fact about another activation is ignored. -/
  stale : ∀ x ∈ history s es, ∀ a, x.input.names = some a → x.source.activationId ≠ some a →
    evidence x = .ignored
  /-- A traversal is a change of phase. -/
  traversal : ∀ x ∈ history s es,
    (∃ edge, evidence x = .traversed edge) ↔ x.target.phase ≠ x.source.phase

/-- **Stale facts are erasable**, for every slot and every list of facts. -/
theorem stale_facts_erasable (s : EntitySlot C E L) (es : List (SlotEvent C E L)) :
    Erasable s es := by
  obtain ⟨hhistory, hstate⟩ := history_kept s es
  refine ⟨hstate, ⟨decideAll_effects s es, ?_⟩, fun x hx hi => ?_, fun x _ a ha hne => ?_,
    fun x hx => ?_⟩
  · rw [decideAll_effects, hhistory]
    rfl
  · obtain ⟨hsame, hgives⟩ := state_of_ignored hi
    exact ⟨(mem_history hx).trans hsame, hgives⟩
  · have hw := (decide_follows x.source x.input).weighs
    unfold evidence
    generalize x.source.decide x.input = d at hw
    cases hw with
    | ignored => rfl
    | looped _ hn | traversed _ hn => exact absurd (hn a ha) hne
  · have hw := (decide_follows x.source x.input).weighs
    rw [mem_history hx]
    unfold evidence
    generalize x.source.decide x.input = d at hw
    cases hw with
    | ignored => exact ⟨fun ⟨_, h⟩ => (nomatch h), fun h => absurd rfl h⟩
    | looped hp => exact ⟨fun ⟨_, h⟩ => (nomatch h), fun h => absurd hp h⟩
    | traversed hp => exact ⟨fun _ => hp, fun _ => ⟨_, rfl⟩⟩

end Entity
