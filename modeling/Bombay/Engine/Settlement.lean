import Mathlib.Data.List.Perm.Basic
import Bombay.Engine.Protocol

/-!
# The custody of settlements

Every product of `activate` and `apply` is a settlement that the driver owes to somebody: it waits
in the interpretation slot until it has been classified, then it is a row of the queue, and while it
is offered it is out of the queue, in one of the two source slots.  In the end it is dropped, after
an `Exhausted` reply, or it is handed to retirement.

`Driver.custody` reads the slots as one list, newest product first, the row in flight standing where
it was taken from.  In this reading almost nothing ever happens: `custody_step` says that a move
leaves the list alone, or puts a new product in front, or takes out the one that is dropped.  That
the settlements are conserved and that they stay in causal order are then two inductions over the
same statement.

The host may rewrite a settlement while it is offered, so settlements are followed by their
identity, an arbitrary function `ident` that the host respects (`Conserves`).
-/

set_option autoImplicit false

namespace Engine

open Machine List Option Driver ExecutionPhase SettlementTurn

variable {P : Port} {c c' : Config P} {d : Driver P} {p : Point P} {i : Input P}
  {b : P.Behavior} {e : P.Environment} {tr : DriverHistory P} {u : Config P}
  {ι : Type} {ident : P.Settlement → ι}

/-! ## Where settlements are -/

namespace Driver

/-- The four slots that hold settlements before retirement. -/
def slots (d : Driver P) : List P.Settlement :=
  (d.interpretation.map P.intoSettlement).toList ++
    d.settlements.map intoSettlement ++ d.sourceInput.toList ++
    (d.sourceReceived.map SourceCustody.settlement).toList

def inFlight (d : Driver P) : Option P.Settlement :=
  d.sourceInput.or (d.sourceReceived.map SourceCustody.settlement)

/-- The queue with the row in flight at the index it was taken from. -/
def queue (d : Driver P) : List P.Settlement :=
  match d.sourceIndex, d.inFlight with
  | some index, some s => (d.settlements.map intoSettlement).insertIdx index s
  | _, _ => d.settlements.map intoSettlement

/-- All settlements of a driver, newest product first. -/
def custody (d : Driver P) : List P.Settlement :=
  (d.interpretation.map P.intoSettlement).toList ++ d.queue ++ d.retirementInput.getD []

theorem queue_of_none (h : d.sourceIndex = none) : d.queue = d.settlements.map intoSettlement := by
  rw [queue, h]

theorem queue_of_some {index : ℕ} {s} (hx : d.sourceIndex = some index) (hs : d.inFlight = some s) :
    d.queue = (d.settlements.map intoSettlement).insertIdx index s := by
  rw [queue, hx, hs]

end Driver

/-- The settlement that a host produced in a transition. -/
def product? (x : Transition (Config P) (Input P)) : Option P.Settlement :=
  match x.input with
  | .completed (.activation _ _ (some (.ok (_, i)))) _ => some (P.intoSettlement i)
  | .completed (.application _ (some i)) _ => some (P.intoSettlement i)
  | _ => none

/-- The settlement whose destructor a transition called. -/
def disposal? (x : Transition (Config P) (Input P)) : Option P.Settlement :=
  match x.target.point with
  | .dispose s => some s
  | _ => none

/-- All products of a history, oldest first. -/
def produced (tr : DriverHistory P) : List P.Settlement := tr.filterMap product?

/-- All settlements dropped in a history. -/
def disposed (tr : DriverHistory P) : List P.Settlement := tr.filterMap disposal?

/-- The host conserves what it is lent in this transition: `offer_next` leaves its input in the
input slot, or moves it into exactly one reply; a reply of `activate` stands alone. -/
def ConservesAt (ident : P.Settlement → ι) (x : Transition (Config P) (Input P)) : Prop :=
  match x.input with
  | .completed (.source settlement received) _ =>
    (settlement = x.source.driver.sourceInput ∧ received = none) ∨
      (settlement = none ∧ received.isSome ∧
        received.map (fun custody => ident custody.settlement) =
          x.source.driver.sourceInput.map ident)
  | .completed (.activation environment actions received) _ =>
    received.isSome → environment = none ∧ actions = none
  | _ => True

/-- The host conserves what it is lent. -/
def Conserves (ident : P.Settlement → ι) (tr : DriverHistory P) : Prop :=
  ∀ x ∈ tr, ConservesAt ident x

/-! ## What the slots say of each other -/

/-- The order among the slots, as long as no retirement has ended. -/
structure Kept (d : Driver P) (p : Point P) : Prop where
  owners : d.active.isSome → d.environment = none ∧ d.residual = none
  empty : d.sourceIndex = none → d.sourceInput = none ∧ d.sourceReceived = none
  range : ∀ index, d.sourceIndex = some index → index ≤ d.settlements.length
  input : d.sourceIndex.isSome → d.sourceReceived = none → d.sourceInput.isSome
  received : d.sourceReceived.isSome → d.sourceInput = none ∧ ∃ fs, p = .offered fs
  turn : d.sourceIndex.isSome → d.interpretation = none
  gathered : d.retirementInput.isSome → p = .retireActive

structure SameSlots (d d' : Driver P) : Prop where
  active : d'.active = d.active
  environment : d'.environment = d.environment
  residual : d'.residual = d.residual
  interpretation : d'.interpretation = d.interpretation
  sourceIndex : d'.sourceIndex = d.sourceIndex
  sourceInput : d'.sourceInput = d.sourceInput
  sourceReceived : d'.sourceReceived = d.sourceReceived
  settlements : d'.settlements = d.settlements
  retirementInput : d'.retirementInput = d.retirementInput

theorem SameSlots.custody {d' : Driver P} (h : SameSlots d d') : d'.custody = d.custody := by
  unfold Driver.custody queue inFlight
  rw [h.interpretation, h.sourceIndex, h.sourceInput, h.sourceReceived, h.settlements,
    h.retirementInput]

theorem Kept.same {d' : Driver P} {p' : Point P} (h : Kept d p) (hs : SameSlots d d')
    (hr : d.sourceReceived.isSome → ∃ fs, p' = .offered fs)
    (hg : d.retirementInput.isSome → p' = .retireActive) : Kept d' p' where
  owners := by rw [hs.active, hs.environment, hs.residual]; exact h.owners
  empty := by rw [hs.sourceIndex, hs.sourceInput, hs.sourceReceived]; exact h.empty
  range := by rw [hs.sourceIndex, hs.settlements]; exact h.range
  input := by rw [hs.sourceIndex, hs.sourceInput, hs.sourceReceived]; exact h.input
  received := by
    rw [hs.sourceInput, hs.sourceReceived]
    exact fun hrec => ⟨(h.received hrec).1, hr hrec⟩
  turn := by rw [hs.sourceIndex, hs.interpretation]; exact h.turn
  gathered := by rw [hs.retirementInput]; exact hg

theorem Kept.grounded (ho : d.active.isSome → d.environment = none ∧ d.residual = none)
    (hx : d.sourceIndex = none) (hi : d.sourceInput = none) (hr : d.sourceReceived = none)
    (hg : d.retirementInput = none) : Kept d p where
  owners := ho
  empty _ := ⟨hi, hr⟩
  range := by rw [hx]; rintro index ⟨⟩
  input := by rw [hx]; rintro ⟨⟩
  received := by rw [hr]; rintro ⟨⟩
  turn := by rw [hx]; rintro ⟨⟩
  gathered := by rw [hg]; rintro ⟨⟩

/-! ## What one move does to custody -/

/-- A transition keeps the order among the slots, and leaves the list of custody alone but for a new
product in front or a settlement that is dropped.  While a row is in flight nothing changes. -/
structure Accounts (ident : P.Settlement → ι) (x : Transition (Config P) (Input P)) : Prop where
  kept : Kept x.target.driver x.target.point
  list : (disposal? x = none ∧ x.target.driver.custody.map ident =
      ((product? x).toList ++ x.source.driver.custody).map ident) ∨
    ∃ s newer older, product? x = none ∧ disposal? x = some s ∧
      x.source.driver.custody.map ident = newer ++ ident s :: older ∧
      x.target.driver.custody.map ident = newer ++ older
  index : ∀ index, x.target.driver.sourceIndex = some index →
    product? x = none ∧ disposal? x = none ∧ (x.source.driver.sourceIndex = some index ∨
      x.source.point = .settle ∧ x.source.driver.sourceIndex = none)

theorem Accounts.same (h : Kept c.driver c.point) (hr : c.driver.sourceReceived = none)
    (hg : c.driver.retirementInput = none) (hs : SameSlots c.driver c'.driver)
    (hp : product? ⟨c, i, c'⟩ = none) (hd : disposal? ⟨c, i, c'⟩ = none) :
    Accounts ident ⟨c, i, c'⟩ where
  kept := h.same hs (by rw [hr]; rintro ⟨⟩) (by rw [hg]; rintro ⟨⟩)
  list := .inl ⟨hd, by rw [hp, hs.custody]; rfl⟩
  index index hindex := ⟨hp, hd, .inl (hs.sourceIndex.symm.trans hindex)⟩

theorem Accounts.record (h : Accounts ident ⟨c, i, ⟨d, p⟩⟩) (es : List (DriverError P)) :
    Accounts ident ⟨c, i, ⟨d.rejectAll es, p⟩⟩ := by
  have hs : SameSlots d (d.rejectAll es) := by
    rw [rejectAll_eq]
    exact ⟨rfl, rfl, rfl, rfl, rfl, rfl, rfl, rfl, rfl⟩
  refine ⟨h.kept.same hs (fun hr => (h.kept.received hr).2) h.kept.gathered, ?_, ?_⟩
  · rw [show (d.rejectAll es).custody = d.custody from hs.custody]
    exact h.list
  · rw [show (d.rejectAll es).sourceIndex = d.sourceIndex from hs.sourceIndex]
    exact h.index

/-- Gathering moves the whole queue, with the row in flight where it was taken from. -/
theorem gather_queue (h : Kept d .head) (ha : d.active.isSome) :
    d.gather = { d with
      sourceInput := none
      sourceIndex := none
      settlements := []
      retirementInput := some d.queue } := by
  have hr : d.sourceReceived = none := by
    by_contra hne
    obtain ⟨-, fs, hfs⟩ := h.received (ne_none_iff_isSome.mp hne)
    cases hfs
  have hg : d.retirementInput = none := by
    by_contra hne
    cases h.gathered (ne_none_iff_isSome.mp hne)
  cases hx : d.sourceIndex with
  | none =>
    obtain ⟨hi, -⟩ := h.empty hx
    simp [gather, hg, ha, hx, hi, queue_of_none hx]
  | some =>
    obtain ⟨s, hi⟩ := isSome_iff_exists.mp (h.input (by rw [hx]; rfl) hr)
    have hs : d.inFlight = some s := by rw [inFlight, hi]; rfl
    simp [gather, hg, ha, hx, hi, queue_of_some hx hs, map_insertIdx]

theorem Kept.unanswered (h : Kept d p) (hp : ∀ fs, p ≠ .offered fs) : d.sourceReceived = none := by
  by_contra hne
  obtain ⟨-, fs, hfs⟩ := h.received (ne_none_iff_isSome.mp hne)
  exact hp fs hfs

theorem Kept.ungathered (h : Kept d p) (hp : p.isRetire = false) : d.retirementInput = none := by
  by_contra hne
  rw [h.gathered (ne_none_iff_isSome.mp hne)] at hp
  cases hp

theorem accounts_take (h : Kept d .settle) (hi : d.interpretation = none)
    (hx : d.sourceIndex = none) {newer older} {s}
    (hq : d.settlements = newer ++ .offer s :: older) :
    Accounts ident ⟨⟨d, .settle⟩, .advance, ⟨{ d with
      settlements := newer ++ older
      sourceIndex := some newer.length
      sourceInput := some s }, .head⟩⟩ := by
  have hr := h.unanswered (by simp)
  have hqueue : queue { d with
      settlements := newer ++ older
      sourceIndex := some newer.length
      sourceInput := some s } = d.queue := by
    rw [queue_of_none hx, queue_of_some rfl rfl, hq, map_append,
      ← length_map (f := intoSettlement), insertIdx_append_length]
    simp
  refine ⟨⟨h.owners, by rintro ⟨⟩, ?_, fun _ _ => rfl, ?_, fun _ => hi, ?_⟩, .inl ⟨rfl, ?_⟩, ?_⟩
  · rintro index ⟨⟩
    simp
  · rw [hr]; rintro ⟨⟩
  · rw [h.ungathered rfl]; rintro ⟨⟩
  · rw [Driver.custody, hqueue]; rfl
  · exact fun _ _ => ⟨rfl, rfl, .inr ⟨rfl, hx⟩⟩

theorem accounts_putBack {fs} (h : Kept d (.offered fs)) {custody} {index : ℕ}
    (hi : d.sourceInput = none) (hr : d.sourceReceived = some custody)
    (hx : d.sourceIndex = some index) {row} (hrow : row.intoSettlement = custody.settlement) :
    Accounts ident ⟨⟨d, .offered fs⟩, .advance, ⟨{ d with
      sourceReceived := none
      sourceIndex := none
      settlements := d.settlements.insertIdx index row }, .head⟩⟩ := by
  have hs : d.inFlight = some custody.settlement := by rw [inFlight, hi, hr]; rfl
  refine ⟨.grounded h.owners rfl hi rfl (h.ungathered rfl), .inl ⟨rfl, ?_⟩, by rintro _ ⟨⟩⟩
  rw [Driver.custody, queue_of_none rfl, Driver.custody, queue_of_some hx hs, map_insertIdx, hrow]
  rfl

theorem accounts_exhausted {fs} (h : Kept d (.offered fs)) {s}
    {index : ℕ} (hi : d.sourceInput = none) (hr : d.sourceReceived = some (.exhausted s))
    (hx : d.sourceIndex = some index) :
    Accounts ident ⟨⟨d, .offered fs⟩, .advance,
      ⟨{ d with sourceReceived := none, sourceIndex := none }, .dispose s⟩⟩ := by
  have hs : d.inFlight = some s := by rw [inFlight, hi, hr]; rfl
  have hg : d.retirementInput = none := h.ungathered rfl
  have hrange : index ≤ (d.settlements.map intoSettlement).length := by
    rw [length_map]
    exact h.range index hx
  refine ⟨.grounded h.owners rfl hi rfl hg, .inr ?_, by rintro _ ⟨⟩⟩
  let newer := (d.settlements.map intoSettlement).take index
  let older := (d.settlements.map intoSettlement).drop index
  refine ⟨s, ((d.interpretation.map P.intoSettlement).toList ++ newer).map ident,
    older.map ident, rfl, rfl, ?_, ?_⟩
  · rw [Driver.custody, queue_of_some hx hs, hg, insertIdx_of_le hrange]
    simp [newer, older]
  · have hsplit : newer ++ older = d.settlements.map intoSettlement :=
      take_append_drop index _
    rw [Driver.custody, queue_of_none rfl, hg, ← map_append, append_assoc _ newer older, hsplit]
    simp

theorem accounts_enqueue (h : Kept c.driver c.point) {i} {j : Input P}
    (hp : c.point = .classify) (hi : c.driver.interpretation = some i)
    (hx : c.driver.sourceIndex = none) (hs : SameSlots (c.driver.enqueue i) c'.driver)
    (hq : product? ⟨c, j, c'⟩ = none) (hd : disposal? ⟨c, j, c'⟩ = none) :
    Accounts ident ⟨c, j, c'⟩ := by
  have hr : c.driver.sourceReceived = none := h.unanswered (by rw [hp]; simp)
  have hg : c.driver.retirementInput = none := h.ungathered (by rw [hp]; rfl)
  have hkept : Kept (c.driver.enqueue i) c'.point := .grounded h.owners hx (h.empty hx).1 hr hg
  refine ⟨hkept.same hs (fun h' => ?_) (fun h' => ?_), .inl ⟨hd, ?_⟩, ?_⟩
  · rw [show (c.driver.enqueue i).sourceReceived = none from hr] at h'
    cases h'
  · rw [show (c.driver.enqueue i).retirementInput = none from hg] at h'
    cases h'
  · rw [hs.custody, hq, Driver.custody, queue_of_none (d := c.driver.enqueue i) hx,
      Driver.custody, queue_of_none hx, hi]
    rfl
  · intro index hindex
    rw [hs.sourceIndex, show (c.driver.enqueue i).sourceIndex = none from hx] at hindex
    cases hindex

theorem accounts_product (hk : Kept c'.driver c'.point) {i} {j : Input P}
    (hi : c.driver.interpretation = none) (hi' : c'.driver.interpretation = some i)
    (hx : c'.driver.sourceIndex = none) (hq : c'.driver.queue = c.driver.queue)
    (hg : c'.driver.retirementInput = c.driver.retirementInput)
    (hp : product? ⟨c, j, c'⟩ = some (P.intoSettlement i)) (hd : disposal? ⟨c, j, c'⟩ = none) :
    Accounts ident ⟨c, j, c'⟩ := by
  refine ⟨hk, .inl ⟨hd, ?_⟩, ?_⟩
  · rw [hp, Driver.custody, hi', hq, hg, Driver.custody, hi]
    rfl
  · intro index hindex
    rw [show _ = none from hx] at hindex
    cases hindex

theorem accounts_applied (h : Kept d .apply) (hi : d.interpretation = none)
    (hx : d.sourceIndex = none) {actions} {received} {reply} :
    Accounts ident ⟨⟨d, .apply⟩, .completed (.application actions received) reply,
      ⟨{ d with actions := actions, interpretation := received }, .head⟩⟩ := by
  obtain ⟨hin, hr⟩ := h.empty hx
  have hg : d.retirementInput = none := h.ungathered rfl
  cases received with
  | none => exact .same h hr hg ⟨rfl, rfl, rfl, hi.symm, rfl, rfl, rfl, rfl, rfl⟩ rfl rfl
  | some =>
    exact accounts_product (.grounded h.owners hx hin hr hg) hi rfl hx rfl rfl rfl rfl

theorem accounts_offerEnded (h : Kept d .offerNext) (hx : d.sourceIndex.isSome)
    {settlement} {received}
    {reply}
    (hc : (settlement = d.sourceInput ∧ received = none) ∨
      (settlement = none ∧ received.isSome ∧
        received.map (fun custody => ident custody.settlement) = d.sourceInput.map ident)) :
    Accounts ident ⟨⟨d, .offerNext⟩, .completed (.source settlement received) reply,
      ⟨{ d with sourceInput := settlement, sourceReceived := received },
        .offered reply.failures⟩⟩ := by
  have hr : d.sourceReceived = none := h.unanswered (by simp)
  have hg : d.retirementInput = none := h.ungathered rfl
  obtain ⟨index, hindex⟩ := isSome_iff_exists.mp hx
  obtain ⟨s, hs⟩ := isSome_iff_exists.mp (h.input hx hr)
  have hnone {q : Prop} (hnone : d.sourceIndex = none) : q := by
    rw [hnone] at hx
    cases hx
  refine ⟨⟨h.owners, fun hx' => hnone hx', h.range, fun _ hr' => ?_, fun hr' => ?_, h.turn, ?_⟩,
    .inl ⟨rfl, ?_⟩, fun index' hindex' => ⟨rfl, rfl, .inl hindex'⟩⟩
  · obtain ⟨rfl, -⟩ | ⟨-, hsome, -⟩ := hc
    · exact h.input hx hr
    · rw [show received = none from hr'] at hsome
      cases hsome
  · obtain ⟨-, rfl⟩ | ⟨rfl, -⟩ := hc
    · cases hr'
    · exact ⟨rfl, _, rfl⟩
  · rw [hg]; rintro ⟨⟩
  · obtain ⟨rfl, rfl⟩ | ⟨rfl, hsome, hident⟩ := hc
    · simp only [Driver.custody, queue, inFlight, hr, product?, toList_none, nil_append]
    · obtain ⟨custody, rfl⟩ := isSome_iff_exists.mp hsome
      rw [hs] at hident
      have hident' : ident custody.settlement = ident s := some.inj hident
      have hfly : d.inFlight = some s := by rw [inFlight, hs]; rfl
      have hqueue : (queue { d with
          sourceInput := none
          sourceReceived := some custody }).map ident = d.queue.map ident := by
        rw [queue_of_some hindex hfly, queue, inFlight]
        simp only [hindex, none_or, map_some, map_insertIdx, hident']
      rw [Driver.custody, map_append, map_append, hqueue]
      simp [Driver.custody, product?]

theorem custody_step (h : Shape c.driver c.point) (hk : Kept c.driver c.point) (hm : Moves c i c')
    (hd : ∀ loan, i ≠ .dropped loan) (hp : c.point.isRetire = false)
    (hc : ConservesAt ident ⟨c, i, c'⟩) : Accounts ident ⟨c, i, c'⟩ := by
  have ha := h.admits
  have hg := hk.ungathered hp
  cases hm with
  | again =>
    obtain rfl := h.same
    exact .same hk (hk.unanswered (by simp)) hg
      ⟨rfl, rfl, rfl, rfl, rfl, rfl, rfl, rfl, rfl⟩ rfl rfl
  | @retireActive d hphase hs he hact hres =>
    have hr := hk.unanswered (by simp)
    rw [show d.gather = _ from gather_queue hk hact]
    refine ⟨⟨fun _ => ⟨he, hres⟩, fun _ => ⟨rfl, hr⟩, by rintro _ ⟨⟩, by rintro ⟨⟩, ?_,
      by rintro ⟨⟩,
      fun _ => rfl⟩, .inl ⟨rfl, ?_⟩, by rintro _ ⟨⟩⟩
    · rw [hr]; rintro ⟨⟩
    · simp [Driver.custody, queue_of_none, product?, show d.retirementInput = none from hg]
  | @abandon d hphase hs hn =>
    have hact : d.active = none := by
      by_contra hne
      have hsome := ne_none_iff_isSome.mp hne
      obtain ⟨henv, hres⟩ := hk.owners hsome
      rcases hn with hn | hn
      · rw [hres] at hn; cases hn
      · rw [henv] at hn; cases hn.mpr hsome
    have hgather : d.gather = d := by simp [gather, hact]
    rw [hgather]
    exact .same hk (hk.unanswered (by simp)) hg
      ⟨rfl, rfl, rfl, rfl, rfl, rfl, rfl, rfl, rfl⟩ rfl rfl
  | @malformedActivation d environment actions received reply hm =>
    have hf := h.fresh ha
    have hnone : received = none := by
      by_contra hne
      obtain ⟨rfl, rfl⟩ := hc (ne_none_iff_isSome.mp hne)
      rcases hm with hm | hm | hm
      · cases hm
      · cases hm
      · exact hne hm
    subst hnone
    refine .record ?_ _
    refine ⟨.grounded ?_ hf.sourceIndex hf.sourceInput hf.sourceReceived hg, .inl ⟨rfl, rfl⟩, ?_⟩
    · rw [hf.active]; rintro ⟨⟩
    · rw [show d.sourceIndex = none from hf.sourceIndex]; rintro _ ⟨⟩
  | @activated d active i reply =>
    have hf := h.fresh ha
    refine .record ?_ _
    refine accounts_product ?_ hf.interpretation rfl hf.sourceIndex rfl rfl rfl rfl
    exact .grounded (fun _ => ⟨rfl, hf.residual⟩) hf.sourceIndex hf.sourceInput hf.sourceReceived hg
  | @unactivated d error residual reply =>
    have hf := h.fresh ha
    refine .record ?_ _
    refine ⟨.grounded ?_ hf.sourceIndex hf.sourceInput hf.sourceReceived hg, .inl ⟨rfl, rfl⟩, ?_⟩
    · rw [hf.active]; rintro ⟨⟩
    · rw [show d.sourceIndex = none from hf.sourceIndex]; rintro _ ⟨⟩
  | condemned hi | stopped hi | continued hi =>
    exact accounts_enqueue hk rfl hi ((h.live ha).turn (by rw [hi]; rfl))
      ⟨rfl, rfl, rfl, rfl, rfl, rfl, rfl, rfl, rfl⟩ rfl rfl
  | take _ hx hq => exact accounts_take hk (h.live ha).holds.2 hx hq
  | @nextSource d _ hx newer older s hq =>
    obtain ⟨hi, hr⟩ := hk.empty hx
    refine ⟨.grounded hk.owners hx hi hr hg, .inl ⟨rfl, ?_⟩, ?_⟩
    · simp [Driver.custody, queue, show d.sourceIndex = none from hx, hq, product?]
    · rw [show d.sourceIndex = none from hx]; rintro _ ⟨⟩
  | sourceHeld _ _ _ _ hg' =>
    rw [(h.live ha).holds.1] at hg'
    cases hg'
  | offerEnded => exact accounts_offerEnded hk (h.live ha).holds.2.2 hc
  | @malformedOffer d fs hm =>
    have hr : d.sourceReceived = none := by
      by_contra hne
      rcases hm with hm | hm | hm
      · rw [(hk.received (ne_none_iff_isSome.mp hne)).1] at hm
        cases hm
      · exact hne hm
      · exact hne (hk.empty hm).2
    refine .record ?_ _
    exact .same hk hr hg ⟨rfl, rfl, rfl, rfl, rfl, rfl, rfl, rfl, rfl⟩ rfl rfl
  | exhausted hi hr hx => exact .record (accounts_exhausted hk hi hr hx) _
  | retained hi hr hx | admitted hi hr hx | closed hi hr hx =>
    exact .record (accounts_putBack hk hi hr hx rfl) _
  | applied | malformedApply =>
    refine .record ?_ _
    exact accounts_applied hk (h.live ha).holds.2.1 (h.live ha).holds.2.2
  | retired hp' => rcases hp' with rfl | rfl <;> cases hp
  | dropActivate | dropOffer | dropNextSource | dropNext | dropApply | dropRetire =>
    exact absurd rfl (hd _)
  | disposed | sourceClosed | sourceFailed | nextFailed =>
    refine .record ?_ _
    exact .same hk (hk.unanswered (by simp)) hg
      ⟨rfl, rfl, rfl, rfl, rfl, rfl, rfl, rfl, rfl⟩ rfl rfl
  | _ =>
    exact .same hk (hk.unanswered (by simp)) hg
      ⟨rfl, rfl, rfl, rfl, rfl, rfl, rfl, rfl, rfl⟩ rfl rfl

/-! ## The account of a run -/

/-- The account of a history: everything produced is in custody or was dropped, and custody is in
the order of production, newest first.  A row in flight stands where it was taken from. -/
structure Account (ident : P.Settlement → ι) (tr : DriverHistory P) (c : Config P) : Prop where
  kept : Kept c.driver c.point
  all : ((produced tr).map ident).Perm ((c.driver.custody ++ disposed tr).map ident)
  order : (c.driver.custody.map ident).Sublist ((produced tr).reverse.map ident)
  taken : ∀ index, c.driver.sourceIndex = some index →
    ∃ y ∈ tr, y.source.point = .settle ∧ y.source.driver.sourceIndex = none ∧
      y.target.driver.sourceIndex = some index ∧
      y.source.driver.custody.map ident = c.driver.custody.map ident

theorem filterMap_snoc {α β : Type*} (f : α → Option β) (l : List α) (a : α) :
    (l ++ [a]).filterMap f = l.filterMap f ++ (f a).toList := by
  cases h : f a <;> simp [filterMap_append, h]

theorem Account.step {x} (h : Account ident tr x.source)
    (hx : Accounts ident x) : Account ident (tr ++ [x]) x.target := by
  have hproduced : produced (tr ++ [x]) = produced tr ++ (product? x).toList := filterMap_snoc ..
  have hdisposed : disposed (tr ++ [x]) = disposed tr ++ (disposal? x).toList := filterMap_snoc ..
  have hall := h.all
  refine ⟨hx.kept, ?_, ?_, fun index hindex => ?_⟩
  · rcases hx.list with ⟨hd, hlist⟩ | ⟨s, newer, older, hp, hd, hlist, hlist'⟩
    · rw [hproduced, hdisposed, hd, toList_none, append_nil]
      have hfront := (hall.append_right ((product? x).toList.map ident)).trans perm_append_comm
      simpa only [map_append, hlist, append_assoc] using hfront
    · rw [map_append, hlist] at hall
      rw [hproduced, hdisposed, hp, hd, toList_none, append_nil, map_append,
        map_append, hlist', ← append_assoc]
      have hmove : (newer ++ ident s :: older ++ (disposed tr).map ident).Perm
          (ident s :: (newer ++ older ++ (disposed tr).map ident)) :=
        perm_middle.append_right _
      exact hall.trans (hmove.trans (perm_append_singleton _ _).symm)
  · rcases hx.list with ⟨hd, hlist⟩ | ⟨s, newer, older, hp, hd, hlist, hlist'⟩
    · rw [hproduced, hlist, reverse_append, map_append, map_append]
      refine List.Sublist.append ?_ h.order
      cases product? x <;> simp
    · rw [hproduced, hp, hlist', toList_none, append_nil]
      refine List.Sublist.trans ?_ (hlist ▸ h.order)
      exact List.Sublist.append_left (sublist_cons_self _ _) _
  · -- while a row is in flight the list does not change
    obtain ⟨hp, hd, hsource⟩ := hx.index index hindex
    have hsame : x.target.driver.custody.map ident = x.source.driver.custody.map ident := by
      rcases hx.list with ⟨-, hlist⟩ | ⟨s, newer, older, -, hd', -⟩
      · rw [hlist, hp]; rfl
      · rw [hd] at hd'
        cases hd'
    rcases hsource with hsource | ⟨hsettle, hnone⟩
    · obtain ⟨y, hy, hrest⟩ := h.taken index hsource
      exact ⟨y, mem_append_left _ hy, by rwa [hsame]⟩
    · exact ⟨x, mem_append_right _ (mem_singleton_self x), hsettle, hnone, hindex, hsame.symm⟩

theorem Point.attempted {phase} (h : p.isRetire) (ha : p.Admits phase) :
    phase = .retirementAttempted := by
  cases p with
  | retirePrepared | retireActive => exact ha
  | _ => cases h

theorem unretired_run (h : Run step (.start b e) tr u)
    (hp : u.driver.phase ≠ .retirementAttempted) : ∀ x ∈ tr, x.source.point.isRetire = false := by
  have hall : ∀ x ∈ tr, x.source.point.isRetire → u.driver.phase = .retirementAttempted := by
    refine run_rule h (by simp) ?_
    intro tr c i c' _ ih hshape hm x hx hr
    refine (attempted_stays hshape ?_ hm).1
    rcases mem_append.mp hx with hx | hx
    · exact ih x hx hr
    · obtain rfl := mem_singleton.mp hx
      exact Point.attempted hr hshape.admits
  intro x hx
  by_contra hne
  exact hp (hall x hx (by simpa using hne))

theorem account_run (h : Run step (.start b e) tr u) (hu : Uninterrupted tr)
    (hc : Conserves ident tr) (hp : u.driver.phase ≠ .retirementAttempted) :
    Account ident tr u := by
  have hr := unretired_run h hp
  refine run_ruleOn h (fun x hx => And.intro (hu x hx) (And.intro (hc x hx) (hr x hx))) ?_ ?_
  · exact ⟨.grounded (by rintro ⟨⟩) rfl rfl rfl rfl, .refl _, .refl _, by rintro _ ⟨⟩⟩
  · intro tr c i c' _ ih ⟨hd, hc, hr⟩ hshape hm
    exact ih.step (custody_step hshape ih.kept hm hd hr hc)

theorem custody_slots (h : Kept d p) (hg : d.retirementInput = none) : d.custody.Perm d.slots := by
  have hqueue : d.queue.Perm (d.settlements.map intoSettlement ++
      (d.sourceInput.toList ++ (d.sourceReceived.map SourceCustody.settlement).toList)) := by
    cases hx : d.sourceIndex with
    | none =>
      obtain ⟨hi, hr⟩ := h.empty hx
      rw [queue_of_none hx, hi, hr]
      simp
    | some index =>
      have hrange : index ≤ (d.settlements.map intoSettlement).length := by
        rw [length_map]
        exact h.range index hx
      cases hr : d.sourceReceived with
      | none =>
        obtain ⟨s, hi⟩ := isSome_iff_exists.mp (h.input (by rw [hx]; rfl) hr)
        rw [queue_of_some hx (by rw [inFlight, hi]; rfl), hi]
        exact (perm_insertIdx _ _ hrange).trans (perm_append_singleton _ _).symm
      | some =>
        have hi := (h.received (by rw [hr]; rfl)).1
        rw [queue_of_some hx (by rw [inFlight, hi, hr]; rfl), hi]
        exact (perm_insertIdx _ _ hrange).trans (perm_append_singleton _ _).symm
  rw [Driver.custody, slots, hg, getD_none, append_nil, append_assoc, append_assoc]
  exact hqueue.append_left _

/-! ## Retained rows -/

/-- A row answered `Retained` is a retained row of the queue from then on, or the driver is
ending. -/
def Retains (s : P.Settlement) (c : Config P) : Prop :=
  c.driver.phase.terminal ∨ c.driver.phase.running ∧
    ((∃ fs, c.point = .offered fs ∧ c.driver.sourceReceived = some (.retained s)) ∨
      .retained s ∈ c.driver.settlements)

theorem Retains.record {s} (h : Retains s ⟨d, p⟩) (es : List (DriverError P)) :
    Retains s ⟨d.rejectAll es, p⟩ := by
  by_cases hes : es = []
  · rwa [hes]
  · refine .inl ?_
    rw [rejectAll_eq]
    simp [hes]

theorem retains_step {s} (h : Shape c.driver c.point) (hr : Retains s c)
    (hm : Moves c i c') (hd : ∀ loan, i ≠ .dropped loan) : Retains s c' := by
  have ha := h.admits
  rcases hr with ht | ⟨hrun, ⟨fs, hp, hr⟩ | hrow⟩
  · exact .inl (h.ending_step ht hm).1
  · cases hm with
    | malformedOffer =>
      refine .inl ?_
      rw [rejectAll_eq]
      simp [blame_ne_nil (not_retiring hrun)]
    | @retained d fs s' index _ hr' hx =>
      obtain ⟨⟩ := hr.symm.trans hr'
      refine .record ?_ _
      refine .inr ⟨hrun, .inr ?_⟩
      rw [show d.settlements.insertIdx index (.retained s) = _ from
        insertIdx_of_le ((h.live hrun).range index hx) _]
      simp
    | exhausted _ hr' | admitted _ hr' | closed _ hr' => cases hr.symm.trans hr'
    | retired hp' | dropRetire hp' => rcases hp' with rfl | rfl <;> simp at hp
    | _ => simp at hp
  · cases hm with
    | again =>
      obtain rfl := h.same
      exact .inr ⟨hrun, .inr hrow⟩
    | initialization hp | activate hp | surrender hp | retirePrepared hp | retireActive hp
    | abandon hp | attempted hp => rw [hp] at hrun; cases hrun
    | initialized | uninitialized | malformedActivation | activated | unactivated =>
      rw [show _ = activating from ha] at hrun
      cases hrun
    | unreadable | condemned | stopped | inactive | sourceMissing | unpublished | publishFailed
    | ended | requested | missing | unapplied | unfolded => exact .inl rfl
    | @continued d =>
      refine .inr ⟨?_, .inr (mem_cons_of_mem _ hrow)⟩
      show running (if d.phase = .initializing then .settlingInitialization
        else d.phase)
      split
      · rfl
      · exact hrun
    | take _ _ hq | nextSource _ _ hq | sourceHeld _ _ hq =>
      rw [hq] at hrow
      exact .inr ⟨hrun, .inr (by simpa using hrow)⟩
    | retained | admitted | closed =>
      refine .record ?_ _
      exact .inr ⟨hrun, .inr (subset_insertIdx _ _ _ hrow)⟩
    | malformedOffer | exhausted | disposed | sourceClosed | sourceFailed | nextFailed | applied
    | malformedApply =>
      refine .record ?_ _
      exact .inr ⟨hrun, .inr hrow⟩
    | published => exact .inr ⟨rfl, .inr hrow⟩
    | retired hp | dropRetire hp =>
      rw [retire_phase hp h] at hrun
      cases hrun
    | deliver => exact .inl ha
    | dropActivate | dropOffer | dropNextSource | dropNext | dropApply => exact absurd rfl (hd _)
    | _ => exact .inr ⟨hrun, .inr hrow⟩

/-- What a driver at `settle` does, in terms of the rows that are not retained. -/
theorem settle_selects (h : Shape c.driver c.point) (hk : Kept c.driver c.point)
    (hp : c.point = .settle) (hm : Moves c i c') :
    (c.driver.sourceIndex.isSome → c'.point = .offerNext) ∧
    (c.driver.sourceIndex = none →
      match (c.driver.settlements.filter (fun row => !row.isRetained)).head? with
      | some (.offer s) => c'.point = .head ∧ c'.driver.sourceInput = some s
      | some (.awaitSource _) => c'.point = .nextSource
      | _ => c'.point = .publish ∨ c'.point = .next) := by
  have hfirst {newer older : List (SettlementTurn P.Settlement)} {row : SettlementTurn P.Settlement}
      (hn : ∀ r ∈ newer, r.isRetained) (hrow : row.isRetained = false) :
      ((newer ++ row :: older).filter (fun row => !row.isRetained)).head? = some row := by
    rw [filter_append, filter_eq_nil_iff.mpr (by simpa using hn), nil_append,
      filter_cons_of_pos (by rw [hrow]; rfl)]
    rfl
  have hnone {q : List (SettlementTurn P.Settlement)} (hq : ∀ r ∈ q, r.isRetained) :
      (q.filter (fun row => !row.isRetained)).head? = none := by
    rw [filter_eq_nil_iff.mpr (by simpa using hq)]
    rfl
  have absent {q : Prop} (hx : c.driver.sourceIndex = none) (hx' : c.driver.sourceIndex.isSome) :
      q := by
    rw [hx] at hx'
    cases hx'
  cases hm with
  | inactive ha =>
    have hactive := (h.live h.admits).active
    rw [ha] at hactive
    cases hactive
  | offerNext _ hx => exact ⟨fun _ => rfl, fun hx' => absent hx' hx⟩
  | answered _ _ hr =>
    rw [hk.unanswered (by simp)] at hr
    cases hr
  | take _ hx hq hn =>
    refine ⟨absent hx, fun _ => ?_⟩
    rw [hq, hfirst hn rfl]
    exact ⟨rfl, rfl⟩
  | nextSource _ hx hq hn =>
    refine ⟨absent hx, fun _ => ?_⟩
    rw [hq, hfirst hn rfl]
  | publish _ hx hq =>
    refine ⟨absent hx, fun _ => ?_⟩
    rw [hnone hq]
    exact .inl rfl
  | next _ hx hq =>
    refine ⟨absent hx, fun _ => ?_⟩
    rw [hnone hq]
    exact .inr rfl
  | sourceHeld _ _ _ _ hg | ingressHeld _ _ _ _ hg =>
    rw [(h.live h.admits).holds.1] at hg
    cases hg
  | retired hp' | dropRetire hp' => rcases hp' with rfl | rfl <;> simp at hp
  | _ => simp at hp

theorem offerNext_starts (hm : Moves c i c') (hp : c'.point = .offerNext) :
    c.point = .settle ∧ c'.driver = c.driver ∧ c.driver.sourceIndex.isSome ∧
      c.driver.sourceReceived = none := by
  cases hm with
  | offerNext _ hx hr => exact ⟨rfl, rfl, hx, hr⟩
  | _ => cases hp

theorem head_settles (h : Shape c.driver c.point) (hp : c.point = .head)
    (hrun : c.driver.phase.running) (hx : c.driver.sourceIndex.isSome) (hm : Moves c i c') :
    c'.point = .settle := by
  cases hm with
  | settle => rfl
  | classify _ hi =>
    rw [(h.live hrun).turn hi] at hx
    cases hx
  | initialization hp' | activate hp' | surrender hp' | retirePrepared hp' | retireActive hp'
  | abandon hp' | attempted hp' => rw [hp'] at hrun; cases hrun
  | retired hp' | dropRetire hp' => rcases hp' with rfl | rfl <;> simp at hp
  | _ => simp at hp

/-! ## The law -/

theorem retains_run {s} {x} {mid}
    (hx : Run step (.start b e) tr x.source) (hstep : step x.source x.input = some x.target)
    (hp : x.source.point = .offerNext) (hr : x.target.driver.sourceReceived = some (.retained s))
    (hmid : Run step x.target mid u) (hd : Uninterrupted (x :: mid)) : Retains s u := by
  have hshape := run_shape hx
  have hstart : Retains s x.target := by
    have hd := hd x (mem_cons_self ..)
    have hm := step_moves hstep
    generalize x.source = c, x.input = i, x.target = c' at *
    cases hm with
    | offerEnded => exact .inr ⟨hshape.admits, .inl ⟨_, rfl, hr⟩⟩
    | dropOffer => exact absurd rfl (hd _)
    | retired hp' | dropRetire hp' => rcases hp' with rfl | rfl <;> simp at hp
    | _ => simp at hp
  have hall : Shape u.driver u.point ∧ Retains s u := by
    refine hmid.historyOn
      (fun y hy => hd y (mem_cons_of_mem _ hy)) ⟨hshape.step (step_moves hstep), hstart⟩ ?_
    intro _ v i w _ ⟨hv, hrv⟩ hd hstep'
    exact ⟨hv.step (step_moves hstep'), retains_step hv hrv (step_moves hstep') hd⟩
  exact hall.2

theorem retireActive_hands (hk : Kept c.driver c.point) (hm : Moves c i c')
    (hp : c'.point = .retireActive) :
    c.driver.phase = .retiring ∧ c'.driver.retirementInput = some c.driver.queue ∧
      c'.driver.settlements = [] ∧ c'.driver.sourceInput = none ∧
      c'.driver.sourceReceived = none ∧ c'.driver.interpretation = c.driver.interpretation ∧
      c.driver.retirementInput = none := by
  cases hm with
  | @retireActive d hphase hs he ha =>
    rw [show d.gather = _ from gather_queue hk ha]
    exact ⟨hphase, rfl, rfl, rfl, hk.unanswered (by simp), rfl, hk.ungathered rfl⟩
  | _ => cases hp

theorem custody_settle (h : Shape c.driver c.point) (hp : c.point = .settle)
    (hx : c.driver.sourceIndex = none) :
    c.driver.custody = c.driver.settlements.map intoSettlement := by
  have hrun : c.driver.phase.running := h.admits_of hp
  have hl := h.live hrun
  have hi : c.driver.interpretation = none := by
    have hholds := hl.holds
    rw [hp] at hholds
    exact hholds.2
  rw [Driver.custody, queue_of_none hx, hi, hl.retirementInput]
  simp

theorem retained_ne {s s'} (h : Account ident tr c)
    (hg : c.driver.retirementInput = none) (hn : ((produced tr).map ident).Nodup)
    (hrow : .retained s ∈ c.driver.settlements) (hi : c.driver.sourceInput = some s') :
    ident s' ≠ ident s := by
  have hperm : ((produced tr).map ident).Perm ((c.driver.slots ++ disposed tr).map ident) :=
    h.all.trans (((custody_slots h.kept hg).append_right _).map ident)
  have hslots := hperm.nodup_iff.mp hn
  rw [slots, hi] at hslots
  simp only [map_append, toList_some, append_assoc, map_cons, map_nil] at hslots
  have hqueue := (nodup_append.mp (nodup_append.mp hslots).2.1).2.2
  intro heq
  exact hqueue (ident s) (mem_map_of_mem (mem_map_of_mem hrow)) (ident s')
    (mem_append_left _ (mem_singleton_self _)) heq.symm

/-- **Settlements are conserved and stay in causal order**, for any behavior and any host that
conserves what it is lent, with any panics, in every uninterrupted run.

* Before a retirement is attempted, the products are exactly the contents of the four slots and the
  dropped settlements, each of them once.
* Only a settlement answered `Exhausted` is dropped.
* The vector handed to `retire` is the queue with the row in flight put back; nothing is left in
  the other slots but an unclassified interpretation; together they are in the order of production,
  newest first.  If a row was in flight, the vector is the queue from which it had been taken.
* A row answered `Retained` is never offered again.
* Only the rows that are not retained decide what is done next: the first of them is taken, or its
  source is asked; a row that has been taken is offered at once. -/
theorem settlements_conserved (ident : P.Settlement → ι) (b : P.Behavior) (e : P.Environment)
    (tr : DriverHistory P) (u : Config P) (h : Run step (.start b e) tr u)
    (hu : Uninterrupted tr) (hc : Conserves ident tr) :
    (u.driver.phase ≠ .retirementAttempted →
      ((produced tr).map ident).Perm ((u.driver.slots ++ disposed tr).map ident)) ∧
    (∀ x ∈ tr, ∀ s, disposal? x = some s → x.source.driver.sourceReceived = some (.exhausted s)) ∧
    (∀ pre x post, tr = pre ++ x :: post → x.target.point = .retireActive →
      ∃ v, x.target.driver.retirementInput = some v ∧ v = x.source.driver.queue ∧
        x.target.driver.settlements = [] ∧ x.target.driver.sourceInput = none ∧
        x.target.driver.sourceReceived = none ∧
        ((produced pre).map ident).Perm
          (((x.target.driver.interpretation.map P.intoSettlement).toList ++ v ++
            disposed pre).map ident) ∧
        (((x.target.driver.interpretation.map P.intoSettlement).toList ++ v).map ident).Sublist
          ((produced pre).reverse.map ident) ∧
        ∀ index, x.source.driver.sourceIndex = some index →
          ∃ y ∈ pre, y.source.point = .settle ∧ y.source.driver.sourceIndex = none ∧
            y.target.driver.sourceIndex = some index ∧
            v.map ident = (y.source.driver.settlements.map intoSettlement).map ident) ∧
    (∀ pre x mid y post s, tr = pre ++ x :: (mid ++ y :: post) → x.source.point = .offerNext →
      x.target.driver.sourceReceived = some (.retained s) → y.target.point = .offerNext →
      ((produced tr).map ident).Nodup →
      ∃ s', y.target.driver.sourceInput = some s' ∧ ident s' ≠ ident s) ∧
    (∀ x ∈ tr, x.source.point = .settle →
      (x.source.driver.sourceIndex.isSome → x.target.point = .offerNext) ∧
      (x.source.driver.sourceIndex = none →
        match (x.source.driver.settlements.filter (fun row => !row.isRetained)).head? with
        | some (.offer s) => x.target.point = .head ∧ x.target.driver.sourceInput = some s
        | some (.awaitSource _) => x.target.point = .nextSource
        | _ => x.target.point = .publish ∨ x.target.point = .next)) ∧
    (∀ x ∈ tr, x.source.point = .head → x.source.driver.phase.running →
      x.source.driver.sourceIndex.isSome → x.target.point = .settle) := by
  have account {pre post : DriverHistory P} {v : Config P} (htr : tr = pre ++ post)
      (hv : Run step (.start b e) pre v) (hp : v.driver.phase ≠ .retirementAttempted) :
      Account ident pre v := by
    subst htr
    exact account_run hv (fun x hx => hu x (mem_append_left _ hx))
      (fun x hx => hc x (mem_append_left _ hx)) hp
  refine ⟨fun hp => ?_, fun x hx s hs => ?_, ?_, ?_, fun x hx hp => ?_, fun x hx hp hrun hx' => ?_⟩
  · have hacc := account (append_nil tr).symm h hp
    have hg : u.driver.retirementInput = none := by
      by_contra hne
      refine hp (Point.attempted ?_ (run_shape h).admits)
      rw [hacc.kept.gathered (ne_none_iff_isSome.mp hne)]
      rfl
    exact hacc.all.trans (((custody_slots hacc.kept hg).append_right _).map ident)
  · obtain ⟨-, hm⟩ := run_moves h hx
    obtain ⟨c, i, c'⟩ := x
    cases hm with
    | exhausted _ hr =>
      obtain ⟨⟩ := hs
      exact hr
    | _ => cases hs
  · rintro pre x post rfl hp
    obtain ⟨hpre, hstep, -⟩ := h.at
    have hm := step_moves hstep
    have hphase : x.source.driver.phase = .retiring := (retire_starts hm (by rw [hp]; rfl)).1
    have hacc := account rfl hpre (by rw [hphase]; simp)
    obtain ⟨-, hv, hs, hi, hr, hint, hg⟩ := retireActive_hands hacc.kept hm hp
    have hcustody : x.source.driver.custody =
        (x.source.driver.interpretation.map P.intoSettlement).toList ++ x.source.driver.queue := by
      rw [Driver.custody, hg, getD_none, append_nil]
    refine ⟨_, hv, rfl, hs, hi, hr, ?_, ?_, fun index hindex => ?_⟩
    · rw [hint, ← hcustody]
      exact hacc.all
    · rw [hint, ← hcustody]
      exact hacc.order
    · obtain ⟨y, hy, hsettle, hnone, htaken, hsame⟩ := hacc.taken index hindex
      refine ⟨y, hy, hsettle, hnone, htaken, ?_⟩
      have hnoint := hacc.kept.turn (by rw [hindex]; rfl)
      rw [← custody_settle (run_moves hpre hy).1 hsettle hnone, hsame, hcustody, hnoint]
      rfl
  · rintro pre x mid y post s rfl hx hr hy hn
    obtain ⟨hpre, hstep, hrest⟩ := h.at
    obtain ⟨hmid, hoffer, -⟩ := hrest.at
    have hy' := (Run.snoc hpre hstep).append hmid
    have hretains := retains_run hpre hstep hx hr hmid fun z hz => hu z (by
      rcases mem_cons.mp hz with rfl | hz
      · simp
      · simp [hz])
    obtain ⟨hp, hsame, hindex, hnone⟩ := offerNext_starts (step_moves hoffer) hy
    have hshape := run_shape hy'
    have hrun : y.source.driver.phase.running := hshape.admits_of hp
    have htr : pre ++ x :: (mid ++ y :: post) = pre ++ [x] ++ mid ++ y :: post := by simp
    have hacc : Account ident (pre ++ [x] ++ mid) y.source := by
      refine account htr hy' fun hphase => ?_
      rw [hphase] at hrun
      cases hrun
    obtain ⟨s', hs'⟩ := isSome_iff_exists.mp (hacc.kept.input hindex hnone)
    have hrow : .retained s ∈ y.source.driver.settlements := by
      rcases hretains with ht | ⟨-, ⟨fs, hpoint, -⟩ | hrow⟩
      · rw [not_terminal_of_running hrun] at ht
        cases ht
      · cases hp.symm.trans hpoint
      · exact hrow
    refine ⟨s', by rw [hsame, hs'], retained_ne hacc (hshape.live hrun).retirementInput ?_ hrow hs'⟩
    refine hn.sublist (List.Sublist.map ident (List.Sublist.filterMap product? ?_))
    rw [htr]
    exact sublist_append_left _ _
  · obtain ⟨pre, post, rfl, hpre, -⟩ := h.of_mem hx
    obtain ⟨hshape, hm⟩ := run_moves h hx
    have hrun : x.source.driver.phase.running := hshape.admits_of hp
    refine settle_selects hshape (account rfl hpre ?_).kept hp hm
    intro hphase
    rw [hphase] at hrun
    cases hrun
  · obtain ⟨hshape, hm⟩ := run_moves h hx
    exact head_settles hshape hp hrun hx' hm

/-- A nested chain: the source of the product `3` admits it, the turn of its event makes the product
`4`, which its source retains, and the second offer of `3` panics with the settlement still in the
input slot. -/
def nestedChain : List (Input numberPort) :=
  offering ++ [.completed (.source none (some (.admitted 3))) (.reply () none),
    .advance, .advance, .advance, .acquired (.reply (.cont (some 5)) none), .advance, .advance,
    .folded 2 (.ok 1), .completed (.application none (some 4)) (.reply () none), .advance,
    .classified (.ok .accepted), .advance, .advance, .advance,
    .completed (.source none (some (.retained 4))) (.reply () none), .advance, .advance, .advance,
    .advance, .advance, .completed (.source (some 3) none) (.construction 8), .advance, .advance]

/-- `ConservesAt`, as a test. -/
def conserving (x : Transition (Config numberPort) (Input numberPort)) : Bool :=
  match x.input with
  | .completed (.source settlement received) _ =>
    (settlement == x.source.driver.sourceInput && received.isNone) ||
      (settlement.isNone && received.isSome &&
        received.map SourceCustody.settlement == x.source.driver.sourceInput)
  | .completed (.activation environment actions _) _ => environment.isNone && actions.isNone
  | _ => true

/-- The retained `4` does not keep `3` from being offered, and `3` goes back behind it: `retire` is
handed `[4, 3]`, newest first. -/
theorem settlements_conserved_nestedChain :
    ∃ x, (play nestedChain).1.getLast? = some x ∧
      x.target.driver.retirementInput = some [4, 3] ∧
      x.source.driver.sourceIndex = some 1 ∧
      ([4, 3].map id).Sublist ((produced (play nestedChain).1.dropLast).reverse.map id) := by
  have hrun := play_run nestedChain rfl
  have hu : Uninterrupted (play nestedChain).1 := uninterrupted_of_all rfl
  have hc : Conserves id (play nestedChain).1 := by
    intro x hx
    have hall : (play nestedChain).1.all conserving = true := rfl
    have hx' := all_eq_true.mp hall x hx
    unfold ConservesAt
    unfold conserving at hx'
    split
    · next hin =>
      rw [hin] at hx'
      simpa [and_assoc] using hx'
    · next hin =>
      rw [hin] at hx'
      exact fun _ => by simpa using hx'
    · trivial
  obtain ⟨v, hv, -, -, -, -, -, hsub, -⟩ := (settlements_conserved _ _ _ _ _ hrun hu hc).2.2.1
    (play nestedChain).1.dropLast _ [] rfl rfl
  cases hv
  exact ⟨_, rfl, rfl, rfl, hsub⟩

end Engine
