import Bombay.Engine.Causal

/-!
# The settlement loop is depth-first causal execution

While a product is settled, the queue of the driver is the call stack of the recursive semantics: in
front the rows of its results, all retained, then the row of the product itself, then those of the
older products that wait for it.  `plays_settle` is the simulation, by induction over the events
that are left; a row that is offered again has the same front, longer by what its last result has
left behind.
-/

set_option autoImplicit false

namespace Engine

open Machine List Driver

variable {P : Port} {program : Program P} {script : Script P}

/-- The driver runs against the behavior and the environment and makes these calls. -/
abbrev Plays (program : Program P) (script : Script P) :
    Performance script → List (Act P) → Performance script → Prop :=
  Performs (perform program script) fun s => s.config.act?

/-- The queue of a driver. -/
abbrev Rows (P : Port) := List (SettlementTurn P.Settlement)

/-- The world after an offer of `s`. -/
abbrev World.offered (w : World script) (s : P.Settlement) : World script :=
  ⟨w.behavior, (script.offerNext w.state s).2⟩

abbrev World.sourced (w : World script) : World script :=
  ⟨w.behavior, (script.nextSource w.state).2⟩

abbrev World.acquired (w : World script) : World script := ⟨w.behavior, (script.next w.state).2⟩

/-! ## The driver between its operations -/

/-- A driver that takes turns and holds nothing but settlements. -/
def Driver.taking (b : P.Behavior) (active : P.Active) (phase : ExecutionPhase)
    (rows : Rows P) : Driver P where
  behavior := b
  environment := none
  active := some active
  phase := phase
  actions := none
  activation := none
  interpretation := none
  sourceInput := none
  sourceReceived := none
  sourceIndex := none
  ingress := none
  decision := none
  settlements := rows
  retirementInput := none
  residual := none
  disposition := none
  additionalFailures := []

/-- It looks for something to do. -/
def taking (w : World script) (active : P.Active) (phase : ExecutionPhase)
    (rows : Rows P) : Performance script :=
  ⟨⟨.taking w.behavior active phase rows, .settle⟩, w.state⟩

/-- It has received `ingress`. -/
abbrev acquiring (w : World script) (active : P.Active) (phase : ExecutionPhase) (rows : Rows P)
    (ingress : P.Ingress) (point : Point P) : Performance script :=
  ⟨⟨{ Driver.taking w.behavior active phase rows with ingress := some ingress }, point⟩, w.state⟩

/-- It is going to retire its environment. -/
def ending (w : World script) (active : P.Active) (rows : Rows P)
    (disposition : Disposition P) : Performance script :=
  ⟨⟨{ Driver.taking w.behavior active .retiring rows with disposition := some disposition }, .head⟩,
    w.state⟩

variable {w : World script} {active : P.Active} {phase : ExecutionPhase}
  {front older rows : Rows P} {s s' : P.Settlement} {acts : List (Act P)} {u : Performance script}
  {request : P.RetirementRequest} {event : P.Event}

theorem findIdx?_front {row} (hfront : ∀ row ∈ front, row.isRetained)
    (hrow : row.isRetained = false) :
    (front ++ row :: older).findIdx? (fun turn => !turn.isRetained) = some front.length := by
  rw [findIdx?_append, findIdx?_eq_none_iff.mpr (by simpa using hfront)]
  simp [findIdx?_cons, hrow, -SettlementTurn.isRetained]

theorem select_offer (b : P.Behavior) (hfront : ∀ row ∈ front, row.isRetained) :
    (Driver.taking b active phase (front ++ .offer s :: older)).select =
      ⟨{ Driver.taking b active phase (front ++ older) with
          sourceIndex := some front.length
          sourceInput := some s }, .head⟩ := by
  have hfind : (front ++ .offer s :: older).findIdx? (fun turn => !turn.isRetained) =
      some front.length := findIdx?_front hfront rfl
  simp only [select, Driver.taking, hfind]
  simp [eraseIdx_append_of_length_le]

theorem select_awaitSource (b : P.Behavior) (hfront : ∀ row ∈ front, row.isRetained) :
    (Driver.taking b active phase (front ++ .awaitSource s :: older)).select =
      ⟨Driver.taking b active phase (front ++ .offer s :: older), .nextSource⟩ := by
  have hfind : (front ++ .awaitSource s :: older).findIdx? (fun turn => !turn.isRetained) =
      some front.length := findIdx?_front hfront rfl
  simp only [select, Driver.taking, hfind]
  simp [eraseIdx_append_of_length_le, insertIdx_append_length]

theorem select_retained (b : P.Behavior) (hrows : ∀ row ∈ rows, row.isRetained) :
    (Driver.taking b active phase rows).select =
      if phase = .settlingInitialization then ⟨Driver.taking b active phase rows, .publish⟩
      else ⟨Driver.taking b active phase rows, .next⟩ := by
  have hfind : rows.findIdx? (fun turn => !turn.isRetained) = none :=
    findIdx?_eq_none_iff.mpr (by simpa using hrows)
  simp only [select, Driver.taking, hfind]
  rfl

theorem perform_advance {c c' : Config P} {state}
    (hanswer : answer program script c state = some (.advance, state)) (h : c.advance = some c') :
    perform program script ⟨c, state⟩ = some ⟨c', state⟩ := by
  simp [perform, hanswer, step, h]

/-- A driver that takes turns comes from the head of the loop to its search. -/
theorem plays_head {d : Driver P} {state} (hphase : d.phase.running) (hi : d.interpretation = none)
    (h : Plays program script ⟨⟨d, .settle⟩, state⟩ acts u) :
    Plays program script ⟨⟨d, .head⟩, state⟩ acts u := by
  have hhead : d.head = ⟨d, .settle⟩ := by
    cases hp : d.phase <;> simp_all [Driver.head]
  exact .silent (perform_advance rfl (congrArg some hhead)) rfl h

theorem plays_nextSource (w : World script) (hfront : ∀ row ∈ front, row.isRetained)
    (h : Plays program script (acquiring w.sourced active phase (front ++ .offer s :: older)
      (script.nextSource w.state).1 (.sourceAcquired [])) acts u) :
    Plays program script (taking w active phase (front ++ .awaitSource s :: older))
      (.nextSource :: acts) u :=
  .silent (perform_advance rfl (congrArg some (select_awaitSource w.behavior hfront))) rfl
    (.shows rfl rfl h)

/-- Where the driver comes when the source of a row between `front` and `older` has replied. -/
def afterOffer (w : World script) (active : P.Active) (phase : ExecutionPhase)
    (front older : Rows P) : SourceCustody P.Settlement → Performance script
  | .exhausted _ => taking w active phase (front ++ older)
  | .retained s => taking w active phase (front ++ .retained s :: older)
  | .admitted s => taking w active phase (front ++ .awaitSource s :: older)
  | .closed s =>
    ending w active (front ++ .offer s :: older) (.error (.settlement .sourceClosed))

theorem plays_offer (hphase : phase.running) (w : World script)
    (hfront : ∀ row ∈ front, row.isRetained) {reply : SourceCustody P.Settlement}
    (hreply : (script.offerNext w.state s).1 = reply) :
    Plays program script (taking w active phase (front ++ .offer s :: older)) [.offerNext s]
      (afterOffer (w.offered s) active phase front older reply) := by
  refine .silent (perform_advance rfl (congrArg some (select_offer w.behavior hfront))) rfl ?_
  refine plays_head hphase rfl (.silent rfl rfl ?_)
  have hanswered : Plays program script
      ⟨⟨{ Driver.taking w.behavior active phase (front ++ older) with
          sourceReceived := some reply
          sourceIndex := some front.length }, .offered []⟩, (script.offerNext w.state s).2⟩ []
      (afterOffer (w.offered s) active phase front older reply) := by
    cases reply with
    | exhausted => exact .silent rfl rfl (.silent rfl rfl (plays_head hphase rfl (.refl _)))
    | retained | admitted =>
      rw [afterOffer, ← insertIdx_append_length front older]
      exact .silent rfl rfl (plays_head hphase rfl (.refl _))
    | closed =>
      rw [afterOffer, ← insertIdx_append_length front older]
      exact .silent rfl rfl (.refl _)
  rw [← hreply] at hanswered ⊢
  exact .shows rfl rfl hanswered

/-- The settlements behind the rows of a queue. -/
def settlements (rows : Rows P) : List P.Settlement :=
  rows.map SettlementTurn.intoSettlement

/-- From `s` on, these calls are made, and then the driver looks for something to do, with these
rows; or it is going to retire the environment, with the settlements of these rows. -/
def Reaches (program : Program P) (s : Performance script) (acts : List (Act P)) (w : World script)
    (active : P.Active) (phase : ExecutionPhase) (rows : Rows P) :
    Option (Disposition P) → Prop
  | none => Plays program script s acts (taking w active phase rows)
  | some disposition => ∃ rows', settlements rows' = settlements rows ∧
      Plays program script s acts (ending w active rows' disposition)

theorem Reaches.after {s t} {acts acts'} {ended} (h : Plays program script s acts t)
    (h' : Reaches program t acts' w active phase rows ended) :
    Reaches program s (acts ++ acts') w active phase rows ended := by
  cases ended with
  | none => exact h.trans h'
  | some =>
    obtain ⟨rows', hrows, h'⟩ := h'
    exact ⟨rows', hrows, h.trans h'⟩

/-- The driver has handed an event to its behavior. -/
def folding (w : World script) (active : P.Active) (phase : ExecutionPhase)
    (rows : Rows P) (event : P.Event) : Performance script :=
  ⟨⟨.taking w.behavior active phase rows, .transition event⟩, w.state⟩

def keptRows (kept : List P.Settlement) : Rows P := kept.map .retained

theorem plays_consume (w : World script) (event : P.Event) :
    Plays program script (acquiring w active phase rows (.cont (some event)) .consume) []
      (folding w active phase rows event) :=
  .silent rfl rfl (.refl _)

theorem plays_request (w : World script) (request : P.RetirementRequest) :
    Plays program script (acquiring w active phase rows (.brk request) .consume) []
      (ending w active rows (.ok (.retirementRequested request))) :=
  .silent rfl rfl (.refl _)

theorem plays_sourceAcquired (hphase : phase.running) (w : World script) {ingress : P.Ingress}
    (hopen : ingress ≠ .cont none)
    (h : Plays program script (acquiring w active phase rows ingress .consume) acts u) :
    Plays program script (acquiring w active phase rows ingress (.sourceAcquired [])) acts u := by
  refine .silent (perform_advance rfl (congrArg some ?_)) rfl h
  have hnot : phase ≠ .retiring := not_retiring hphase
  have hnote {point : Point P} :
      noteClosure (acquiring w active phase rows ingress point).config.driver =
        (acquiring w active phase rows ingress point).config.driver := by
    cases ingress with
    | cont event =>
      cases event with
      | none => exact absurd rfl hopen
      | some => rfl
    | brk => rfl
  rw [Driver.sourceAcquired, hnote]
  exact if_neg hnot

theorem plays_sourceClosed (w : World script) :
    Plays program script (acquiring w active phase rows (.cont none) (.sourceAcquired [])) []
      (ending w active rows (.error (.settlement .sourceClosed))) :=
  .silent rfl rfl (.refl _)

theorem plays_ingressAcquired (hphase : phase.running) (w : World script) {ingress : P.Ingress}
    (h : Plays program script (acquiring w active phase rows ingress .consume) acts u) :
    Plays program script (acquiring w active phase rows ingress (.ingressAcquired [])) acts u :=
  .silent (perform_advance rfl (congrArg some (if_neg (not_retiring hphase)))) rfl h

/-- A driver that has received an interpretation, and the decision that came with it. -/
def classifying (w : World script) (active : P.Active) (phase : ExecutionPhase)
    (rows : Rows P) (i : P.Interpretation) (decision : ActionDecision) :
    Performance script :=
  ⟨⟨{ Driver.taking w.behavior active phase rows with
      interpretation := some i
      decision := some decision }, .head⟩, w.state⟩

theorem plays_classify (program : Program P) (active : P.Active) (rows : Rows P)
    (hphase : phase.running) (w : World script) (i : P.Interpretation) (decision : ActionDecision) :
    Reaches program (classifying w active phase rows i decision) [] w active
      (if phase = .initializing then .settlingInitialization else phase)
      (.offer (P.intoSettlement i) :: rows)
      (judge (phase == .initializing) (script.settlementStatus i) decision) := by
  have hhead : perform program script (classifying w active phase rows i decision) =
      some ⟨⟨(classifying w active phase rows i decision).config.driver, .classify⟩, w.state⟩ := by
    cases phase <;> first | rfl | cases hphase
  have hcomes : Plays program script (classifying w active phase rows i decision) []
      ⟨(classifying w active phase rows i decision).config.driver.classified i
        (script.settlementStatus i), w.state⟩ := .silent hhead rfl (.silent rfl rfl (.refl _))
  generalize script.settlementStatus i = status at hcomes ⊢
  cases status with
  | corrupt => exact ⟨_, rfl, hcomes⟩
  | accepted =>
    cases decision with
    | stop => cases phase <;> exact ⟨_, rfl, hcomes⟩
    | cont => cases phase <;> exact hcomes
  | rejected =>
    cases decision with
    | stop => cases phase <;> exact ⟨_, rfl, hcomes⟩
    | cont => cases phase <;> first | exact hcomes | exact ⟨_, rfl, hcomes⟩

theorem plays_apply (w : World script) (event : P.Event) {a : P.Actions}
    (hfolded : (program.transition w.behavior event).1 = .ok a) :
    Plays program script (folding w active phase rows event) [.transition event, .apply a]
      (classifying ⟨(program.transition w.behavior event).2, (script.apply w.state a).2⟩
        active phase
        rows (script.apply w.state a).1 (P.decision a)) := by
  have hfold : perform program script (folding w active phase rows event) =
      some ⟨⟨{ Driver.taking (program.transition w.behavior event).2 active phase rows with
        decision := some (P.decision a)
        actions := some a }, .apply⟩, w.state⟩ := by
    simp [perform, answer, folding, step, hfolded, Fold.of, Driver.taking, decided]
  exact .shows hfold rfl (.shows rfl rfl (.refl _))

/-- What an event has led to, and where the driver has come. -/
def Reaction.Follows {n : ℕ} (r : Reaction script n) (program : Program P) (s : Performance script)
    (active : P.Active) (phase : ExecutionPhase) (rows : Rows P) : Prop :=
  match r.product with
  | .error (newer, disposition) =>
    Reaches program s r.acts r.world active phase (keptRows newer ++ rows) (some disposition)
  | .ok product => Reaches program s r.acts r.world active phase (.offer product :: rows) none

theorem plays_react (program : Program P) (active : P.Active) (hphase : phase.running)
    (hinitial : phase ≠ .initializing) (w : World script) (event : P.Event) (rows : Rows P) :
    (react program script w event).Follows program (folding w active phase rows event) active phase
      rows := by
  have hjudged : (phase == .initializing) = false := by simpa using hinitial
  have hcont : (if phase = .initializing then .settlingInitialization else phase) = phase :=
    if_neg hinitial
  rw [react]
  dsimp only
  cases hfolded : (program.transition w.behavior event).1 with
  | error =>
    refine ⟨rows, rfl, .shows ?_ rfl (.refl _)⟩
    simp [perform, answer, folding, step, hfolded, Fold.of, ending, Driver.taking, reject]
  | ok a =>
    have hclassify := plays_classify program active rows hphase
      ⟨(program.transition w.behavior event).2, (script.apply w.state a).2⟩
      (script.apply w.state a).1 (P.decision a)
    rw [hjudged, hcont] at hclassify
    have hreaches := hclassify.after (plays_apply w event hfolded)
    unfold Reaction.Follows
    dsimp only
    cases hj : judge (P := P) false (script.settlementStatus (script.apply w.state a).1)
        (P.decision a) with
    | some disposition | none =>
      rw [hj] at hreaches
      exact hreaches

/-- The rows that a settled product leaves, and the driver that has come there. -/
def Settling.Follows {n : ℕ} (r : Settling script n) (program : Program P) (s : Performance script)
    (active : P.Active) (phase : ExecutionPhase) (front older : Rows P) :
    Prop :=
  Reaches program s r.acts r.world active phase
    (keptRows r.children ++ (front ++ (keptRows r.own.toList ++ older))) r.ended

@[simp]
theorem settlements_cons (row : SettlementTurn P.Settlement) (rows : Rows P) :
    settlements (row :: rows) = row.intoSettlement :: settlements rows := rfl

@[simp]
theorem settlements_append (rows rows' : Rows P) :
    settlements (rows ++ rows') = settlements rows ++ settlements rows' := map_append

@[simp]
theorem settlements_keptRows (kept : List P.Settlement) : settlements (keptRows kept) = kept := by
  rw [settlements, keptRows, map_map]
  exact map_id kept

@[simp]
theorem keptRows_append (kept kept' : List P.Settlement) :
    keptRows (kept ++ kept') = keptRows kept ++ keptRows kept' := map_append

theorem isRetained_of_mem_keptRows {kept : List P.Settlement} {row : SettlementTurn P.Settlement}
    (h : row ∈ keptRows kept) : row.isRetained := by
  obtain ⟨s, -, rfl⟩ := mem_map.mp h
  rfl

theorem Reaches.congr {s} {acts} {disposition} {rows' : Rows P}
    (h : Reaches program s acts w active phase rows (some disposition))
    (hrows : settlements rows = settlements rows') :
    Reaches program s acts w active phase rows' (some disposition) := by
  obtain ⟨rows'', hsame, hplays⟩ := h
  exact ⟨rows'', hsame.trans hrows, hplays⟩

theorem plays_acquired (hphase : phase.running) (w : World script)
    (hfront : ∀ row ∈ front, row.isRetained) {ingress : P.Ingress}
    (hoffer : (script.offerNext w.state s).1 = .admitted s')
    (hsource : (script.nextSource (w.offered s).state).1 = ingress)
    (h : Plays program script (acquiring (w.offered s).sourced active phase
      (front ++ .offer s' :: older) ingress (.sourceAcquired [])) acts u) :
    Plays program script (taking w active phase (front ++ .offer s :: older))
      (.offerNext s :: .nextSource :: acts) u := by
  subst hsource
  exact (plays_offer hphase w hfront hoffer).trans (plays_nextSource _ hfront h)

/-- A product that has been settled leaves the older rows where they were. -/
theorem Settling.Follows.reaches {n : ℕ} {child : Settling script n} {s : Performance script}
    (h : child.Follows program s active phase [] rows) :
    Reaches program s child.acts child.world active phase (keptRows child.kept ++ rows)
      child.ended := by
  have hrows : keptRows child.children ++ ([] ++ (keptRows child.own.toList ++ rows)) =
      keptRows child.kept ++ rows := by simp [Settling.kept]
  exact hrows ▸ h

/-- A product is offered again after one of its results: that leaves its rows in front. -/
theorem Settling.Follows.again {n k : ℕ} {child : Settling script n} {rest : Settling script k}
    {s : Performance script} {acts : List (Act P)} {kept : P.Settlement}
    (hplays : Plays program script s acts
      (taking child.world active phase (keptRows child.kept ++ (front ++ .offer kept :: older))))
    (hrest : rest.Follows program
      (taking child.world active phase ((keptRows child.kept ++ front) ++ .offer kept :: older))
        active
      phase (keptRows child.kept ++ front) older) :
    Reaches program s (acts ++ rest.acts) rest.world active phase
      (keptRows (rest.children ++ child.kept) ++ (front ++ (keptRows rest.own.toList ++ older)))
      rest.ended := by
  rw [← append_assoc] at hplays
  have hrows : keptRows (rest.children ++ child.kept) ++
      (front ++ (keptRows rest.own.toList ++ older)) = keptRows rest.children ++
      ((keptRows child.kept ++ front) ++ (keptRows rest.own.toList ++ older)) := by simp
  rw [hrows]
  exact Reaches.after hplays hrest

theorem plays_settle_aux (hphase : phase.running) (hinitial : phase ≠ .initializing) (n : ℕ)
    (w : World script) (s : P.Settlement) (front older : Rows P)
    (hfront : ∀ row ∈ front, row.isRetained) (hn : script.left w.state < n) :
    (settle program script w s).Follows program
      (taking w active phase (front ++ .offer s :: older)) active phase front older := by
  induction n generalizing w s front older with
  | zero => exact absurd hn (Nat.not_lt_zero _)
  | succ _ ih =>
    have hoffered := script.offerNext_left w.state s
    have hacq := script.nextSource_left (script.offerNext w.state s).2
    rw [settle]
    dsimp only
    split
    iterate 2
      · next hoffer => exact plays_offer hphase w hfront hoffer
    · next hoffer => exact ⟨_, by simp [keptRows], plays_offer hphase w hfront hoffer⟩
    · next kept hoffer =>
      split
      · next hsource =>
        exact ⟨_, by simp [keptRows], plays_acquired hphase w hfront hoffer hsource
          (plays_sourceClosed (w.offered s).sourced)⟩
      · next request hsource =>
        exact ⟨_, by simp [keptRows], plays_acquired hphase w hfront hoffer hsource
          (plays_sourceAcquired hphase (w.offered s).sourced (by simp) (plays_request _ request))⟩
      · next event hsource =>
        rw [hsource, ControlFlow.events] at hacq
        have hevent : Plays program script (taking w active phase (front ++ .offer s :: older))
            [.offerNext s, .nextSource]
            (folding (w.offered s).sourced active phase (front ++ .offer kept :: older) event) :=
          plays_acquired hphase w hfront hoffer hsource
            (plays_sourceAcquired hphase (w.offered s).sourced (by simp) (plays_consume _ event))
        have hreact := plays_react program active hphase hinitial (w.offered s).sourced event
          (front ++ .offer kept :: older)
        have hleft := (react program script (w.offered s).sourced event).left_le
        dsimp only at hleft
        unfold Reaction.Follows at hreact
        split
        · next newer disposition hproduct =>
          rw [hproduct] at hreact
          exact (hreact.after hevent).congr (by simp [keptRows])
        · next product hproduct =>
          rw [hproduct] at hreact
          have hplays := hevent.trans hreact
          have hchild := (ih _ product [] (front ++ .offer kept :: older) (by simp)
            (Nat.lt_of_le_of_lt hleft (by omega))).reaches
          have hleft' := (settle program script
            (react program script (w.offered s).sourced event).world product).left_le
          split
          · next disposition hended =>
            rw [hended] at hchild
            exact (hchild.after hplays).congr (by simp [keptRows])
          · next hended =>
            rw [hended] at hchild
            have hfront' (row : SettlementTurn P.Settlement)
                (hrow : row ∈ keptRows (settle program script
                  (react program script (w.offered s).sourced event).world product).kept ++ front) :
                row.isRetained := by
              rcases mem_append.mp hrow with hrow | hrow
              · exact isRetained_of_mem_keptRows hrow
              · exact hfront row hrow
            have hrest := ih _ kept _ older hfront'
              (Nat.lt_of_le_of_lt (hleft'.trans hleft) (by omega))
            have hagain := Settling.Follows.again (hplays.trans hchild) hrest
            rw [append_assoc, append_assoc] at hagain
            exact hagain

/-- **The simulation of a settlement**: the driver that offers a row makes the calls of the
recursive semantics, and leaves the rows that it says. -/
theorem plays_settle (program : Program P) (active : P.Active) (hphase : phase.running)
    (hinitial : phase ≠ .initializing) (w : World script) (s : P.Settlement) (older : Rows P) :
    (settle program script w s).Follows program (taking w active phase (.offer s :: older)) active
      phase [] older :=
  plays_settle_aux hphase hinitial _ w s [] older (by simp) (Nat.lt_succ_self _)

/-! ## Ordinary execution -/

theorem plays_next (w : World script) (hrows : ∀ row ∈ rows, row.isRetained)
    (h : Plays program script
      (acquiring w.acquired active .active rows (script.next w.state).1 .consume) acts u) :
    Plays program script (taking w active .active rows) (.next :: acts) u := by
  refine .silent (perform_advance rfl (congrArg some (select_retained w.behavior hrows))) rfl ?_
  exact .shows rfl rfl (plays_ingressAcquired rfl w.acquired h)

/-- **The simulation of ordinary execution.** -/
theorem plays_execute (w : World script) (kept : List P.Settlement) :
    let r := execute program script w kept
    Reaches program (taking w active .active (keptRows kept)) r.acts r.world active .active
      (keptRows r.kept) (some r.disposition) := by
  induction hn : script.left w.state using Nat.strong_induction_on generalizing w kept with
  | _ _ ih =>
    subst hn
    have hacq := script.next_left w.state
    have hactive : ExecutionPhase.active.running := rfl
    have hordinary : ExecutionPhase.active ≠ .initializing := by simp
    have hrows (row : SettlementTurn P.Settlement) (hrow : row ∈ keptRows kept) : row.isRetained :=
      isRetained_of_mem_keptRows hrow
    rw [execute]
    dsimp only
    split
    · next hnext =>
      refine ⟨_, rfl, plays_next w hrows ?_⟩
      rw [hnext]
      exact .silent rfl rfl (.refl _)
    · next request hnext =>
      refine ⟨_, rfl, plays_next w hrows ?_⟩
      rw [hnext]
      exact plays_request w.acquired request
    · next event hnext =>
      rw [hnext, ControlFlow.events] at hacq
      have hevent : Plays program script (taking w active .active (keptRows kept)) [.next]
          (folding w.acquired active .active (keptRows kept) event) := by
        refine plays_next w hrows ?_
        rw [hnext]
        exact plays_consume w.acquired event
      have hreact := plays_react program active hactive hordinary w.acquired event (keptRows kept)
      have hleft := (react program script w.acquired event).left_le
      dsimp only at hleft
      unfold Reaction.Follows at hreact
      split
      · next newer disposition hproduct =>
        rw [hproduct] at hreact
        exact (hreact.after hevent).congr (by simp)
      · next product hproduct =>
        rw [hproduct] at hreact
        have hplays := hevent.trans hreact
        have hsettled := (plays_settle program active hactive hordinary
          (react program script w.acquired event).world product (keptRows kept)).reaches
        have hleft' := (settle program script
          (react program script w.acquired event).world product).left_le
        split
        · next disposition hended =>
          rw [hended] at hsettled
          exact (hsettled.after hplays).congr (by simp)
        · next hended =>
          rw [hended, ← keptRows_append] at hsettled
          have hall := Reaches.after (hplays.trans hsettled)
            (ih _ (Nat.lt_of_le_of_lt (hleft'.trans hleft) (by omega)) _ _ rfl)
          rw [append_assoc, append_assoc] at hall
          exact hall

/-! ## The whole life -/

theorem plays_publish (w : World script) (hrows : ∀ row ∈ rows, row.isRetained)
    (hpublish : (script.publish w.state).1 = .cont ()) :
    Plays program script (taking w active .settlingInitialization rows) [.publish]
      (taking ⟨w.behavior, (script.publish w.state).2⟩ active .active rows) := by
  refine .silent (perform_advance rfl (congrArg some (select_retained w.behavior hrows))) rfl ?_
  have hperform : perform program script
      ⟨⟨Driver.taking w.behavior active .settlingInitialization rows, .publish⟩, w.state⟩ =
      some ⟨⟨Driver.taking w.behavior active .active rows, .head⟩, (script.publish w.state).2⟩ := by
    simp [perform, answer, hpublish, step, Driver.taking]
  exact .shows hperform rfl (plays_head rfl rfl (.refl _))

theorem plays_publish_request (w : World script) (hrows : ∀ row ∈ rows, row.isRetained)
    (hpublish : (script.publish w.state).1 = .brk request) :
    Plays program script (taking w active .settlingInitialization rows) [.publish]
      (ending ⟨w.behavior, (script.publish w.state).2⟩ active rows
        (.ok (.retirementRequested request))) := by
  refine .silent (perform_advance rfl (congrArg some (select_retained w.behavior hrows))) rfl ?_
  refine .shows ?_ rfl (.refl _)
  simp [perform, answer, hpublish, step, Driver.taking, ending, Driver.complete]

/-- **The simulation of an active life**, from the first interpretation on. -/
theorem plays_begin (program : Program P) (active : P.Active) (w : World script)
    (i : P.Interpretation) (decision : ActionDecision) :
    let r := begin program script w (script.settlementStatus i) decision (P.intoSettlement i)
    Reaches program (classifying w active .initializing [] i decision) r.acts r.world active .active
      (keptRows r.kept) (some r.disposition) := by
  have hinitializing : ExecutionPhase.initializing.running := rfl
  have hsettling : ExecutionPhase.settlingInitialization.running := rfl
  have hclassify := plays_classify program active [] hinitializing w i decision
  rw [show ((.initializing : ExecutionPhase) == .initializing) = true from rfl] at hclassify
  rw [begin]
  dsimp only
  cases hjudge : judge (P := P) true (script.settlementStatus i) decision with
  | some =>
    rw [hjudge] at hclassify
    obtain ⟨rows', hrows, hplays⟩ := hclassify
    exact ⟨rows', hrows, hplays⟩
  | none =>
    rw [hjudge] at hclassify
    have hsettled :=
      (plays_settle program active hsettling (by simp) w (P.intoSettlement i) []).reaches
    rw [append_nil] at hsettled
    cases hended : (settle program script w (P.intoSettlement i)).ended with
    | some =>
      rw [hended] at hsettled
      exact hsettled.after hclassify
    | none =>
      rw [hended] at hsettled
      have hplays := hclassify.trans hsettled
      have hrows (row : SettlementTurn P.Settlement)
          (hrow : row ∈ keptRows (settle program script w (P.intoSettlement i)).kept) :
          row.isRetained := isRetained_of_mem_keptRows hrow
      dsimp only
      split
      · next request hpublish =>
        exact ⟨_, rfl, hplays.trans (plays_publish_request _ hrows hpublish)⟩
      · next hpublish =>
        have hall := Reaches.after (hplays.trans (plays_publish _ hrows hpublish))
          (plays_execute ⟨_, _⟩ _)
        rw [append_assoc] at hall
        exact hall

theorem plays_retire (program : Program P) (active : P.Active) (w : World script) (rows : Rows P)
    (disposition : Disposition P) :
    ∃ d, Plays program script (ending w active rows disposition)
      [.retireActive (settlements rows)]
      ⟨⟨d, .received (.ok ⟨w.behavior, script.retireActive w.state active (settlements rows),
        disposition, []⟩)⟩, w.state⟩ :=
  ⟨_, .silent rfl rfl (.shows rfl rfl (.silent rfl rfl (.refl _)))⟩

/-- The driver with the actions of the initialization. -/
def activating (b : P.Behavior) (e : P.Environment) (a : P.Actions) : Driver P :=
  { new b e with phase := .activating, decision := some (P.decision a), actions := some a }

theorem plays_initialization (program : Program P) (script : Script P) (b : P.Behavior)
    (e : P.Environment) (state : script.State) {a : P.Actions}
    (hfolded : (program.initialization b).1 = .ok a) :
    Plays program script ⟨.start b e, state⟩ [.initialization]
      ⟨⟨activating (program.initialization b).2 e a, .activate⟩, state⟩ := by
  have hfold : perform program script
      ⟨⟨{ new b e with phase := .activating }, .initialization⟩, state⟩ =
      some ⟨⟨activating (program.initialization b).2 e a, .head⟩, state⟩ := by
    simp [perform, answer, step, hfolded, Fold.of, new, activating]
  exact .silent rfl rfl (.silent rfl rfl (.shows hfold rfl (.silent rfl rfl (.refl _))))

theorem plays_uninitialized (b : P.Behavior) (e : P.Environment) (state : script.State)
    {error} (hfolded : (program.initialization b).1 = .error error) :
    ∃ u : Performance script, Plays program script ⟨.start b e, state⟩
      [.initialization, .retirePrepared] u ∧
      u.config.point = .received (.ok ⟨(program.initialization b).2, script.retirePrepared state e,
        .error (.behavior error), []⟩) := by
  have hfold : perform program script
      ⟨⟨{ new b e with phase := .activating }, .initialization⟩, state⟩ =
      some ⟨⟨{ new (program.initialization b).2 e with
        phase := .retiring
        disposition := some (.error (.behavior error)) }, .head⟩, state⟩ := by
    simp [perform, answer, step, hfolded, Fold.of, new, reject]
  exact ⟨_, .silent rfl rfl (.silent rfl rfl (.shows hfold rfl (.silent rfl rfl
    (.shows rfl rfl (.silent rfl rfl (.refl _)))))), rfl⟩

theorem plays_unactivated (program : Program P) (script : Script P) (b : P.Behavior)
    (e : P.Environment) (a : P.Actions) (state : script.State) {error : P.Error} {residual}
    (hact : (script.activate state e a).1 = .error (error, residual)) :
    ∃ u : Performance script, Plays program script ⟨⟨activating b e a, .activate⟩, state⟩
      [.activate e a] u ∧
      u.config.point = .received (.ok ⟨b, residual, .error (.activation error), []⟩) := by
  have hactivate : perform program script ⟨⟨activating b e a, .activate⟩, state⟩ =
      some ⟨⟨{ activating b e a with
        environment := none
        actions := none
        residual := some residual
        phase := .retiring
        disposition := some (.error (.activation error)) }, .head⟩,
          (script.activate state e a).2⟩ := by
    simp [perform, answer, step, hact, activating, new, Driver.lend, Driver.activated,
      reject, Received.failures, receiveActivationFailures, rejectAll]
  exact ⟨_, .shows hactivate rfl (.silent rfl rfl (.silent rfl rfl (.refl _))), rfl⟩

theorem plays_activate (program : Program P) (script : Script P) (b : P.Behavior)
    (e : P.Environment) (a : P.Actions) (state : script.State) {i}
    (hact : (script.activate state e a).1 = .ok (active, i)) :
    Plays program script ⟨⟨activating b e a, .activate⟩, state⟩ [.activate e a]
      (classifying ⟨b, (script.activate state e a).2⟩ active .initializing [] i
        (P.decision a)) := by
  refine .shows ?_ rfl (.refl _)
  simp [perform, answer, step, hact, activating, new, Driver.lend, Driver.activated,
    Received.failures, receiveActivationFailures, rejectAll, classifying, Driver.taking]

/-- **The simulation of a life.** -/
theorem plays_causal (program : Program P) (script : Script P) (b : P.Behavior) (e : P.Environment)
    (state : script.State) :
    let life := causal program script b e state
    ∃ u : Performance script, Plays program script ⟨.start b e, state⟩ life.acts u ∧
      u.config.point = .received (.ok ⟨life.behavior, life.residual, life.disposition, []⟩) := by
  rw [causal]
  dsimp only
  cases hfolded : (program.initialization b).1 with
  | error => exact plays_uninitialized b e state hfolded
  | ok a =>
    have hinitialized := plays_initialization program script b e state hfolded
    dsimp only
    split
    · next error residual hact =>
      obtain ⟨u, hplays, hpoint⟩ := plays_unactivated program script
        (program.initialization b).2 e a state hact
      exact ⟨u, hinitialized.trans hplays, hpoint⟩
    · next active i hact =>
      have hactive := plays_activate program script (program.initialization b).2 e a state hact
      obtain ⟨rows, hrows, hplays⟩ := plays_begin program active
        ⟨(program.initialization b).2, (script.activate state e a).2⟩ i (P.decision a)
      rw [settlements_keptRows] at hrows
      obtain ⟨d, hretire⟩ := plays_retire program active (begin program script
        ⟨(program.initialization b).2, (script.activate state e a).2⟩ (script.settlementStatus i)
        (P.decision a) (P.intoSettlement i)).world rows (begin program script
        ⟨(program.initialization b).2, (script.activate state e a).2⟩ (script.settlementStatus i)
        (P.decision a) (P.intoSettlement i)).disposition
      rw [hrows] at hretire
      exact ⟨_, (hinitialized.trans hactive).trans (hplays.trans hretire), rfl⟩

/-- Every step of a performance is one of the driver, and nobody drops its future. -/
theorem step_of_perform {s s'} (h : perform program script s = some s') :
    ∃ i, (∀ loan, i ≠ .dropped loan) ∧ step s.config i = some s'.config := by
  obtain ⟨⟨i, state⟩, hanswer, hstep⟩ := Option.bind_eq_some_iff.mp h
  obtain ⟨c, hc, rfl⟩ := Option.map_eq_some_iff.mp hstep
  refine ⟨i, ?_, hc⟩
  rintro loan rfl
  unfold answer at hanswer
  split at hanswer <;> simp_all [Option.map_eq_some_iff] <;> split at hanswer <;> simp at hanswer

/-- What an uninterrupted `receive_run` does, as the causal execution `life` has it. -/
structure DepthFirst (program : Program P) (script : Script P) (b : P.Behavior) (e : P.Environment)
    (state : script.State) (life : Life P) : Prop where
  /-- It makes the calls of `life`, in their order and with what they are given, and returns with
  its disposition; the last of the calls hands the settlements over. -/
  finishes : ∃ u : Performance script, Plays program script ⟨.start b e, state⟩ life.acts u ∧
    u.config.point = .received (.ok ⟨life.behavior, life.residual, life.disposition, []⟩)
  /-- It does nothing else: wherever it has come, the rest of `life` lies before it. -/
  only : ∀ {acts : List (Act P)} {v : Performance script},
    Plays program script ⟨.start b e, state⟩ acts v →
    ∃ later u, life.acts = acts ++ later ∧ Plays program script v later u ∧
      u.config.point = .received (.ok ⟨life.behavior, life.residual, life.disposition, []⟩)
  /-- All this is a run of the driver. -/
  driver : ∀ {acts : List (Act P)} {v : Performance script},
    Plays program script ⟨.start b e, state⟩ acts v →
    ∃ tr, Run step (.start b e) tr v.config ∧ Uninterrupted tr ∧ tr.filterMap (·.source.act?) = acts

/-- **The settlement loop is depth-first causal execution**, for every behavior and every finite
script. -/
theorem depth_first_causal_execution (program : Program P) (script : Script P) (b : P.Behavior)
    (e : P.Environment) (state : script.State) :
    DepthFirst program script b e state (causal program script b e state) := by
  obtain ⟨u, hplays, hpoint⟩ := plays_causal program script b e state
  have hhalts : perform program script u = none := by
    rw [perform, answer, hpoint]
    rfl
  refine ⟨⟨u, hplays, hpoint⟩, fun h => ?_, fun h => ?_⟩
  · obtain ⟨later, hacts, hlater⟩ := hplays.halts hhalts h
    exact ⟨later, u, hacts, hlater, hpoint⟩
  · exact h.run (fun _ => rfl) fun s t hnext => step_of_perform hnext

/-- A behavior whose action values are its events. -/
def echo : Program numberPort := ⟨fun b => (.ok 1, b), fun b event => (.ok event, b + 1)⟩

/-- An environment whose interpretations are the action values. -/
def obliging : Script numberPort :=
  .listed (.ok (7, 3)) (fun _ => .accepted) (.cont ()) (fun a => a) 9

/-- The product `3` of the initialization admits the event `5`, whose product admits the event
`6`. -/
def nestedReplies : Replies numberPort where
  offers := [.admitted, .admitted, .retained, .exhausted, .retained]
  sources := [.cont (some 5), .cont (some 6)]
  nexts := [.cont (some 8)]

/-- The product of `6` is settled before `5` is offered again, and that before `3` is; the two that
are retained are handed over newest first. -/
theorem depth_first_causal_execution_nested :
    let life := causal echo obliging 0 0 nestedReplies
    life.acts = [.initialization, .activate 0 1,
      .offerNext 3, .nextSource, .transition 5, .apply 5,
      .offerNext 5, .nextSource, .transition 6, .apply 6,
      .offerNext 6, .offerNext 5, .offerNext 3, .publish,
      .next, .transition 8, .apply 8, .offerNext 8, .next, .retireActive [6, 3]] ∧
    life.disposition = .ok .exhausted ∧
    DepthFirst echo obliging 0 0 nestedReplies life :=
  ⟨by with_unfolding_all rfl, by with_unfolding_all rfl, depth_first_causal_execution _ _ _ _ _⟩

end Engine
