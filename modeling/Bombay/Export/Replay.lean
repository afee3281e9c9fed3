import Bombay.Export.Keys

/-!
# At most one admission

Copies of one request may be verified at the same time, and each of them then looks for a canonical
request of its class.  The search and the first attempt are one section, so at most one of them does
not find any: that one becomes canonical and stays so, and only canonical requests reach the actor.
-/

set_option autoImplicit false

namespace Export

open Machine List NativeCall

variable {P : Policies} {S : Setting} {s s' : Serving P} {k : ℕ} {q q' : Request P}

/-! ## The calls of one request -/

/-- The calls of a request: one message at most is built, one admitted, one shutdown called. -/
structure Frugal (q : Request P) : Prop where
  built : q.calls.count .construct ≤ 1
  admitted : q.calls.countP admits ≤ 1
  stopped : q.calls.count .shutdown ≤ 1
  canonical : q.calls ≠ [] → ∃ row, q.custody.identity = .canonical row
  /-- Another attempt can follow only if the mailbox was full, and then nothing has been admitted.
  -/
  attempting : q.place = .sent ∨ q.place = .waiting → ∃ row n, q.custody.identity = .canonical row ∧
    q.custody.native = some n ∧ n.unbuilt = false ∧ (q.place = .waiting → n.isFull) ∧
    (n.isFull → n.stops = false ∧ q.calls.countP admits = 0)

theorem Frugal.of_calls (h : Frugal q) (hcalls : q'.calls = q.calls)
    (hid : q.calls ≠ [] → q'.custody.identity = q.custody.identity)
    (hplace : q'.place ≠ .sent ∧ q'.place ≠ .waiting) : Frugal q' := by
  refine ⟨hcalls ▸ h.built, hcalls ▸ h.admitted, hcalls ▸ h.stopped, fun hne => ?_, ?_⟩
  · rw [hcalls] at hne
    rw [hid hne]
    exact h.canonical hne
  · rintro (hsent | hwaiting)
    · exact absurd hsent hplace.1
    · exact absurd hwaiting hplace.2

theorem frugal_new (row : ℕ) (original : P.Bytes × P.Bytes) :
    Frugal ⟨row, .start, .new original, []⟩ := by
  constructor <;> simp

variable {receipt : P.Receipt}

theorem frugal_settles {c : Custody P} (hcalls : q.calls = [])
    (h : Settles s { q with custody := c } receipt (.goes q')) : Frugal q' := by
  cases h with
  | ends | duplicates => constructor <;> simp [hcalls]
  | withdraws _ hrests =>
    constructor <;> simp [hcalls, hrests.identity, admits]
  | @attempts c n n' sending calls hnew hunb hrests hnative hbuilt hstops hfull hcalls' =>
    simp only [hcalls, nil_append, attemptCalls, hunb] at hcalls'
    subst hcalls'
    refine ⟨?_, ?_, ?_, fun _ => ⟨q.row, hrests.identity⟩, fun _ =>
      ⟨q.row, n', hrests.identity, hnative, hbuilt, by simp, fun hn => ?_⟩⟩
    · cases n.stops <;> simp
    · cases n.stops <;> cases sending <;> simp [admits]
    · cases n.stops <;> simp
    · rw [hn] at hfull
      obtain ⟨hns, rfl⟩ : n.stops = false ∧ sending = .full := by simpa using hfull.symm
      exact ⟨hstops.trans hns, by simp [hns, admits]⟩

theorem Frugal.acts (h : Frugal q) (hfresh : q.place = .verifying → q.calls = [])
    (hacts : Acts s k q (.goes q')) : Frugal q' := by
  generalize ho : Outcome.goes q' = o at hacts
  cases hacts with
  | lost => cases ho
  | starts | releases =>
    cases ho
    exact h.of_calls rfl (fun _ => rfl) (by simp)
  | ends _ hid =>
    cases ho
    exact h.of_calls rfl (fun _ => hid) (by simp)
  | settles hplace _ _ _ hsettles =>
    subst ho
    exact frugal_settles (hfresh hplace) hsettles
  | waits hplace hnative hfull =>
    cases ho
    obtain ⟨row, n, hid, hn, hbuilt, -, hcount⟩ := h.attempting (.inl hplace)
    cases hnative.symm.trans hn
    exact ⟨h.built, h.admitted, h.stopped, h.canonical, fun _ =>
      ⟨row, _, hid, hn, hbuilt, fun _ => hfull, hcount⟩⟩
  | proceeds _ hafter hrests =>
    cases ho
    refine h.of_calls rfl (fun _ => hrests.identity) ?_
    rcases hafter with rfl | rfl | rfl <;> simp
  | withdraws hplace hnative hrests =>
    cases ho
    obtain ⟨row, n, hid, hn, hbuilt, -, hcount⟩ := h.attempting (.inr hplace)
    cases hnative.symm.trans hn
    exact h.of_calls (by simp [hbuilt]) (fun _ => hrests.identity) (by simp)
  | @retries c n n' sending calls hplace hnative hrests hnext hbuilt' hstops' hfull' hcalls =>
    cases ho
    obtain ⟨row, n, hid, hn, hbuilt, hwaiting, hcount⟩ := h.attempting (.inr hplace)
    cases hnative.symm.trans hn
    -- the mailbox was full, so the message is sent for the first time or has come back
    obtain ⟨hstops, hnone⟩ := hcount (hwaiting hplace)
    have hid' : c.identity = .canonical row := hrests.identity.trans hid
    simp only [attemptCalls, hbuilt, hstops, Bool.false_eq_true, if_false, nil_append] at hcalls
    subst hcalls
    refine ⟨?_, ?_, ?_, fun _ => ⟨row, hid'⟩, fun _ =>
      ⟨row, n', hid', hnext, hbuilt', by simp, fun hn' => ?_⟩⟩
    · simpa using h.built
    · simp only [countP_append, hnone]
      cases sending <;> simp [admits]
    · simpa using h.stopped
    · rw [hn', hstops] at hfull'
      obtain rfl : sending = .full := by simpa using hfull'.symm
      exact ⟨hstops'.trans hstops, by simp [hnone, admits]⟩

theorem Frugal.answered (h : Frugal q) (hans : Answered q q') : Frugal q' := by
  have hcalls : q'.calls = q.calls := by rw [hans.request]
  have hplace : q'.place = q.place := by rw [hans.request]
  constructor
  · exact hcalls ▸ h.built
  · exact hcalls ▸ h.admitted
  · exact hcalls ▸ h.stopped
  · rw [hcalls, hans.rests.identity]
    exact h.canonical
  · rw [hcalls, hplace, hans.rests.identity, hans.native]
    exact h.attempting

/-! ## The requests of a class -/

/-- The canonical requests have receipts, and are of different classes. -/
structure Sole (s : Serving P) : Prop where
  frugal : ∀ {k : ℕ} {q : Request P}, s.requests[k]? = some q → Frugal q
  receipted : ∀ {k row : ℕ} {q : Request P}, s.requests[k]? = some q →
    q.custody.identity = .canonical row → ∃ receipt, q.custody.verified = some (.ok receipt)
  sole : ∀ {k k' row row' : ℕ} {q q' : Request P} {receipt receipt' : P.Receipt},
    s.requests[k]? = some q → s.requests[k']? = some q' →
    q.custody.identity = .canonical row → q'.custody.identity = .canonical row' →
    q.custody.verified = some (.ok receipt) → q'.custody.verified = some (.ok receipt') →
    P.sameRequest receipt receipt' → k = k'

variable {original : P.Receipt} {row : ℕ}

theorem Keyed.of_canonical_none (h : Keyed S s) (hnone : s.canonical receipt = none)
    (hq : s.requests[k]? = some q) (hid : q.custody.identity = .canonical row)
    (hver : q.custody.verified = some (.ok original)) : P.sameRequest original receipt = false := by
  have hentry := h.present hq (.inr (by simp [hid]))
  have hkey := findSome?_eq_none_iff.mp hnone _ (mem_of_getElem? hentry)
  simp only [hq, Option.bind_some, Serving.keyOf, hid, hver] at hkey
  split at hkey
  · cases hkey
  · next hsame => exact Bool.eq_false_iff.mpr hsame

/-- The key that a search finds, when there is a canonical request of the class. -/
theorem Keyed.canonical_eq (h : Keyed S s) (hsole : Sole s)
    (hequiv : Equivalence fun a b => P.sameRequest a b = true)
    (hq : s.requests[k]? = some q) (hid : q.custody.identity = .canonical row)
    (hver : q.custody.verified = some (.ok original)) (hsame : P.sameRequest original receipt) :
    s.canonical receipt = some row := by
  cases hfound : s.canonical receipt with
  | none =>
    rw [h.of_canonical_none hfound hq hid hver] at hsame
    cases hsame
  | some =>
    obtain ⟨k', q', original', -, hq', hid', hver', hsame'⟩ := of_canonical hfound
    have hk := hsole.sole hq hq' hid hid' hver hver' (hequiv.trans hsame (hequiv.symm hsame'))
    subst hk
    cases hq.symm.trans hq'
    cases hid.symm.trans hid'
    rfl

/-- What a canonical request was before a section: canonical already, or new in its class. -/
theorem Keyed.was_canonical (h : Keyed S s) (hq : s.requests[k]? = some q)
    (hturned : Turned s q q') (hid : q'.custody.identity = .canonical row) :
    Rests q.custody q'.custody ∨
      ∃ receipt, q'.custody.verified = some (.ok receipt) ∧ s.canonical receipt = none := by
  rcases hturned.identity with hrests | ⟨hplace, hsame | ⟨-, hver, hnew⟩ | hdup⟩
  · exact .inl hrests
  · rw [hsame, (h.fresh hq (.inr hplace)).1] at hid
    cases hid
  · exact .inr ⟨_, hver, hnew⟩
  · cases hdup.symm.trans hid

theorem Sole.acts (h : Sole s) (hkeyed : Keyed S s)
    (hequiv : Equivalence fun a b => P.sameRequest a b = true) {i : Input P}
    (hq : s.requests[k]? = some q) (hact : s.act S k q i = some (.goes q')) :
    Sole { s with requests := s.requests.set k q' } := by
  have hacts := acts_of_act hact
  have hturned := turned_of_acts hacts
  refine ⟨?_, ?_, ?_⟩
  · intro u r hr
    rcases of_moved hr with ⟨rfl, rfl⟩ | ⟨hne, hr⟩
    · exact (h.frugal hq).acts (fun hplace => (hkeyed.fresh hq (.inr hplace)).2) hacts
    · exact h.frugal hr
  · intro u row r hr hidentity
    rcases of_moved hr with ⟨rfl, rfl⟩ | ⟨hne, hr⟩
    · rcases hkeyed.was_canonical hq hturned hidentity with hrests | ⟨receipt, hver, -⟩
      · rw [hrests.verified]
        exact h.receipted hq (hrests.identity.symm.trans hidentity)
      · exact ⟨receipt, hver⟩
    · exact h.receipted hr hidentity
  · -- the new canonical request has passed all others
    have hpassed {u row row' : ℕ} {r : Request P} {receipt original : P.Receipt}
        (hr : s.requests[u]? = some r) (hidentity : q'.custody.identity = .canonical row)
        (hidentity' : r.custody.identity = .canonical row')
        (hver : q'.custody.verified = some (.ok receipt))
        (hver' : r.custody.verified = some (.ok original))
        (hsame : P.sameRequest original receipt) : u = k := by
      rcases hkeyed.was_canonical hq hturned hidentity with hrests | ⟨receipt', hreceipt, hnew⟩
      · exact h.sole hr hq hidentity' (hrests.identity.symm.trans hidentity) hver'
          (hrests.verified.symm.trans hver) hsame
      · cases hver.symm.trans hreceipt
        rw [hkeyed.of_canonical_none hnew hr hidentity' hver'] at hsame
        cases hsame
    intro u u' row row' r r' receipt receipt' hr hr' hid hid' hv hv' hsame
    rcases of_moved hr with ⟨rfl, rfl⟩ | ⟨hne, hu⟩ <;>
      rcases of_moved hr' with ⟨rfl, rfl⟩ | ⟨hne', hu'⟩
    · rfl
    · exact (hpassed hu' hid hid' hv hv' (hequiv.symm hsame)).symm
    · exact hpassed hu hid' hid hv' hv hsame
    · exact h.sole hu hu' hid hid' hv hv' hsame

variable {op : Op P}

theorem Sole.step (h : Sole s) (hkeyed : Keyed S s)
    (hequiv : Equivalence fun a b => P.sameRequest a b = true)
    (hstep : s.step S op = some s') : Sole s' := by
  cases steps_of_step hstep with
  | stays => exact h
  | @seats original row entries hentries hvacant hlength =>
    refine ⟨?_, ?_, ?_⟩
    · intro u r hr
      rcases of_joined hr with hr | ⟨rfl, rfl⟩
      · exact h.frugal hr
      · exact frugal_new row original
    · intro u row r hr hidentity
      rcases of_joined hr with hr | ⟨rfl, rfl⟩
      · exact h.receipted hr hidentity
      · cases hidentity
    · intro u u' row row' r r' receipt receipt' hr hr' hid hid' hv hv' hsame
      rcases of_joined hr with hr | ⟨rfl, rfl⟩
      · rcases of_joined hr' with hr' | ⟨rfl, rfl⟩
        · exact h.sole hr hr' hid hid' hv hv' hsame
        · cases hid'
      · cases hid
  | acts hq hact => exact h.acts hkeyed hequiv hq hact
  | fails hq hact => exact absurd (acts_of_act hact) (hkeyed.not_fails hq)
  | publishes =>
    refine ⟨?_, ?_, ?_⟩
    · intro u r hr
      obtain ⟨q, hq, hanswered⟩ := of_publish_get hr
      exact (h.frugal hq).answered hanswered
    · intro u row r hr hidentity
      obtain ⟨q, hq, hanswered⟩ := of_publish_get hr
      rw [hanswered.rests.verified]
      exact h.receipted hq (hanswered.rests.identity.symm.trans hidentity)
    · intro u u' row row' r r' receipt receipt' hr hr' hid hid' hv hv' hsame
      obtain ⟨q, hq, hans⟩ := of_publish_get hr
      obtain ⟨q', hq', hans'⟩ := of_publish_get hr'
      exact h.sole hq hq' (hans.rests.identity.symm.trans hid)
        (hans'.rests.identity.symm.trans hid')
        (hans.rests.verified.symm.trans hv) (hans'.rests.verified.symm.trans hv') hsame
  | discharges =>
    have hrequests : (s.discharge S).requests = s.requests := discharge_requests
    constructor <;> rw [hrequests]
    · exact h.frugal
    · exact h.receipted
    · exact h.sole

variable {tr : History P}

theorem sole_run (hequiv : Equivalence fun a b => P.sameRequest a b = true)
    (h : Serves S tr s) : Sole s := by
  refine (h.invariant (P := fun s => Keyed S s ∧ Sole s) ⟨keyed_new, ?_⟩ ?_).2
  · constructor <;> simp [Serving.new]
  · exact fun _ _ _ hs hstep => ⟨hs.1.step hstep, hs.2.step hs.1 hequiv hstep⟩

/-! ## After the operation has returned -/

variable {o : Outcome P}

theorem Acts.running_or (h : Acts s k q o) :
    q.place.running ∨ o = .goes { q with place := .released } := by
  cases h with
  | releases => exact .inr rfl
  | ends hplace => exact .inl hplace
  | proceeds hbefore => rcases hbefore with h | h | h <;> exact .inl (by simp [h])
  | lost hplace | starts hplace | settles hplace | waits hplace | withdraws hplace
    | retries hplace =>
    exact .inl (by simp [hplace])

theorem Steps.calls_eq (h : Steps S s op s') (hq : s.requests[k]? = some q)
    (hplace : ¬q.place.running) :
    ∃ q', s'.requests[k]? = some q' ∧ ¬q'.place.running ∧ q'.calls = q.calls := by
  cases h with
  | stays | fails => exact ⟨q, hq, hplace, rfl⟩
  | seats =>
    exact ⟨q, by rw [getElem?_append_left (lt_of_get hq), hq], hplace, rfl⟩
  | @acts u _ r r' hr hact =>
    rcases Decidable.eq_or_ne u k with rfl | hne
    · cases hq.symm.trans hr
      have hself : (s.requests.set u r')[u]? = some r' :=
        getElem?_set_self (lt_of_get hq)
      rcases (acts_of_act hact).running_or with hrunning | heq
      · exact absurd hrunning hplace
      · cases heq
        exact ⟨_, hself, id, rfl⟩
    · exact ⟨q, by simp [getElem?_set_ne hne, hq], hplace, rfl⟩
  | publishes =>
    obtain ⟨q', hq', hans⟩ := publish_get _ _ hq
    rw [hans.request] at hq'
    exact ⟨_, hq', hplace, rfl⟩
  | discharges => exact ⟨q, by rw [discharge_requests, hq], hplace, rfl⟩

theorem calls_eq_run (hrun : Run (Serving.step S) s tr s')
    (hq : s.requests[k]? = some q) (hplace : ¬q.place.running) :
    ∃ q', s'.requests[k]? = some q' ∧ ¬q'.place.running ∧ q'.calls = q.calls := by
  refine hrun.invariant ⟨q, hq, hplace, rfl⟩ ?_
  rintro u op u' ⟨r, hr, hret, hcalls⟩ hstep
  obtain ⟨r', hr', hret', hcalls'⟩ := (steps_of_step hstep).calls_eq hr hret
  exact ⟨r', hr', hret', hcalls'.trans hcalls⟩

/-! ## A verified request of a class that has its canonical request -/

variable {a : Answers P}

theorem settle_later {o : Request P} (hpermission : a.permission = .ok ())
    (hfound : s.canonical receipt = some row) (hoccupant : s.occupant row = some o)
    (hver : o.custody.verified = some (.ok original)) (hid : q.custody.identity = .unassigned) :
    ∃ c, s.settle S q receipt a = .goes (q.finish c) ∧
      (o.custody.original.1 ≠ q.custody.original.1 →
        c.refusal = some .conflict ∧ c.identity = .unassigned) ∧
      (o.custody.original.1 = q.custody.original.1 →
        (c.identity = .duplicate row ↔ a.reply = .ok ())) := by
  unfold Serving.settle
  simp only [hpermission, hfound, hoccupant]
  split
  · next hne => exact ⟨_, rfl, fun _ => ⟨rfl, hid⟩, fun heq => absurd heq hne⟩
  · next heq =>
    cases hreply : a.reply with
    | error =>
      rw [hver]
      exact ⟨_, rfl, fun hne => absurd hne heq, fun _ => by simp [hid]⟩
    | ok =>
      rw [hver]
      exact ⟨_, rfl, fun hne => absurd hne heq, fun _ => by simp⟩

theorem Keyed.act_verified (h : Keyed S s) (hq : s.requests[k]? = some q)
    (hact : s.act S k q (.verified (.returned (.ok receipt)) false a) = some o) :
    ∃ r, r.calls = [] ∧ r.custody.identity = .unassigned ∧
      r.custody.original = q.custody.original ∧ o = s.settle S r receipt a := by
  have hplace : q.place = .verifying := by
    cases hp : q.place with
    | verifying => rfl
    | _ => simp [Serving.act, hp] at hact
  obtain ⟨hcustody, hcalls⟩ := h.fresh hq (.inr hplace)
  have hid : q.custody.identity = .unassigned := by rw [hcustody]; rfl
  have hfactory : q.custody.verificationFactory = false := by rw [hcustody]; rfl
  have hpoll : q.custody.verificationPoll = false := by rw [hcustody]; rfl
  simp only [Serving.act, hplace, Serving.verification, hfactory, hpoll, Bool.or_self,
    Bool.false_eq_true, if_false, Option.some.injEq] at hact
  refine ⟨_, ?_, ?_, ?_, hact.symm⟩
  · exact hcalls
  · exact hid
  · rfl

/-! ## Replay -/

def Request.ofClass (receipt : P.Receipt) (q : Request P) : Bool :=
  match q.custody.verified with
  | some (.ok original) => P.sameRequest original receipt
  | _ => false

/-- How many calls of a kind the requests of a class have made. -/
def Serving.callsOf (s : Serving P) (receipt : P.Receipt) (kind : NativeCall → Bool) : ℕ :=
  total (fun q => if q.ofClass receipt then q.calls.countP kind else 0) s.requests

/-- **At most one admission under replay.** -/
structure AtMostOnce (tr : History P) (s : Serving P) : Prop where
  /-- Of a class, only one request is ever canonical, and only in one row. -/
  sole : ∀ t ∈ tr, ∀ t' ∈ tr, ∀ {k k' row row' : ℕ} {q q' : Request P}
    {receipt receipt' : P.Receipt},
    t.target.requests[k]? = some q → t'.target.requests[k']? = some q' →
    q.custody.identity = .canonical row → q'.custody.identity = .canonical row' →
    q.custody.verified = some (.ok receipt) → q'.custody.verified = some (.ok receipt') →
    P.sameRequest receipt receipt' → k = k' ∧ row = row'
  /-- Only canonical requests, all of them verified, reach the actor. -/
  canonical : ∀ q ∈ s.requests, q.calls ≠ [] → ∃ row receipt, q.custody.identity = .canonical row ∧
    q.custody.verified = some (.ok receipt)
  built : ∀ receipt, s.callsOf receipt (· == .construct) ≤ 1
  admitted : ∀ receipt, s.callsOf receipt admits ≤ 1
  stopped : ∀ receipt, s.callsOf receipt (· == .shutdown) ≤ 1
  /-- A request that is verified and permitted later conflicts with the canonical request or becomes
  its duplicate, and never reaches the actor. -/
  later : ∀ t ∈ tr, ∀ {j k row : ℕ} {o q : Request P} {original receipt : P.Receipt}
    {a : Answers P},
    t.input = .run k (.verified (.returned (.ok receipt)) false a) → a.permission = .ok () →
    t.source.requests[k]? = some q → t.source.requests[j]? = some o →
    o.custody.identity = .canonical row → o.custody.verified = some (.ok original) →
    P.sameRequest original receipt → ∃ q' r, t.target.requests[k]? = some q' ∧
      (o.custody.original.1 ≠ q.custody.original.1 →
        q'.custody.refusal = some .conflict ∧ q'.custody.identity = .unassigned) ∧
      (o.custody.original.1 = q.custody.original.1 →
        (q'.custody.identity = .duplicate row ↔ a.reply = .ok ())) ∧
      q'.calls = [] ∧ s.requests[k]? = some r ∧ r.calls = []

theorem Sole.callsOf_le (h : Sole s) (hequiv : Equivalence fun a b => P.sameRequest a b = true)
    {kind : NativeCall → Bool} (hone : ∀ {q : Request P}, Frugal q → q.calls.countP kind ≤ 1)
    (receipt : P.Receipt) : s.callsOf receipt kind ≤ 1 := by
  -- a request that counts is canonical, with a receipt of the class
  have hcounts {k : ℕ} {q : Request P} (hq : s.requests[k]? = some q)
      (hne : (if q.ofClass receipt then q.calls.countP kind else 0) ≠ 0) :
      ∃ row original, q.custody.identity = .canonical row ∧
        q.custody.verified = some (.ok original) ∧ P.sameRequest original receipt := by
    split at hne
    · next hclass =>
      have hcalls : q.calls ≠ [] := fun hnil => hne (by rw [hnil]; rfl)
      obtain ⟨row, hid⟩ := (h.frugal hq).canonical hcalls
      unfold Request.ofClass at hclass
      split at hclass
      · next original hver => exact ⟨row, original, hid, hver, hclass⟩
      · cases hclass
    · exact absurd rfl hne
  refine total_le_one (fun q hq => ?_) fun hq hr hne hne' => ?_
  · obtain ⟨k, hk⟩ := mem_iff_getElem?.mp hq
    split
    · exact hone (h.frugal hk)
    · exact Nat.zero_le _
  · obtain ⟨row, original, hid, hver, hsame⟩ := hcounts hq hne
    obtain ⟨row', original', hid', hver', hsame'⟩ := hcounts hr hne'
    exact h.sole hq hr hid hid' hver hver' (hequiv.trans hsame (hequiv.symm hsame'))

theorem Keyed.canonical_run (h : Keyed S s) (hrun : Run (Serving.step S) s tr s')
    (hq : s.requests[k]? = some q) (hid : q.custody.identity = .canonical row) :
    ∃ q', s'.requests[k]? = some q' ∧ Rests q.custody q'.custody := by
  have hkeyed : q.custody.identity ≠ .unassigned := by simp [hid]
  exact (h.keeps_run hrun (h.present hq (.inr hkeyed)) hq hkeyed).2

theorem at_most_once_under_replay (hequiv : Equivalence fun a b => P.sameRequest a b = true)
    {tr : History P} (h : Serves S tr s) : AtMostOnce tr s := by
  have hs := sole_run hequiv h
  -- what a transition leads to is part of a run to the end
  have hafter {t : Transition (Serving P) (Op P)} (ht : t ∈ tr) :
      ∃ pre post, Serves S pre t.source ∧ t.source.step S t.input = some t.target ∧
        Run (Serving.step S) t.target post s := by
    obtain ⟨pre, post, rfl⟩ := append_of_mem ht
    exact ⟨pre, post, h.at⟩
  refine ⟨?_, ?_, ?_, ?_, ?_, ?_⟩
  · intro t ht t' ht' k k' row row' q q' receipt receipt' hq hq' hid hid' hv hv' hsame
    obtain ⟨pre, post, hpre, hstep, hpost⟩ := hafter ht
    obtain ⟨pre', post', hpre', hstep', hpost'⟩ := hafter ht'
    have ht := keyed_run (hpre.snoc hstep)
    have ht' := keyed_run (hpre'.snoc hstep')
    obtain ⟨r, hr, hrests⟩ := ht.canonical_run hpost hq hid
    obtain ⟨r', hr', hrests'⟩ := ht'.canonical_run hpost' hq' hid'
    have hk := hs.sole hr hr' (hrests.identity.trans hid) (hrests'.identity.trans hid')
      (hrests.verified.trans hv) (hrests'.verified.trans hv') hsame
    subst hk
    cases hr.symm.trans hr'
    have hrow := (hrests.identity.trans hid).symm.trans (hrests'.identity.trans hid')
    exact ⟨rfl, Identity.canonical.inj hrow⟩
  · intro q hq hcalls
    obtain ⟨k, hk⟩ := mem_iff_getElem?.mp hq
    obtain ⟨row, hidentity⟩ := (hs.frugal hk).canonical hcalls
    obtain ⟨receipt, hver⟩ := hs.receipted hk hidentity
    exact ⟨row, receipt, hidentity, hver⟩
  · exact hs.callsOf_le hequiv Frugal.built
  · exact hs.callsOf_le hequiv Frugal.admitted
  · exact hs.callsOf_le hequiv Frugal.stopped
  · intro t ht j k row o q original receipt a hinput hpermission hq ho hid hv hsame
    obtain ⟨pre, post, hpre, hstep, hpost⟩ := hafter ht
    have hkeyed := keyed_run hpre
    have hfound := hkeyed.canonical_eq (sole_run hequiv hpre) hequiv ho hid hv hsame
    have hentry := hkeyed.present ho (.inr (by simp [hid]))
    rw [← hkeyed.own ho hid] at hentry
    have hoccupant := (Serving.occupant_eq hentry).trans ho
    rw [hinput] at hstep
    generalize t.target = u at hstep hpost
    cases steps_of_step hstep with
    | acts hr hact =>
      cases hq.symm.trans hr
      obtain ⟨r, hcalls, hnone, horig, houtcome⟩ := hkeyed.act_verified hq hact
      obtain ⟨c, hsettle, hconflict, hdup⟩ :=
        settle_later (S := S) hpermission hfound hoccupant hv hnone
      cases houtcome.trans hsettle
      have hself := getElem?_set_self (a := r.finish c) (lt_of_get hq)
      obtain ⟨r', hr', -, hcalls'⟩ := calls_eq_run hpost hself id
      rw [horig] at hconflict hdup
      exact ⟨_, r', hself, hconflict, hdup, hcalls, hr', hcalls'.trans hcalls⟩
    | fails hr hact => exact absurd (acts_of_act hact) (hkeyed.not_fails hr)

/-- Two copies of one request are verified at the same time, and a third request of their class has
other bytes.  The mailbox is full at the first attempt, and takes the message at the second. -/
def replays : List (Op plain) :=
  [.arrive (1, 0) true, .arrive (1, 0) true, .run 0 (.begins (.ok ()) false),
    .run 1 (.begins (.ok ()) false),
    .run 1 (.verified (.returned (.ok 7)) false (granted .full)),
    .run 0 (.verified (.returned (.ok 7)) false (granted .accepted)),
    .run 1 .advance, .run 1 (.capacity (.ok ()) () .accepted (.ok ()))] ++
    verifiedArrival 2 2 7 .accepted

def threeRows : Setting := ⟨.reply, 3, .retain, false⟩

theorem at_most_once_under_replay_race : ∃ (tr : History plain) (s : Serving plain),
    Serves threeRows tr s ∧
    s.requests.map (·.custody.identity) = [.duplicate 1, .canonical 1, .unassigned] ∧
    s.requests.map (·.calls) = [[], [.construct, .trySend .full, .trySend .accepted], []] ∧
    AtMostOnce tr s := by
  have hequiv : Equivalence fun a b : ℕ => plain.sameRequest a b = true :=
    ⟨fun _ => beq_self_eq_true _, fun h => beq_iff_eq.mpr (beq_iff_eq.mp h).symm,
      fun h h' => beq_iff_eq.mpr ((beq_iff_eq.mp h).trans (beq_iff_eq.mp h'))⟩
  have hexec : (exec (Serving.step threeRows) Serving.new replays).map (fun r =>
      (r.2.requests.map (·.custody.identity), r.2.requests.map (·.calls))) =
      some ([.duplicate 1, .canonical 1, .unassigned],
        [[], [.construct, .trySend .full, .trySend .accepted], []]) := by decide +kernel
  obtain ⟨⟨tr, s⟩, hrun, hs⟩ := Option.map_eq_some_iff.mp hexec
  obtain ⟨hidentities, hcalls⟩ := Prod.mk.inj hs
  exact ⟨tr, s, exec_run hrun, hidentities, hcalls,
    at_most_once_under_replay hequiv (exec_run hrun)⟩

end Export
