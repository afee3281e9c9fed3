import Bombay.Export.Acts

/-!
# Issued keys stay valid

A key is a row number, and rows are vacated and used again.  That a key never dangles is the
invariant `Keyed`: a request that is worked on, or has an identity, sits in its own row; a canonical
identity names that row; and a duplicate names a row where such a canonical request sits.  A row is
vacated only once its request has been released without an identity, so nobody knows it by then.
-/

set_option autoImplicit false

namespace Export

open Machine List Serving

variable {P : Policies} {S : Setting} {s s' : Serving P} {k : ℕ} {q q' : Request P}

/-! ## The invariant -/

/-- The row that an identity names. -/
def Identity.key : Identity → Option ℕ
  | unassigned => none
  | canonical row | duplicate row => some row

/-- The canonical request with the key `row` sits where the key says. -/
def Serving.Issued (s : Serving P) (row : ℕ) : Prop :=
  ∃ k q, s.entries[row]? = some (some k) ∧ s.requests[k]? = some q ∧
    q.custody.identity = .canonical row

/-- **The invariant of the rows.** -/
structure Keyed (S : Setting) (s : Serving P) : Prop where
  sound : s.failed = false
  short : s.entries.length ≤ S.retainedRequests
  seated : ∀ {i k : ℕ}, s.entries[i]? = some (some k) → ∃ q, s.requests[k]? = some q ∧ q.row = i
  present : ∀ {k : ℕ} {q : Request P}, s.requests[k]? = some q →
    q.place ≠ .released ∨ q.custody.identity ≠ .unassigned → s.entries[q.row]? = some (some k)
  /-- Nothing is known about a request before its verification. -/
  fresh : ∀ {k : ℕ} {q : Request P}, s.requests[k]? = some q →
    q.place = .start ∨ q.place = .verifying → q.custody = .new q.custody.original ∧ q.calls = []
  own : ∀ {k row : ℕ} {q : Request P}, s.requests[k]? = some q →
    q.custody.identity = .canonical row → row = q.row
  known : ∀ {k row : ℕ} {q : Request P}, s.requests[k]? = some q →
    q.custody.identity = .duplicate row → s.Issued row

variable {row : ℕ}

theorem Serving.occupant_eq (h : s.entries[row]? = some (some k)) :
    s.occupant row = s.requests[k]? := by
  rw [occupant, h]

theorem Serving.of_occupant (h : s.occupant row = some q) :
    ∃ k, s.entries[row]? = some (some k) ∧ s.requests[k]? = some q := by
  unfold occupant at h
  split at h
  · next k hk => exact ⟨k, hk, h⟩
  · cases h

theorem Serving.Issued.occupied (h : s.Issued row) :
    ∃ q, s.occupant row = some q ∧ q.custody.identity = .canonical row := by
  obtain ⟨k, q, hentry, hq, hid⟩ := h
  exact ⟨q, (occupant_eq hentry).trans hq, hid⟩

variable {receipt : P.Receipt}

theorem keyOf_eq_some (h : keyOf receipt q = some row) :
    q.custody.identity = .canonical row ∧
      ∃ original, q.custody.verified = some (.ok original) ∧ P.sameRequest original receipt := by
  unfold keyOf at h
  split at h
  · next row' original hid hver =>
    split at h
    · next hsame =>
      cases h
      exact ⟨hid, original, hver, hsame⟩
    · cases h
  · cases h

theorem of_canonical (h : s.canonical receipt = some row) :
    ∃ k q original, some k ∈ s.entries ∧ s.requests[k]? = some q ∧
      q.custody.identity = .canonical row ∧ q.custody.verified = some (.ok original) ∧
      P.sameRequest original receipt := by
  obtain ⟨e, he, hkey⟩ := exists_of_findSome?_eq_some h
  split at hkey
  · cases hkey
  · next k =>
    obtain ⟨q, hq, hkey⟩ := Option.bind_eq_some_iff.mp hkey
    obtain ⟨hid, original, hver, hsame⟩ := keyOf_eq_some hkey
    exact ⟨k, q, original, he, hq, hid, hver, hsame⟩

theorem Keyed.issued_canonical (h : Keyed S s) (hq : s.requests[k]? = some q)
    (hid : q.custody.identity = .canonical row) : s.Issued row := by
  have hentry := h.present hq (.inr (by simp [hid]))
  rw [← h.own hq hid] at hentry
  exact ⟨k, q, hentry, hq, hid⟩

theorem Keyed.issued_found (h : Keyed S s)
    (hfound : s.canonical receipt = some row) : s.Issued row := by
  obtain ⟨k, q, original, -, hq, hid, -⟩ := of_canonical hfound
  exact h.issued_canonical hq hid

/-! ## A section -/

/-- What becomes of the identity of a request right after its verification. -/
inductive Named (s : Serving P) (q q' : Request P) : Prop
  | refused (hidentity : q'.custody.identity = q.custody.identity)
  | canonical {receipt : P.Receipt} (hidentity : q'.custody.identity = .canonical q.row)
      (hverified : q'.custody.verified = some (.ok receipt)) (hnew : s.canonical receipt = none)
  | duplicate {receipt : P.Receipt} {row : ℕ} (hidentity : q'.custody.identity = .duplicate row)
      (hfound : s.canonical receipt = some row)

/-- What a section does to a request. -/
structure Turned (s : Serving P) (q q' : Request P) : Prop where
  row : q'.row = q.row
  place : q.place ≠ .released
  early : q'.place = .start ∨ q'.place = .verifying →
    q.place = .start ∧ q'.custody = q.custody ∧ q'.calls = q.calls
  /-- An identity is only given right after the verification. -/
  identity : Rests q.custody q'.custody ∨ q.place = .verifying ∧ Named s q q'

theorem Place.running.ne_released {p : Place} (h : p.running) : p ≠ .released := by
  rintro rfl
  exact h

theorem turned_of_settles {c : Custody P} (hplace : q.place = .verifying)
    (hid : c.identity = q.custody.identity) (hver : c.verified = some (.ok receipt))
    (h : Settles s { q with custody := c } receipt (.goes q')) : Turned s q q' := by
  have hnot : q.place ≠ .released := by simp [hplace]
  cases h with
  | ends hrests =>
    exact ⟨rfl, hnot, by simp, .inr ⟨hplace, .refused (hrests.identity.trans hid)⟩⟩
  | duplicates hfound =>
    exact ⟨rfl, hnot, by simp, .inr ⟨hplace, .duplicate rfl hfound⟩⟩
  | withdraws hnew hrests =>
    exact ⟨rfl, hnot, by simp,
      .inr ⟨hplace, .canonical hrests.identity (hrests.verified.trans hver) hnew⟩⟩
  | attempts hnew _ hrests =>
    exact ⟨rfl, hnot, by simp,
      .inr ⟨hplace, .canonical hrests.identity (hrests.verified.trans hver) hnew⟩⟩

theorem turned_of_acts (h : Acts s k q (.goes q')) : Turned s q q' := by
  generalize ho : Outcome.goes q' = o at h
  cases h with
  | lost => cases ho
  | starts hplace =>
    cases ho
    exact ⟨rfl, by simp [hplace], fun _ => ⟨hplace, rfl, rfl⟩, .inl (.refl _)⟩
  | ends hplace hid horig hver =>
    cases ho
    refine ⟨rfl, hplace.ne_released, by simp, ?_⟩
    rcases Decidable.eq_or_ne q.place .verifying with heq | hne
    · exact .inr ⟨heq, .refused hid⟩
    · exact .inl ⟨hid, horig, hver hne⟩
  | settles hplace hid _ hver hsettles =>
    subst ho
    exact turned_of_settles hplace hid hver hsettles
  | waits hplace | releases hplace =>
    cases ho
    exact ⟨rfl, by simp [hplace], by simp, .inl (.refl _)⟩
  | proceeds hbefore hafter hrests =>
    cases ho
    refine ⟨rfl, ?_, ?_, .inl hrests⟩
    · rcases hbefore with h | h | h <;> simp [h]
    · rcases hafter with h | h | h <;> simp [h]
  | withdraws hplace _ hrests =>
    cases ho
    exact ⟨rfl, by simp [hplace], by simp, .inl ⟨hrests.1, hrests.2, hrests.3⟩⟩
  | retries hplace _ hrests =>
    cases ho
    exact ⟨rfl, by simp [hplace], by simp, .inl hrests⟩

/-- A request that has an identity keeps it, with the receipt and the bytes. -/
theorem Keyed.turned_rests (h : Keyed S s) (hq : s.requests[k]? = some q) (hturned : Turned s q q')
    (hkeyed : q.custody.identity ≠ .unassigned) : Rests q.custody q'.custody := by
  rcases hturned.identity with hrests | ⟨hplace, -⟩
  · exact hrests
  · rw [(h.fresh hq (.inr hplace)).1] at hkeyed
    exact absurd rfl hkeyed

theorem Keyed.not_fails (h : Keyed S s) (hq : s.requests[k]? = some q) : ¬Acts s k q .fails := by
  intro hacts
  generalize ho : Outcome.fails = o at hacts
  cases hacts with
  | lost hplace hrow => exact hrow (h.present hq (.inl (by simp [hplace])))
  | settles _ _ _ _ hsettles =>
    subst ho
    cases hsettles with
    | lost hfound hvacant =>
      obtain ⟨o, ho, -⟩ := (h.issued_found hfound).occupied
      rw [hvacant] at ho
      cases ho
  | _ => cases ho

/-! ## A step -/

variable {op : Op P} {i : ℕ}

/-- A request with an identity keeps its row, its identity, its receipt and its bytes. -/
theorem Keyed.keeps (h : Keyed S s) (hstep : Steps S s op s')
    (hentry : s.entries[i]? = some (some k)) (hq : s.requests[k]? = some q)
    (hkeyed : q.custody.identity ≠ .unassigned) :
    s'.entries[i]? = some (some k) ∧ ∃ q', s'.requests[k]? = some q' ∧
    Rests q.custody q'.custody := by
  cases hstep with
  | stays => exact ⟨hentry, q, hq, .refl _⟩
  | seats hentries hvacant =>
    refine ⟨?_, q, ?_, .refl _⟩
    · rw [hentries, if_neg, hentry]
      rintro rfl
      exact hvacant k hentry
    · rw [getElem?_append_left (lt_of_get hq), hq]
  | @acts u _ r r' hr hact =>
    refine ⟨hentry, ?_⟩
    rcases Decidable.eq_or_ne u k with rfl | hne
    · cases hq.symm.trans hr
      have hrests := h.turned_rests hq (turned_of_acts (acts_of_act hact)) hkeyed
      exact ⟨r', getElem?_set_self (lt_of_get hq), hrests⟩
    · exact ⟨q, by simp [getElem?_set_ne hne, hq], .refl _⟩
  | fails hr hact => exact absurd (acts_of_act hact) (h.not_fails hr)
  | publishes =>
    obtain ⟨q', hq', hans⟩ := publish_get _ _ hq
    exact ⟨hentry, q', hq', hans.rests⟩
  | discharges =>
    exact ⟨discharge_get hentry hq (.inr hkeyed), q, by rw [discharge_requests, hq], .refl _⟩

theorem Keyed.issued_step (h : Keyed S s) (hstep : Steps S s op s')
    (hissued : s.Issued row) : s'.Issued row := by
  obtain ⟨k, q, hentry, hq, hid⟩ := hissued
  obtain ⟨hentry', q', hq', hrests⟩ := h.keeps hstep hentry hq (by simp [hid])
  exact ⟨k, q', hentry', hq', hrests.identity.trans hid⟩

theorem Keyed.seats (h : Keyed S s) {original} {entries}
    (hentries : ∀ i : ℕ, entries[i]? =
      if i = row then some (some s.requests.length) else s.entries[i]?)
    (hvacant : ∀ k, s.entries[row]? ≠ some (some k))
    (hlength : s.entries.length ≤ S.retainedRequests → entries.length ≤ S.retainedRequests) :
    Keyed S { s with
      entries := entries, requests := s.requests ++ [⟨row, .start, .new original, []⟩] } := by
  have hstep : Steps S s (.arrive original true) _ := .seats hentries hvacant hlength
  refine ⟨h.sound, hlength h.short, ?_, ?_, ?_, ?_, ?_⟩
  · intro i k hk
    rw [hentries] at hk
    split at hk
    · next heq =>
      cases hk
      exact ⟨_, getElem?_concat_length .., heq.symm⟩
    · obtain ⟨q, hq, hrow⟩ := h.seated hk
      exact ⟨q, by rw [getElem?_append_left (lt_of_get hq), hq], hrow⟩
  · intro k q hq hkeeps
    rcases of_joined hq with hq | ⟨rfl, rfl⟩
    · have hentry := h.present hq hkeeps
      rw [hentries, if_neg, hentry]
      intro heq
      exact hvacant k (heq ▸ hentry)
    · rw [hentries, if_pos rfl]
  · intro k q hq hplace
    rcases of_joined hq with hq | ⟨rfl, rfl⟩
    · exact h.fresh hq hplace
    · exact ⟨rfl, rfl⟩
  · intro k row q hq hid
    rcases of_joined hq with hq | ⟨rfl, rfl⟩
    · exact h.own hq hid
    · cases hid
  · intro k row q hq hid
    rcases of_joined hq with hq | ⟨rfl, rfl⟩
    · exact h.issued_step hstep (h.known hq hid)
    · cases hid

theorem Keyed.acts (h : Keyed S s) {i : Input P} (hq : s.requests[k]? = some q)
    (hact : s.act S k q i = some (.goes q')) :
    Keyed S { s with requests := s.requests.set k q' } := by
  have hstep : Steps S s (.run k i) _ := .acts hq hact
  have hturned := turned_of_acts (acts_of_act hact)
  have hlt := lt_of_get hq
  have hnamed : q'.custody.identity = q.custody.identity ∨ Named s q q' :=
    hturned.identity.imp Rests.identity And.right
  refine ⟨h.sound, h.short, ?_, ?_, ?_, ?_, ?_⟩
  · intro j u hu
    obtain ⟨r, hr, hrow⟩ := h.seated hu
    rcases Decidable.eq_or_ne k u with rfl | hne
    · cases hq.symm.trans hr
      exact ⟨q', getElem?_set_self hlt, hturned.row.trans hrow⟩
    · exact ⟨r, by simp [getElem?_set_ne hne, hr], hrow⟩
  · intro u r hr hkeeps
    rcases of_moved hr with ⟨rfl, rfl⟩ | ⟨hne, hr⟩
    · rw [hturned.row]
      exact h.present hq (.inl hturned.place)
    · exact h.present hr hkeeps
  · intro u r hr hplace
    rcases of_moved hr with ⟨rfl, rfl⟩ | ⟨hne, hr⟩
    · obtain ⟨hstart, hcustody, hcalls⟩ := hturned.early hplace
      rw [hcustody, hcalls]
      exact h.fresh hq (.inl hstart)
    · exact h.fresh hr hplace
  · intro u row r hr hid
    rcases of_moved hr with ⟨rfl, rfl⟩ | ⟨hne, hr⟩
    · rw [hturned.row]
      rcases hnamed with hsame | hsame | hcanonical | hdup
      · exact h.own hq (hsame.symm.trans hid)
      · exact h.own hq (hsame.symm.trans hid)
      · cases hcanonical.symm.trans hid
        rfl
      · cases hdup.symm.trans hid
    · exact h.own hr hid
  · intro u row r hr hid
    refine h.issued_step hstep ?_
    rcases of_moved hr with ⟨rfl, rfl⟩ | ⟨hne, hr⟩
    · rcases hnamed with hsame | hsame | hcanonical | ⟨hdup, hfound⟩
      · exact h.known hq (hsame.symm.trans hid)
      · exact h.known hq (hsame.symm.trans hid)
      · cases hcanonical.symm.trans hid
      · cases hdup.symm.trans hid
        exact h.issued_found hfound
    · exact h.known hr hid

theorem Keyed.publish_sound (h : Keyed S s) (permission : ℕ → Except P.ReplyError Unit)
    (accepted : ℕ → Bool) : (s.publish permission accepted).failed = false := by
  simp only [publish, any_eq_false]
  intro e he hfails
  split at hfails
  · cases hfails
  · next k =>
    obtain ⟨i, hi⟩ := mem_iff_getElem?.mp he
    obtain ⟨q, hq, -⟩ := h.seated hi
    rw [hq, Option.bind_some, Option.isNone_iff_eq_none] at hfails
    obtain ⟨row, hid, hvacant⟩ := publishRow_none hfails
    obtain ⟨o, ho, -⟩ := (h.known hq hid).occupied
    rw [hvacant] at ho
    cases ho

theorem Keyed.publishes (h : Keyed S s) (permission : ℕ → Except P.ReplyError Unit)
    (accepted : ℕ → Bool) : Keyed S (s.publish permission accepted) := by
  have hstep : Steps S s (.publish permission accepted) _ := .publishes
  have hrow {q q' : Request P} (h : Answered q q') : q'.row = q.row := by rw [h.request]
  have hplace {q q' : Request P} (h : Answered q q') : q'.place = q.place := by rw [h.request]
  refine ⟨h.publish_sound permission accepted, h.short, ?_, ?_, ?_, ?_, ?_⟩
  · intro i k hk
    obtain ⟨q, hq, hi⟩ := h.seated hk
    obtain ⟨q', hq', hans⟩ := publish_get permission accepted hq
    exact ⟨q', hq', (hrow hans).trans hi⟩
  · intro k q' hq' hkeeps
    obtain ⟨q, hq, hans⟩ := of_publish_get hq'
    rw [hplace hans, hans.rests.identity] at hkeeps
    rw [hrow hans]
    exact h.present hq hkeeps
  · intro k q' hq' hearly
    obtain ⟨q, hq, hans⟩ := of_publish_get hq'
    rw [hplace hans] at hearly
    have hfresh := h.fresh hq hearly
    rw [hans.pending (by rw [hfresh.1]; rfl)]
    exact hfresh
  · intro k row q' hq' hid
    obtain ⟨q, hq, hans⟩ := of_publish_get hq'
    rw [hrow hans]
    exact h.own hq (hans.rests.identity.symm.trans hid)
  · intro k row q' hq' hid
    obtain ⟨q, hq, hans⟩ := of_publish_get hq'
    exact h.issued_step hstep (h.known hq (hans.rests.identity.symm.trans hid))

theorem Keyed.discharges (h : Keyed S s) : Keyed S (s.discharge S) := by
  have hstep : Steps S s .discharge _ := .discharges
  have hold {k : ℕ} {q : Request P} (hq : (s.discharge S).requests[k]? = some q) :
      s.requests[k]? = some q := discharge_requests ▸ hq
  refine ⟨discharge_failed.trans h.sound, discharge_length.trans_le h.short, ?_, ?_, ?_, ?_, ?_⟩
  · intro i k hk
    rw [discharge_requests]
    exact h.seated (of_discharge_get hk)
  · intro k q hq hkeeps
    exact discharge_get (h.present (hold hq) hkeeps) (hold hq) hkeeps
  · intro k q hq hplace
    exact h.fresh (hold hq) hplace
  · intro k row q hq hid
    exact h.own (hold hq) hid
  · intro k row q hq hid
    exact h.issued_step hstep (h.known (hold hq) hid)

theorem keyed_new : Keyed S (new : Serving P) := by
  constructor <;> simp [new]

theorem Keyed.step (h : Keyed S s) (hstep : s.step S op = some s') : Keyed S s' := by
  cases steps_of_step hstep with
  | stays => exact h
  | seats hentries hvacant hlength => exact h.seats hentries hvacant hlength
  | acts hq hact => exact h.acts hq hact
  | fails hq hact => exact absurd (acts_of_act hact) (h.not_fails hq)
  | publishes => exact h.publishes _ _
  | discharges => exact h.discharges

variable {tr : History P}

/-- **The invariant holds along every run.** -/
theorem keyed_run (h : Serves S tr s) : Keyed S s :=
  h.invariant keyed_new fun _ _ _ hs hstep => hs.step hstep

theorem Keyed.keeps_run (h : Keyed S s) (hrun : Run (Serving.step S) s tr s')
    (hentry : s.entries[i]? = some (some k)) (hq : s.requests[k]? = some q)
    (hkeyed : q.custody.identity ≠ .unassigned) :
    s'.entries[i]? = some (some k) ∧ ∃ q', s'.requests[k]? = some q' ∧
    Rests q.custody q'.custody := by
  refine (hrun.invariant (P := fun u => Keyed S u ∧ u.entries[i]? = some (some k) ∧
    ∃ q', u.requests[k]? = some q' ∧ Rests q.custody q'.custody) ⟨h, hentry, q, hq, .refl _⟩ ?_).2
  rintro u op u' ⟨hu, hentry, r, hr, hrests⟩ hstep
  obtain ⟨hentry', r', hr', hrests'⟩ :=
    hu.keeps (steps_of_step hstep) hentry hr (by rwa [hrests.identity])
  exact ⟨hu.step hstep, hentry', r', hr', hrests.trans hrests'⟩

/-! ## Keys -/

/-- **Issued keys stay valid.** -/
structure KeysValid (S : Setting) (tr : History P) (s : Serving P) : Prop where
  /-- A key in any row names an occupied row, whose identity is canonical with that number. -/
  named : ∀ {i row : ℕ} {q : Request P}, s.occupant i = some q → q.custody.identity.key = some row →
    ∃ o, s.occupant row = some o ∧ o.custody.identity = .canonical row
  distinct : ∀ {i j row row' : ℕ} {q r : Request P}, i ≠ j → s.occupant i = some q →
    s.occupant j = some r → q.custody.identity = .canonical row →
    r.custody.identity = .canonical row' → row ≠ row'
  /-- A row that has ever held a request with an identity still holds it, with that identity. -/
  kept : ∀ t ∈ tr, ∀ {i : ℕ} {q : Request P}, t.source.occupant i = some q →
    q.custody.identity ≠ .unassigned → ∃ k q', t.source.entries[i]? = some (some k) ∧
      s.entries[i]? = some (some k) ∧ s.requests[k]? = some q' ∧
      q'.custody.identity = q.custody.identity
  bounded : s.entries.length ≤ S.retainedRequests
  /-- No expectation is disappointed. -/
  expected : s.failed = false

theorem issued_keys_stay_valid {tr : History P} (h : Serves S tr s) : KeysValid S tr s := by
  have hs := keyed_run h
  refine ⟨?_, ?_, ?_, hs.short, hs.sound⟩
  · intro i row q hq hkey
    obtain ⟨k, hk, hq⟩ := of_occupant hq
    cases hid : q.custody.identity with
    | unassigned => simp [hid, Identity.key] at hkey
    | canonical =>
      simp only [hid, Identity.key, Option.some.injEq] at hkey
      subst hkey
      exact (hs.issued_canonical hq hid).occupied
    | duplicate =>
      simp only [hid, Identity.key, Option.some.injEq] at hkey
      subst hkey
      exact (hs.known hq hid).occupied
  · intro i j row row' q r hne hq hr hrow hrow' heq
    obtain ⟨k, hk, hqk⟩ := of_occupant hq
    obtain ⟨u, hu, hru⟩ := of_occupant hr
    obtain ⟨_, hq', hi⟩ := hs.seated hk
    obtain ⟨_, hr', hj⟩ := hs.seated hu
    cases hqk.symm.trans hq'
    cases hru.symm.trans hr'
    apply hne
    calc i = q.row := hi.symm
      _ = row := (hs.own hqk hrow).symm
      _ = row' := heq
      _ = r.row := hs.own hru hrow'
      _ = j := hj
  · intro t ht i q hq hkeyed
    obtain ⟨k, hk, hq⟩ := of_occupant hq
    obtain ⟨pre, post, rfl⟩ := append_of_mem ht
    obtain ⟨u, hpre, hpost⟩ := h.split
    obtain ⟨hu, -, -⟩ := hpost.uncons
    rw [hu] at hk hq ⊢
    obtain ⟨hentry, q', hq', hrests⟩ := (keyed_run hpre).keeps_run hpost hk hq hkeyed
    exact ⟨k, q', hk, hentry, hq', hrests.identity⟩

/-- Policies with nothing to them: receipts are of the same request if they are equal. -/
abbrev plain : Policies where
  Bytes := ℕ
  Receipt := ℕ
  Input := Unit
  Message := Unit
  Answer := Unit
  Report := Unit
  JsonError := Unit
  VerificationError := Unit
  DecodingError := Unit
  EncodingError := Unit
  ProtectionError := Unit
  RequestError := Unit
  ReplyError := Unit
  EndpointError := Unit
  ShutdownRejection := Unit
  bytesEq := inferInstance
  sameRequest a b := a == b

def granted (sending : Sending) : Answers plain where
  permission := .ok ()
  reply := .ok ()
  decoded := .ok ()
  accepts _ := true
  endpoint := .ok ()
  message := ()
  again := .ok ()
  sending := sending
  stopping := .ok ()

/-- A request arrives, and its verification returns a receipt. -/
def verifiedArrival (k bytes receipt : ℕ) (sending : Sending) : List (Op plain) :=
  [.arrive (bytes, 0) true, .run k (.begins (.ok ()) false),
    .run k (.verified (.returned (.ok receipt)) false (granted sending))]

/-- A request is refused, and its row is used again. -/
def recycledRow : List (Op plain) :=
  verifiedArrival 0 1 7 .accepted ++
    [.arrive (2, 0) true, .run 1 (.begins (.error ()) false), .run 1 .release,
      .publish (fun _ => .ok ()) (fun _ => true), .discharge] ++
    verifiedArrival 2 1 7 .accepted

def twoRows : Setting := ⟨.reply, 2, .discharge, false⟩

theorem issued_keys_stay_valid_recycled : ∃ (tr : History plain) (s : Serving plain),
    Serves twoRows tr s ∧ s.entries = [some 0, some 2] ∧
    s.requests.map (·.custody.identity) = [.canonical 0, .unassigned, .duplicate 0] ∧
    KeysValid twoRows tr s := by
  have hexec : (exec (Serving.step twoRows) new recycledRow).map (fun r =>
      (r.2.entries, r.2.requests.map (·.custody.identity))) =
      some ([some 0, some 2], [.canonical 0, .unassigned, .duplicate 0]) := by decide +kernel
  obtain ⟨⟨tr, s⟩, hrun, hs⟩ := Option.map_eq_some_iff.mp hexec
  obtain ⟨hentries, hidentities⟩ := Prod.mk.inj hs
  exact ⟨tr, s, exec_run hrun, hentries, hidentities, issued_keys_stay_valid (exec_run hrun)⟩

end Export
