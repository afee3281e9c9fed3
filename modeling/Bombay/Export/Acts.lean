import Bombay.Export.Serving
import Bombay.Machine.Pool

/-!
# What a step of an export can do

The sections of an operation have many exits, but few of them matter to the identities, the rows and
the calls on the actor.  `Acts` is the list of those that do, with a single rule for all that leave
them alone, and `Steps` is the same for the export.  Every invariant is proved along these two.
-/

set_option autoImplicit false

namespace Export

open Machine List Option Serving

variable {P : Policies} {S : Setting} {s s' : Serving P} {k : ℕ} {q q' : Request P} {i : Input P}

/-- The operation has still to return. -/
@[simp] def Place.running : Place → Prop
  | finished | released => False
  | _ => True

/-- Neither the identity nor what it rests on changes. -/
structure Rests (c c' : Custody P) : Prop where
  identity : c'.identity = c.identity
  original : c'.original = c.original
  verified : c'.verified = c.verified

theorem Rests.refl (c : Custody P) : Rests c c := ⟨rfl, rfl, rfl⟩

theorem Rests.trans {a b c : Custody P} (h : Rests a b) (h' : Rests b c) : Rests a c :=
  ⟨h'.identity.trans h.identity, h'.original.trans h.original, h'.verified.trans h.verified⟩

/-- The calls of an attempt: a message is built at most once, and a stop has none. -/
def attemptCalls (n : Native P) (sending : Sending) : List NativeCall :=
  (if n.unbuilt then [.construct] else []) ++ [if n.stops then .shutdown else .trySend sending]

/-! ## One section -/

/-- What the settling of a verified request can do. -/
inductive Settles (s : Serving P) (q : Request P) (receipt : P.Receipt) : Outcome P → Prop
  | ends {c : Custody P} (hrests : Rests q.custody c) : Settles s q receipt (.goes (q.finish c))
  | lost {row : ℕ} (hfound : s.canonical receipt = some row) (hvacant : s.occupant row = none) :
      Settles s q receipt .fails
  | duplicates {row : ℕ} (hfound : s.canonical receipt = some row) :
      Settles s q receipt (.goes (q.finish { q.custody with identity := .duplicate row }))
  /-- The message is built, and then the permission is withdrawn. -/
  | withdraws {c : Custody P} (hnew : s.canonical receipt = none)
      (hrests : Rests { q.custody with identity := .canonical q.row } c) :
      Settles s q receipt (.goes ({ q with calls := q.calls ++ [NativeCall.construct] }.finish c))
  | attempts {c : Custody P} {n n' : Native P} {sending : Sending} {calls : List NativeCall}
      (hnew : s.canonical receipt = none) (hunbuilt : n.unbuilt = !n.stops)
      (hrests : Rests { q.custody with identity := .canonical q.row } c)
      (hnative : c.native = some n') (hbuilt : n'.unbuilt = false) (hstops : n'.stops = n.stops)
      (hfull : n'.isFull = (!n.stops && sending == .full))
      (hcalls : calls = q.calls ++ attemptCalls n sending) :
      Settles s q receipt (.goes { q with custody := c, calls := calls, place := .sent })

/-- What a section can do. -/
inductive Acts (s : Serving P) (k : ℕ) (q : Request P) : Outcome P → Prop
  | lost (hplace : q.place = .start) (hrow : s.entries[q.row]? ≠ some (some k)) : Acts s k q .fails
  | starts (hplace : q.place = .start) : Acts s k q (.goes { q with place := .verifying })
  /-- The operation returns.  Only a verification can have changed the receipt. -/
  | ends {c : Custody P} (hplace : q.place.running) (hidentity : c.identity = q.custody.identity)
      (horiginal : c.original = q.custody.original)
      (hverified : q.place ≠ .verifying → c.verified = q.custody.verified) :
      Acts s k q (.goes (q.finish c))
  | settles {c : Custody P} {receipt : P.Receipt} {o : Outcome P} (hplace : q.place = .verifying)
      (hidentity : c.identity = q.custody.identity) (horiginal : c.original = q.custody.original)
      (hverified : c.verified = some (.ok receipt))
      (hsettles : Settles s { q with custody := c } receipt o) : Acts s k q o
  | waits {n : Native P} (hplace : q.place = .sent) (hnative : q.custody.native = some n)
      (hfull : n.isFull) : Acts s k q (.goes { q with place := .waiting })
  /-- After the last attempt the operation only receives, replies and protects. -/
  | proceeds {c : Custody P} {place : Place} (hbefore : q.place = .sent ∨ q.place = .receiving ∨
        q.place = .replying) (hafter : place = .receiving ∨ place = .replying ∨ place = .protecting)
      (hrests : Rests q.custody c) : Acts s k q (.goes { q with custody := c, place := place })
  /-- The message is built for another attempt, and then the permission is withdrawn. -/
  | withdraws {c : Custody P} {n : Native P} (hplace : q.place = .waiting)
      (hnative : q.custody.native = some n) (hrests : Rests q.custody c) :
      Acts s k q (.goes ({ q with
        calls := q.calls ++ if n.unbuilt then [NativeCall.construct] else [] }.finish c))
  | retries {c : Custody P} {n n' : Native P} {sending : Sending} {calls : List NativeCall}
      (hplace : q.place = .waiting) (hnative : q.custody.native = some n)
        (hrests : Rests q.custody c)
      (hnext : c.native = some n') (hbuilt : n'.unbuilt = false) (hstops : n'.stops = n.stops)
      (hfull : n'.isFull = (!n.stops && sending == .full))
      (hcalls : calls = q.calls ++ attemptCalls n sending) :
      Acts s k q (.goes { q with custody := c, calls := calls, place := .sent })
  | releases (hplace : q.place = .finished) : Acts s k q (.goes { q with place := .released })

theorem attempted {n m : Native P} {authority built : Bool} {message : P.Message}
    (sending : Sending) (stopping : Except P.ShutdownRejection Unit)
    (h : n.prepareAttempt authority message = .ok (some (m, built))) :
    built = n.unbuilt ∧ ∃ n' call, m.attempt sending stopping = some (n', call) ∧
      n'.unbuilt = false ∧ n'.stops = n.stops ∧ n'.isFull = (!n.stops && sending == .full) ∧
      call = if n.stops then .shutdown else .trySend sending := by
  obtain ⟨hbuilt, -, hstops, hattempt⟩ := Native.prepareAttempt_spec h
  obtain ⟨⟨n', call⟩, hsome⟩ := isSome_iff_exists.mp (hattempt sending stopping)
  obtain ⟨hunb, hstops', hcall, hfull⟩ := Native.attempt_spec hsome
  rw [hstops] at hcall hfull hstops'
  exact ⟨hbuilt, n', call, hsome, hunb, hstops', hfull, hcall⟩

theorem settles_of_settle (q : Request P) (receipt : P.Receipt) (a : Answers P) :
    Settles s q receipt (s.settle S q receipt a) := by
  unfold settle
  dsimp only
  split
  · exact .ends ⟨rfl, rfl, rfl⟩
  · split
    · next row hfound =>
      split
      · next hvacant => exact .lost hfound hvacant
      · split
        · exact .ends ⟨rfl, rfl, rfl⟩
        · split
          · exact .ends ⟨rfl, rfl, rfl⟩
          · exact .duplicates hfound
    · next hnew =>
      split
      · exact .ends ⟨rfl, rfl, rfl⟩
      · split
        · exact .ends ⟨rfl, rfl, rfl⟩
        · next selected hselect =>
          split
          · exact .ends ⟨rfl, rfl, rfl⟩
          · split
            · exact .ends ⟨rfl, rfl, rfl⟩
            · exact .ends ⟨rfl, rfl, rfl⟩
            · next m built hprepare =>
              obtain ⟨hbuilt, n', call, hattempt, hdone, hstops, hfull, hcall⟩ :=
                attempted a.sending a.stopping hprepare
              have hunb : (selected.prepare a.endpoint).unbuilt =
                  !(selected.prepare a.endpoint).stops := by
                simpa using Declarations.select_unbuilt hselect
              split
              · -- a stop has not become canonical yet
                cases built with
                | true => exact .withdraws hnew ⟨rfl, rfl, rfl⟩
                | false =>
                  simp only [Bool.false_eq_true, if_false, append_nil]
                  exact .ends ⟨rfl, rfl, rfl⟩
              · rw [hattempt]
                refine .attempts hnew hunb ⟨?_, rfl, rfl⟩ rfl hdone hstops hfull ?_
                · cases hs : (selected.prepare a.endpoint).stops <;> simp [hcall, hbuilt, hunb, hs]
                · simp [attemptCalls, hcall, hbuilt]

theorem verification_rests (c : Custody P)
    (outcome : Provided (Except P.VerificationError P.Receipt)) (disposalPanics : Bool) :
    (verification c outcome disposalPanics).identity = c.identity ∧
      (verification c outcome disposalPanics).original = c.original := by
  cases outcome <;> exact ⟨rfl, rfl⟩

theorem protection_rests (c : Custody P) (outcome : Provided (Except P.ProtectionError P.Bytes))
    (disposalPanics : Bool) : Rests c (protection c outcome disposalPanics) := by
  cases outcome <;> exact ⟨rfl, rfl, rfl⟩

theorem acts_of_retry {permission} {message : P.Message}
    {sending : Sending} {stopping} (hplace : q.place = .waiting) :
    Acts s k q (retry S q permission message sending stopping) := by
  have hrunning : q.place.running := by simp [hplace]
  unfold retry
  dsimp only
  split
  · exact .ends hrunning rfl rfl fun _ => rfl
  · next n hnative =>
    split
    · exact .ends hrunning rfl rfl fun _ => rfl
    · exact .ends hrunning rfl rfl fun _ => rfl
    · next m built hprepare =>
      obtain ⟨hbuilt, n', call, hattempt, hdone, hstops, hfull, hcall⟩ :=
        attempted sending stopping hprepare
      subst hbuilt
      split
      · exact .withdraws hplace hnative ⟨rfl, rfl, rfl⟩
      · rw [hattempt]
        exact .retries hplace hnative ⟨rfl, rfl, rfl⟩ rfl hdone hstops hfull
          (by simp [attemptCalls, hcall])

theorem acts_of_act {o : Outcome P} (h : s.act S k q i = some o) : Acts s k q o := by
  unfold act at h
  dsimp only at h
  split at h
  · next hplace =>
    split at h
    · next hrow =>
      split at h
      · cases h
        exact .ends (by simp [hplace]) rfl rfl fun _ => rfl
      · split at h
        · cases h
          exact .ends (by simp [hplace]) rfl rfl fun _ => rfl
        · cases h
          exact .starts hplace
    · next hrow =>
      cases h
      exact .lost hplace hrow
  · next outcome disposalPanics answers hplace =>
    obtain ⟨hid, horig⟩ := verification_rests q.custody outcome disposalPanics
    have hrunning : q.place.running := by simp [hplace]
    split at h
    · cases h
      exact .ends hrunning hid horig fun hne => absurd hplace hne
    · split at h
      · next receipt hver =>
        cases h
        exact .settles hplace hid horig hver (settles_of_settle _ _ _)
      · cases h
        exact .ends hrunning hid horig fun hne => absurd hplace hne
  · next hplace =>
    split at h
    · cases h
      exact .ends (by simp [hplace]) rfl rfl fun _ => rfl
    · next n hnative =>
      split at h
      · next hfull =>
        cases h
        exact .waits hplace hnative hfull
      · split at h
        · cases h
          exact .proceeds (.inl hplace) (.inl rfl) (.refl _)
        · cases h
          exact .proceeds (.inl hplace) (.inr (.inl rfl)) (.refl _)
  · next hplace =>
    cases h
    exact .ends (by simp [hplace]) rfl rfl fun _ => rfl
  · next hplace =>
    cases h
    exact acts_of_retry hplace
  · next hplace =>
    cases h
    exact .proceeds (.inr (.inl hplace)) (.inr (.inl rfl)) ⟨rfl, rfl, rfl⟩
  · next permission encoded factoryPanics hplace =>
    have hrunning : q.place.running := by simp [hplace]
    split at h
    · cases h
      exact .ends hrunning rfl rfl fun _ => rfl
    · have hrests : Rests q.custody (if (q.custody.native.map Native.encodes).getD false then
          { q.custody with encoding := some encoded } else q.custody) := by
        split <;> exact ⟨rfl, rfl, rfl⟩
      split at h
      · split at h
        · cases h
          exact .ends hrunning hrests.identity hrests.original fun _ => hrests.verified
        · cases h
          exact .proceeds (.inr (.inr hplace)) (.inr (.inr rfl)) hrests
      · cases h
        exact .ends hrunning hrests.identity hrests.original fun _ => hrests.verified
  · next outcome disposalPanics hplace =>
    have hrests := protection_rests q.custody outcome disposalPanics
    cases h
    exact .ends (by simp [hplace]) hrests.identity hrests.original fun _ => hrests.verified
  · next hplace =>
    cases h
    exact .releases hplace
  · cases h

/-! ## One step -/

inductive Steps (S : Setting) (s : Serving P) : Op P → Serving P → Prop
  /-- A query is discarded. -/
  | stays (original : P.Bytes × P.Bytes) (fits : Bool) : Steps S s (.arrive original fits) s
  /-- A new request takes a row that nobody has. -/
  | seats {original : P.Bytes × P.Bytes} {row : ℕ} {entries : List (Option ℕ)}
      (hentries : ∀ i : ℕ, entries[i]? =
        if i = row then some (some s.requests.length) else s.entries[i]?)
      (hvacant : ∀ k, s.entries[row]? ≠ some (some k))
      (hlength : s.entries.length ≤ S.retainedRequests → entries.length ≤ S.retainedRequests) :
      Steps S s (.arrive original true) { s with
        entries := entries, requests := s.requests ++ [⟨row, .start, .new original, []⟩] }
  | acts {k : ℕ} {i : Input P} {q q' : Request P} (hq : s.requests[k]? = some q)
      (hact : s.act S k q i = some (.goes q')) :
      Steps S s (.run k i) { s with requests := s.requests.set k q' }
  | fails {k : ℕ} {i : Input P} {q : Request P} (hq : s.requests[k]? = some q)
      (hact : s.act S k q i = some .fails) : Steps S s (.run k i) { s with failed := true }
  | publishes {permission : ℕ → Except P.ReplyError Unit} {accepted : ℕ → Bool} :
      Steps S s (.publish permission accepted) (s.publish permission accepted)
  | discharges : Steps S s .discharge (s.discharge S)

theorem steps_of_arrive (original : P.Bytes × P.Bytes) (fits : Bool) :
    Steps S s (.arrive original fits) (s.arrive S original fits) := by
  unfold arrive
  dsimp only
  split
  · next row hrow =>
    obtain ⟨hlt, hnone, -⟩ := findIdx?_eq_some_iff_getElem.mp hrow
    have hget : s.entries[row]? = some none := by
      rw [getElem?_eq_getElem hlt, isNone_iff_eq_none.mp hnone]
    split
    · next hfits =>
      subst hfits
      refine .seats (fun i => ?_) (fun k h => ?_) fun h => ?_
      · rcases Decidable.eq_or_ne i row with rfl | hne
        · rw [getElem?_set_self hlt, if_pos rfl]
        · rw [getElem?_set_ne hne.symm, if_neg hne]
      · rw [hget] at h
        cases h
      · rwa [length_set]
    · exact .stays _ _
  · split
    · exact .stays _ _
    · next hlength =>
      split
      · next hfits =>
        subst hfits
        refine .seats (fun i => ?_) (fun k h => ?_) fun h => ?_
        · rw [getElem?_append]
          split
          · next hi => rw [if_neg (Nat.ne_of_lt hi)]
          · next hi =>
            split
            · next heq => simp [heq]
            · next hne =>
              rw [getElem?_eq_none (by simp; omega), getElem?_eq_none (by omega)]
        · rw [getElem?_eq_none (Nat.le_refl _)] at h
          cases h
        · rw [length_append, length_singleton]
          omega
      · exact .stays _ _

theorem steps_of_step {op : Op P} (h : s.step S op = some s') : Steps S s op s' := by
  unfold Serving.step at h
  split at h
  · cases h
  · split at h
    · next original fits =>
      cases h
      exact steps_of_arrive original fits
    · next k i =>
      split at h
      · cases h
      · next q hq =>
        split at h
        · cases h
        · next q' hact =>
          cases h
          exact .acts hq hact
        · next hact =>
          cases h
          exact .fails hq hact
    · cases h
      exact .publishes
    · cases h
      exact .discharges

/-! ### Publishing -/

section Publishing

variable {permission : ℕ → Except P.ReplyError Unit} {accepted : ℕ → Bool}

/-- Publishing answers the queries of completed requests, and changes nothing else. -/
structure Answered (q q' : Request P) : Prop where
  request : q' = { q with custody := q'.custody }
  rests : Rests q.custody q'.custody
  native : q'.custody.native = q.custody.native
  pending : q.custody.completed = false → q' = q

theorem Answered.refl (q : Request P) : Answered q q := ⟨rfl, .refl _, rfl, fun _ => rfl⟩

theorem answered_reply {permission} {accepted : Bool}
    {original : Custody P} (h : q.custody.completed) :
    Answered q (publishRow.reply q permission accepted original q.custody) := by
  have hdone (q' : Request P) : q.custody.completed = false → q' = q := fun hfalse => by
    rw [hfalse] at h
    cases h
  unfold publishRow.reply
  split
  · split
    · split
      all_goals exact ⟨rfl, ⟨rfl, rfl, rfl⟩, rfl, hdone _⟩
    · exact ⟨rfl, ⟨rfl, rfl, rfl⟩, rfl, hdone _⟩
  · exact .refl q

theorem publishRow_answered {permission} {accepted : Bool}
    (h : s.publishRow q permission accepted = some q') : Answered q q' := by
  unfold publishRow at h
  dsimp only at h
  split at h
  · next hdone =>
    have hcompleted : q.custody.completed := (Bool.and_eq_true_iff.mp hdone).1
    split at h
    · cases h
      refine ⟨rfl, ⟨rfl, rfl, rfl⟩, rfl, fun hfalse => ?_⟩
      rw [hfalse] at hcompleted
      cases hcompleted
    · cases h
      exact answered_reply hcompleted
    · obtain ⟨original, -, rfl⟩ := map_eq_some_iff.mp h
      exact answered_reply hcompleted
  · cases h
    exact .refl q

theorem publishRow_none {permission} {accepted : Bool}
    (h : s.publishRow q permission accepted = none) :
    ∃ row, q.custody.identity = .duplicate row ∧ s.occupant row = none := by
  unfold publishRow at h
  dsimp only at h
  split at h
  · split at h
    · cases h
    · cases h
    · next row hid => exact ⟨row, hid, map_eq_none_iff.mp h⟩
  · cases h

variable (permission accepted) in
theorem publish_get (hq : s.requests[k]? = some q) :
    ∃ q', (s.publish permission accepted).requests[k]? = some q' ∧ Answered q q' := by
  simp only [publish, getElem?_mapIdx, hq, map_some, some.injEq,
    exists_eq_left']
  split
  · cases hrow : s.publishRow q (permission k) (accepted k) with
    | none => exact .refl q
    | some => exact publishRow_answered hrow
  · exact .refl q

theorem of_publish_get (hq : (s.publish permission accepted).requests[k]? = some q') :
    ∃ q, s.requests[k]? = some q ∧ Answered q q' := by
  cases hold : s.requests[k]? with
  | none => simp [publish, getElem?_mapIdx, hold] at hq
  | some q =>
    obtain ⟨q'', hq'', hans⟩ := publish_get permission accepted hold
    cases hq.symm.trans hq''
    exact ⟨q, rfl, hans⟩

end Publishing

/-! ### Discharging -/

theorem of_discharge_get {j : ℕ} (h : (s.discharge S).entries[j]? = some (some k)) :
    s.entries[j]? = some (some k) := by
  unfold discharge at h
  split at h
  · exact h
  · simp only [getElem?_map, map_eq_some_iff] at h
    obtain ⟨e, he, hk⟩ := h
    split at hk
    · cases hk
    · split at hk
      · cases hk
      · rw [he, hk]

theorem discharge_get {j : ℕ} (h : s.entries[j]? = some (some k)) (hq : s.requests[k]? = some q)
    (hkeeps : q.place ≠ .released ∨ q.custody.identity ≠ .unassigned) :
    (s.discharge S).entries[j]? = some (some k) := by
  unfold discharge
  split
  · exact h
  · have hnot : dischargeable q = false := by
      rcases hkeeps with hkeeps | hkeeps <;> simp [dischargeable, hkeeps]
    simp [h, hq, hnot]

theorem discharge_requests : (s.discharge S).requests = s.requests := by
  unfold discharge
  split <;> rfl

theorem discharge_failed : (s.discharge S).failed = s.failed := by
  unfold discharge
  split <;> rfl

theorem discharge_length : (s.discharge S).entries.length = s.entries.length := by
  unfold discharge
  split
  · rfl
  · exact length_map _

end Export
