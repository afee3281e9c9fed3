import Bombay.Machine.Fairness
import Bombay.Machine.Run
import Bombay.Local.Ingress

/-!
# Which source the next event comes from

`ActiveLocalEnvironment::next` acquires an event from the mailbox, from the local source or from the
timers, and `next_source` from the control lane of the mailbox or from the local source.  The local
source is itself a choice between an observation that completed and a startup task.  Three cursors
say who is asked first; each moves only when something was acquired.

A call holds nothing across its awaits, so a call that is dropped and repeated is a call that is
polled once more: one step here is one poll of one round of the loop in a call.  What the sources
answer is arbitrary.  The local source goes round a loop of its own within a poll: an observed
stop of a child is sent to the control lane, and the source is asked again.

The history of a state says which sources were acquired, what was taken out of them and what was
returned to the driver.
-/

set_option autoImplicit false

namespace Local.Acquisition

open Machine List

variable {E R F : Type}

/-! ## The sources -/

/-- The two local sources. -/
inductive LocalSource
  | observation
  | startup
  deriving DecidableEq

/-- The order of the two `select!`. -/
def LocalSource.order : LocalSource → List LocalSource
  | observation => [observation, startup]
  | startup => [startup, observation]

/-- A stop, of a peer or of a child. -/
inductive TerminationEvent (E : Type)
  | peer (event : E)
  | child (event : E)

/-- What the two local sources answer to one poll, if they are ready. -/
structure Round (E F : Type) where
  observation : Option (TerminationEvent E)
  startup : Option (Except F E)

/-- What one of them answers. -/
inductive Inner (E F : Type)
  | observation (event : TerminationEvent E)
  | startup (result : Except F E)

/-- What a local source answers. -/
def Round.answer (r : Round E F) : LocalSource → Option (Inner E F)
  | .observation => r.observation.map .observation
  | .startup => r.startup.map .startup

/-- What the mailbox gives, if it is ready: the next control event, a user item with the event it is
turned into, or news of its lanes. -/
inductive Receipt (E : Type)
  | control
  | user (event : Option E)
  | userLaneClosed
  | closed

/-- What the sources answer to one poll. -/
structure Answers (E R F : Type) where
  cancellation : Option (Option R)
  mailbox : Option (Receipt E)
  /-- The rounds of the local source within the poll; after them it is pending. -/
  rounds : List (Round E F)
  /-- The deadline is over; what `pop_due` finds. -/
  deadline : Option (Option E)

/-- The cursors, the control lane, and the history. -/
structure Environment (E : Type) where
  nextEventSource : EventSource
  nextSettlementSource : SettlementSource
  nextLocalSource : LocalSource
  control : List E
  controlOpen : Bool
  taken : List E
  returned : List E
  acquired : List EventSource
  locals : List LocalSource

/-- What a poll ends with. -/
inductive Outcome (E R F : Type)
  | pending
  /-- The loop goes on. -/
  | again
  | event (event : E)
  /-- The mailbox is closed. -/
  | exhausted
  | cancelled (request : R)
  | capabilityFailed (failure : F)

namespace Environment

/-- The cursors of a new environment. -/
def new : Environment E where
  nextEventSource := .mailbox
  nextSettlementSource := .control
  nextLocalSource := .observation
  control := []
  controlOpen := true
  taken := []
  returned := []
  acquired := []
  locals := []

variable (s : Environment E)

/-- An event is taken out of a source. -/
def take (event : E) : Environment E := { s with taken := s.taken ++ [event] }

/-- An event is returned to the driver. -/
def give (event : E) : Environment E × Outcome E R F :=
  ({ s with returned := s.returned ++ [event] }, .event event)

/-- `next` acquires something, and the next source in turn is asked first. -/
def acquire (source next : EventSource) : Environment E :=
  { s with nextEventSource := next, acquired := s.acquired ++ [source] }

/-- The local sources, asked in turn. -/
def nextLocalEvent (s : Environment E) : List (Round E F) → Environment E × Option (Except F E)
  | [] => (s, none)
  | r :: rounds =>
    match s.nextLocalSource.order.findSome? r.answer with
    | none => (s, none)
    | some (.observation o) =>
      let s :=
        { s with nextLocalSource := .startup, locals := s.locals ++ [LocalSource.observation] }
      match o with
      | .peer event => (s.take event, some (.ok event))
      | .child event =>
        if s.controlOpen then
          { s.take event with control := s.control ++ [event] }.nextLocalEvent rounds
        else (s.take event, some (.ok event))
    | some (.startup result) =>
      let s :=
        { s with nextLocalSource := .observation, locals := s.locals ++ [LocalSource.startup] }
      match result with
      | .ok event => (s.take event, some (.ok event))
      | .error failure => (s, some (.error failure))

/-- The mailbox is polled by `next`. -/
def recv : Option (Receipt E) → Option (Environment E × Outcome E R F)
  | none => none
  | some .closed => some (s, .exhausted)
  | some .control =>
    match s.control with
    | [] => none
    | event :: control =>
      some (({ s with control := control }.acquire .mailbox .localEvent).give event)
  | some (.user (some event)) => some (((s.take event).acquire .mailbox .localEvent).give event)
  | some (.user none) | some .userLaneClosed => some (s.acquire .mailbox .localEvent, .again)

/-- The sources are polled in their order. -/
def poll (a : Answers E R F) : List EventSource → Environment E → Environment E × Outcome E R F
  | [], s => (s, .pending)
  | .mailbox :: rest, s =>
    match s.recv a.mailbox with
    | some result => result
    | none => poll a rest s
  | .localEvent :: rest, s =>
    match s.nextLocalEvent a.rounds with
    | (s, none) => poll a rest s
    | (s, some (.ok event)) => (s.acquire .localEvent .timer).give event
    | (s, some (.error failure)) => (s, .capabilityFailed failure)
  | .timer :: rest, s =>
    match a.deadline with
    | none => poll a rest s
    | some (some event) => ((s.take event).acquire .timer .mailbox).give event
    | some none => (s, .again)

/-- One poll of `next`. -/
def next (a : Answers E R F) : Environment E × Outcome E R F :=
  match a.cancellation with
  | some (some request) => (s, .cancelled request)
  | some none => (s, .again)
  | none => poll a s.nextEventSource.order s

/-- The sources of a settlement are polled in their order.  `recv_source` reads the control lane. -/
def pollSource (a : Answers E R F) :
    List SettlementSource → Environment E → Environment E × Outcome E R F
  | [], s => (s, .pending)
  | .control :: rest, s =>
    match a.mailbox, s.control with
    | some .control, event :: control =>
      { s with control := control, nextSettlementSource := .localEvent }.give event
    | some .closed, _ => ({ s with nextSettlementSource := .localEvent }, .exhausted)
    | _, _ => pollSource a rest s
  | .localEvent :: rest, s =>
    match s.nextLocalEvent a.rounds with
    | (s, none) => pollSource a rest s
    | (s, some (.ok event)) => { s with nextSettlementSource := .control }.give event
    | (s, some (.error failure)) =>
      ({ s with nextSettlementSource := .control }, .capabilityFailed failure)

/-- One poll of `next_source`. -/
def nextSource (a : Answers E R F) : Environment E × Outcome E R F :=
  match a.cancellation with
  | some (some request) => (s, .cancelled request)
  | some none => (s, .again)
  | none => pollSource a s.nextSettlementSource.order s

end Environment

/-- The operations that acquire. -/
inductive Op (E R F : Type)
  | next (a : Answers E R F)
  | nextSource (a : Answers E R F)
  /-- Somebody else sends a control event. -/
  | send (event : E)
  | closeControl

/-- One operation. -/
def step (s : Environment E) : Op E R F → Option (Environment E)
  | .next a => some (s.next a).1
  | .nextSource a => some (s.nextSource a).1
  | .send event =>
    if s.controlOpen then some { s.take event with control := s.control ++ [event] } else none
  | .closeControl => some { s with controlOpen := false }

/-! ## What polls keep -/

section Kept

/-- A property of the state beside what the local source answered. -/
def Holds (P : Environment E → Prop) (Q : Environment E → E → Prop) (s : Environment E) :
    Option (Except F E) → Prop
  | some (.ok event) => Q s event
  | _ => P s

/-- What every poll keeps: `P` between the sources, and `Q` while the poll holds an event.  Neither
depends on who is asked first for a settlement. -/
structure Kept (P : Environment E → Prop) (Q : Environment E → E → Prop)
    (rounds : List (Round E F)) :
    Prop where
  source : ∀ s, P s → Holds P Q (s.nextLocalEvent rounds).1 (s.nextLocalEvent rounds).2
  take : ∀ s event, P s → Q (s.take event) event
  pop : ∀ s event control, P s → s.control = event :: control →
    Q { s with control := control } event
  give : ∀ s event, Q s event → P { s with returned := s.returned ++ [event] }
  settle : ∀ s c, P s → P { s with nextSettlementSource := c }
  settleWith : ∀ s c event, Q s event → Q { s with nextSettlementSource := c } event

variable {P : Environment E → Prop} {Q : Environment E → E → Prop}

theorem Kept.poll {a : Answers E R F} (h : Kept P Q a.rounds)
    (hp : ∀ s x y, P s → P (s.acquire x y))
    (hq : ∀ s x y event, Q s event → Q (s.acquire x y) event) (sources : List EventSource) :
    ∀ {s : Environment E}, P s → P (Environment.poll a sources s).1 := by
  induction sources with
  | nil => exact fun h => h
  | cons source _ ih =>
    intro s hs
    cases source with
    | mailbox =>
      rw [Environment.poll]
      split
      · next p hrecv =>
        rw [Environment.recv.eq_def] at hrecv
        split at hrecv
        · cases hrecv
        · cases hrecv
          exact hs
        · split at hrecv
          · cases hrecv
          · next event control hc =>
            cases hrecv
            exact h.give _ _ (hq _ _ _ _ (h.pop s event control hs hc))
        · cases hrecv
          exact h.give _ _ (hq _ _ _ _ (h.take s _ hs))
        all_goals
          cases hrecv
          exact hp _ _ _ hs
      · exact ih hs
    | localEvent =>
      have hsource := h.source s hs
      rw [Environment.poll]
      split <;> rename_i hlocal <;> rw [hlocal] at hsource
      · exact ih hsource
      · exact h.give _ _ (hq _ _ _ _ hsource)
      · exact hsource
    | timer =>
      rw [Environment.poll]
      split
      · exact ih hs
      · exact h.give _ _ (hq _ _ _ _ (h.take s _ hs))
      · exact hs

theorem Kept.pollSource {a : Answers E R F} (h : Kept P Q a.rounds)
    (sources : List SettlementSource) :
    ∀ {s : Environment E}, P s → P (Environment.pollSource a sources s).1 := by
  induction sources with
  | nil => exact fun h => h
  | cons source _ ih =>
    intro s hs
    cases source with
    | control =>
      rw [Environment.pollSource]
      split
      · next event control _ hc =>
        exact h.give _ _ (h.settleWith _ .localEvent _ (h.pop s event control hs hc))
      · exact h.settle s .localEvent hs
      · exact ih hs
    | localEvent =>
      have hsource := h.source s hs
      rw [Environment.pollSource]
      split <;> rename_i hlocal <;> rw [hlocal] at hsource
      · exact ih hsource
      · exact h.give _ _ (h.settleWith _ .control _ hsource)
      · exact h.settle _ .control hsource

theorem Kept.nextSource {a : Answers E R F} (h : Kept P Q a.rounds) {s : Environment E} (hs : P s) :
    P (s.nextSource a).1 := by
  rw [Environment.nextSource]
  split
  · exact hs
  · exact hs
  · exact h.pollSource _ hs

theorem Kept.step {s t : Environment E} {op : Op E R F} (hs : P s)
    (h : ∀ a, op = .next a ∨ op = .nextSource a → Kept P Q a.rounds)
    (hp : ∀ s x y, P s → P (s.acquire x y))
    (hq : ∀ s x y event, Q s event → Q (s.acquire x y) event)
    (hsend : ∀ s event, P s → P { s.take event with control := s.control ++ [event] })
    (hclose : ∀ s, P s → P { s with controlOpen := false })
    (hstep : Acquisition.step s op = some t) : P t := by
  cases op with
  | next a =>
    cases hstep
    rw [Environment.next]
    split
    · exact hs
    · exact hs
    · exact (h a (.inl rfl)).poll hp hq _ hs
  | nextSource a =>
    cases hstep
    exact (h a (.inr rfl)).nextSource hs
  | send event =>
    rw [Acquisition.step] at hstep
    split at hstep
    · cases hstep
      exact hsend s event hs
    · cases hstep
  | closeControl =>
    cases hstep
    exact hclose s hs

end Kept

/-! ## No event is lost -/

section Conservation

variable {s : Environment E}

/-- What was taken was returned, or is in the control lane, or is `held` by the poll. -/
def Environment.Conserves (s : Environment E) (held : List E) : Prop :=
  s.taken.Perm (s.returned ++ s.control ++ held)

end Conservation

/-! ## The turns of the local sources -/

section Locals

variable {s : Environment E} {k : LocalSource} {before : List LocalSource}

/-- How many acquisitions `k` is away, with `cursor` asked first. -/
def LocalSource.lag (k cursor : LocalSource) : ℕ := if cursor = k then 0 else 1

theorem LocalSource.lag_le (k cursor : LocalSource) : k.lag cursor ≤ 1 := by
  rw [lag]
  split <;> decide

/-- Since the acquisitions `before`, `k` has waited for one at most. -/
def Environment.Alternates (k : LocalSource) (before : List LocalSource)
    (s : Environment E) : Prop :=
  ∃ l, s.locals = before ++ l ∧ Waits k 1 l (k.lag s.nextLocalSource)

theorem Environment.Alternates.turn {t : Environment E} {y c : LocalSource}
    (h : s.Alternates k before) (hne : y ≠ c) (hy : y = s.nextLocalSource ∨ y = k)
    (hl : t.locals = s.locals ++ [y] := by rfl) (hc : t.nextLocalSource = c := by rfl) :
    t.Alternates k before := by
  obtain ⟨l, hlocals, hw⟩ := h
  refine ⟨l ++ [y], by rw [hl, hlocals, append_assoc], ?_⟩
  by_cases hk : y = k
  · exact hk ▸ hw.served (LocalSource.lag_le _ _)
  · refine hw.other hk ?_
    obtain rfl := hy.resolve_right hk
    have hck : c = k := by
      revert hk hne
      cases k <;> cases c <;> cases s.nextLocalSource <;> simp
    rw [hc, LocalSource.lag, LocalSource.lag, if_pos hck, if_neg hk]
    exact Nat.one_pos

end Locals

/-! ## The turns of the three sources -/

section Sources

variable {s t : Environment E} {x : EventSource} {a : Answers E R F}

/-- The source that is asked first when `y` was acquired. -/
def following : EventSource → EventSource
  | .mailbox => .localEvent
  | .localEvent => .timer
  | .timer => .mailbox

/-- How many acquisitions `x` is away, with `cursor` asked first. -/
def lag (x cursor : EventSource) : ℕ := cursor.order.idxOf x

theorem lag_le (x cursor : EventSource) : lag x cursor ≤ 2 := by
  cases x <;> cases cursor <;> decide

/-- What the local source returns of an answer, if the answer is not sent to the control lane. -/
def Inner.result (controlOpen : Bool) : Inner E F → Option (Except F E)
  | .observation (.peer event) => some (.ok event)
  | .observation (.child event) => if controlOpen then none else some (.ok event)
  | .startup result => some result

/-- A poll acquired the source, if any. -/
structure Acquires (s t : Environment E) (source : Option EventSource) : Prop where
  acquired : t.acquired = s.acquired ++ source.toList
  cursor : t.nextEventSource = source.elim s.nextEventSource following
  controlOpen : t.controlOpen = s.controlOpen
  locals : s.locals <+: t.locals

theorem Acquires.refl (s : Environment E) : Acquires s s none :=
  ⟨(append_nil _).symm, rfl, rfl, prefix_rfl⟩

theorem Acquires.after {u} {o} (h : Acquires s t none) (h' : Acquires t u o) : Acquires s u o := by
  refine ⟨by rw [h'.acquired, h.acquired]; simp, ?_, h'.controlOpen.trans h.controlOpen,
    h.locals.trans h'.locals⟩
  rw [h'.cursor, h.cursor]
  rfl

/-- What `next` returns of what the local source returned. -/
def localOutcome : Except F E → Outcome E R F
  | .ok event => .event event
  | .error failure => .capabilityFailed failure

/-- What a poll of `next` ends with at the source that answers it, and whether that source is
acquired: the mailbox that is closed, the startup that failed and the deadline with nothing due are
not. -/
inductive Serves (controlOpen : Bool) (a : Answers E R F) :
    EventSource → Bool → Outcome E R F → Prop
  | control (event : E) (h : a.mailbox = some .control) :
      Serves controlOpen a .mailbox true (.event event)
  | user {event : E} (h : a.mailbox = some (.user (some event))) :
      Serves controlOpen a .mailbox true (.event event)
  | news (h : a.mailbox = some (.user none) ∨ a.mailbox = some .userLaneClosed) :
      Serves controlOpen a .mailbox true .again
  | closed (h : a.mailbox = some .closed) : Serves controlOpen a .mailbox false .exhausted
  | localEvent {r : Round E F} {k : LocalSource} {x : Inner E F} {result : Except F E}
      (hr : r ∈ a.rounds) (hx : r.answer k = some x) (h : x.result controlOpen = some result) :
      Serves controlOpen a .localEvent result.isOk (localOutcome result)
  | due {event : E} (h : a.deadline = some (some event)) :
      Serves controlOpen a .timer true (.event event)
  | early (h : a.deadline = some none) : Serves controlOpen a .timer false .again

end Sources

/-! ## Fair acquisition -/

end Local.Acquisition
