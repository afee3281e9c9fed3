import Bombay.Observe.Slot
import Mathlib.Data.List.AList

/-!
# The observation space

`ObservationSpace` keeps one subject per key, each with a slot of its own, and recycles the slots of
subjects that nobody observes any more.  The table and the pool are behind one lock, so each
operation on them is one step.  What a slot does between them is the machine of a single slot: a
subject and the observations of it are the threads of that machine, and they reach the slot through
an `Arc`.

A slot is an allocation, named by its position.  A generation is one subject with everybody who has
observed it; its first thread is the publisher.  The `owner` of a table entry is the generation it
was made for, which the code does not record: it is there to say what observing a key leads to.
-/

set_option autoImplicit false

namespace Observe

open Machine

variable {K W O : Type}

/-! ## Handles -/

/-- What has become of the `Arc` of a thread. -/
inductive Handle (O : Type)
  | held
  /-- `Subject::drop` has run, and the fields of the subject are still to be dropped. -/
  | retiring
  | released
  /-- `Observation::into_outcome` has consumed it, and has returned this. -/
  | unwrapped (outcome : Option O)
  /-- `Observation::into_outcome` has panicked. -/
  | failed

/-- The handle owns the slot. -/
def Handle.counts : Handle O → Bool
  | held | retiring => true
  | _ => false

/-- The handle is in use. -/
def Handle.isHeld : Handle O → Bool
  | held => true
  | _ => false

namespace Place

/-- An observation between two calls. -/
def observation : Place W O → Bool
  | thread _ | registered _ | observed => true
  | _ => false

/-- Where a handle may be dropped.  A future has left the registry by then. -/
def droppable : Place W O → Bool
  | thread _ | registered _ | observed | dropped => true
  | _ => false

/-- A subject between two calls. -/
def subject : Place W O → Bool
  | publisher | completed _ | completedTwice => true
  | _ => false

/-- Where an observation may be cloned: `wait` and `register_waker` only borrow it. -/
def cloneable : Place W O → Bool
  | entry (.wait _) | announce (.wait _) | lock (.wait _) | push _ | recheck (.wait _)
  | install (.wait _) | park _ | expire | entry (.register _) | announce (.register _)
  | lock (.register _) | recheck (.register _) | install (.register _) => true
  | p => p.observation

end Place

/-! ## The space -/

/-- A row of the key table. -/
structure SlotEntry where
  generation : ℕ
  slot : ℕ
  owner : ℕ

/-- A subject, its observers, and what they hold. -/
structure Generation (K W O : Type) where
  key : K
  generation : ℕ
  slot : ℕ
  places : List (Place W O)
  handles : List (Handle O)

namespace Generation

/-- The handles that count for the slot. -/
def strong (G : Generation K W O) : ℕ :=
  total (fun h : Handle O => if h.counts then 1 else 0) G.handles

/-- The generation after a section of one of its threads, or with one thread more. -/
def next (G : Generation K W O) (a : Schedule (Place W O) (Input W O)) (places : List (Place W O)) :
    Generation K W O :=
  match a with
  | .call _ => { G with places := places, handles := G.handles ++ [.held] }
  | .run .. => { G with places := places }

end Generation

variable [DecidableEq K]

/-- `Inner`, with the allocated slots and the generations that there have been. -/
structure Space (K W O : Type) [DecidableEq K] where
  nextGeneration : ℕ
  map : AList fun _ : K => SlotEntry
  pool : List ℕ
  slots : List (Slot W O)
  generations : List (Generation K W O)

/-- The empty space. -/
def Space.new : Space K W O where
  nextGeneration := 1
  map := ∅
  pool := []
  slots := []
  generations := []

/-- `SLOT_POOL_CAP`. -/
def slotPoolCap : ℕ := 128

/-- `usize::MAX`. -/
def usizeMax : ℕ := 2 ^ 64 - 1

/-- `Slot::reset`.  The names of the threads and the record of who was woken begin anew. -/
def Slot.reset (s : Slot W O) : Slot W O where
  completed := false
  hasWaiter := false
  outcomeValid := false
  outcome := if s.outcomeValid then none else s.outcome
  waiters := if s.hasWaiter then [] else s.waiters
  holder := s.holder
  tokens _ := false
  woken := []

namespace Space

variable (s : Space K W O)

/-- `Arc::strong_count` of a slot. -/
def strongCount (slot : ℕ) : ℕ :=
  s.pool.count slot + s.map.entries.countP (fun e => e.2.slot = slot) +
    total (fun G : Generation K W O => if G.slot = slot then G.strong else 0) s.generations

/-- The slot and the threads of a generation. -/
def view (g : ℕ) : Option (Pool (Slot W O) (Place W O)) :=
  match s.generations[g]? with
  | none => none
  | some G =>
    match s.slots[G.slot]? with
    | none => none
    | some slot => some ⟨slot, G.places⟩

/-- `SmallMap::insert_vacant`, and the subject that is returned. -/
def enroll (key : K) (generation slot : ℕ) : Space K W O :=
  { s with
    map := s.map.insert key ⟨generation, slot, s.generations.length⟩
    generations := s.generations ++ [⟨key, generation, slot, [.publisher], [.held]⟩] }

/-- `ObservationSpace::subject`.  The flag is a destructor that panics in `reset`: the lock is
released, and the slot that was taken from the pool is lost. -/
def subject (key : K) (panics : Bool) : Option (Space K W O) :=
  let pooled := s.pool.getLast?
  let popped := s.pool.dropLast
  if key ∈ s.map then some { s with pool := popped ++ pooled.toList }
  else
    let generation := s.nextGeneration
    let s := { s with pool := popped, nextGeneration := (generation + 1) % 2 ^ 64 }
    if generation = usizeMax then some s
    else
      match pooled with
      | none =>
        if panics then none
        else some ({ s with slots := s.slots ++ [Slot.new] }.enroll key generation s.slots.length)
      | some i =>
        match s.slots[i]? with
        | none => none
        | some slot =>
          if panics then
            if slot.outcomeValid || slot.hasWaiter then
              some { s with slots := s.slots.set i { slot with outcomeValid := false } }
            else none
          else some ({ s with slots := s.slots.set i slot.reset }.enroll key generation i)

variable [DecidableEq W]

/-- A thread of a generation runs a section on its slot, or an observation joins. -/
def run (g : ℕ) (a : Schedule (Place W O) (Input W O)) : Option (Space K W O) :=
  match s.generations[g]? with
  | none => none
  | some G =>
    match s.slots[G.slot]? with
    | none => none
    | some slot =>
      match step .shared ⟨slot, G.places⟩ a with
      | none => none
      | some w =>
        some { s with
          slots := s.slots.set G.slot w.shared
          generations := s.generations.set g (G.next a w.threads) }

omit [DecidableEq W] in
/-- A thread of a generation disposes of its handle. -/
def setHandle (g t : ℕ) (G : Generation K W O) (h : Handle O) : Space K W O :=
  { s with generations := s.generations.set g { G with handles := G.handles.set t h } }

/-- `Subject::drop`: the part under the lock. -/
def dropSubject (g : ℕ) (G : Generation K W O) : Space K W O :=
  match s.map.lookup G.key with
  | none => s.setHandle g 0 G .retiring
  | some entry =>
    if entry.generation = G.generation then
      let s := { s with map := s.map.erase G.key }
      if s.strongCount G.slot = 1 ∧ s.pool.length < slotPoolCap then
        { s with pool := s.pool ++ [G.slot] }.setHandle g 0 G .retiring
      else s.setHandle g 0 G .retiring
    else s.setHandle g 0 G .retiring

/-- `into_outcome`, which needs the last handle. -/
def intoOutcome (g t : ℕ) (G : Generation K W O) : Option (Space K W O) :=
  if s.strongCount G.slot = 1 then
    match s.slots[G.slot]? with
    | none => none
    | some slot =>
      let taken := { s with slots := s.slots.set G.slot { slot with outcomeValid := false } }
      if slot.completed then
        if slot.outcomeValid then some (taken.setHandle g t G (.unwrapped slot.outcome))
        else some (taken.setHandle g t G .failed)
      else some (s.setHandle g t G (.unwrapped none))
  else some (s.setHandle g t G (.unwrapped none))

end Space

/-! ## Operations -/

/-- The operations on a space and on the handles it has given out. -/
inductive Op (K W O : Type)
  | subject (key : K) (panics : Bool)
  /-- `ObservationSpace::observe`, and what the observation is for. -/
  | observe (key : K) (place : Place W O)
  | clone (g t : ℕ) (place : Place W O)
  /-- A section of a thread of a generation: `Subject::complete`, a poll, a wait, ... -/
  | act (g t : ℕ) (i : Input W O)
  | intoOutcome (g t : ℕ)
  /-- The drop of an observation, or of the fields of a subject. -/
  | drop (g t : ℕ)
  | dropSubject (g : ℕ)

namespace Op

/-- The operations that lead to a slot: the generation, and what happens there. -/
def schedule (s : Space K W O) : Op K W O → Option (ℕ × Schedule (Place W O) (Input W O))
  | observe key place =>
    match s.map.lookup key with
    | none => none
    | some entry => some (entry.owner, .call place)
  | clone g _ place => some (g, .call place)
  | act g t i => some (g, .run t i)
  | _ => none

end Op

variable [DecidableEq W]

/-- One operation.  It needs the handle it works with; a refused `observe` changes nothing. -/
def Space.step (s : Space K W O) (op : Op K W O) : Option (Space K W O) :=
  match op with
  | .subject key panics => s.subject key panics
  | .observe key place =>
    match s.map.lookup key with
    | none => some s
    | some entry => s.run entry.owner (.call place)
  | .clone g t place =>
    match s.generations[g]? with
    | none => none
    | some G =>
      if (G.handles[t]?.map Handle.isHeld).getD false ∧
          (G.places[t]?.map Place.cloneable).getD false
      then s.run g (.call place) else none
  | .act g t i =>
    match s.generations[g]? with
    | none => none
    | some G => if (G.handles[t]?.map Handle.isHeld).getD false then s.run g (.run t i) else none
  | .intoOutcome g t =>
    match s.generations[g]? with
    | none => none
    | some G =>
      if (G.handles[t]?.map Handle.isHeld).getD false ∧
          (G.places[t]?.map Place.observation).getD false
      then s.intoOutcome g t G else none
  | .drop g t =>
    match s.generations[g]? with
    | none => none
    | some G =>
      match G.handles[t]? with
      | some .retiring => some (s.setHandle g t G .released)
      | some .held =>
        if (G.places[t]?.map Place.droppable).getD false then some (s.setHandle g t G .released)
        else none
      | _ => none
  | .dropSubject g =>
    match s.generations[g]? with
    | none => none
    | some G =>
      if (G.handles[0]?.map Handle.isHeld).getD false ∧ (G.places[0]?.map Place.subject).getD false
      then some (s.dropSubject g G) else none

abbrev SpaceHistory (K W O : Type) [DecidableEq K] := List (Transition (Space K W O) (Op K W O))

/-- A space comes to `s` by the history `tr`. -/
abbrev SpaceRun (tr : SpaceHistory K W O) (s : Space K W O) : Prop := Run Space.step Space.new tr s

end Observe
