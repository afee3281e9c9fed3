import Bombay.Machine.Linear
import Bombay.Observe.Slot

/-!
# The outcome cell of a completion slot

The outcome of a slot is uninitialised memory, guarded by two bits of its word and by who holds a
handle to the slot.  `COMPLETED` lets a reader in; `OUTCOME_VALID` says that somebody must still
dispose of the outcome.  Three kinds of slots share the code: those of a space, which are recycled,
those of an unkeyed pair, and those of an affine pair, whose only observation moves the outcome out.

Here the memory, the bits and the `Arc` count of one slot are the state, and each access to any of
them is a section of its own.  A thread is a handle together with the call that is being made on it;
a shared reference to a handle is a clone of it.  Of the space only the handles of this slot are
kept: it may be observed while the table has it, popped while the pool has it, and either may be
dismantled, at any time and in any order.  The lock of the space would order some of these sections,
and nothing below needs that.  The registry of waiters is the subject of the other modules: nothing
in it touches the cell or the two bits, so a poll or a wait is the sequence of its loads.

Every access to the cell is logged.  The `epoch`, which the code does not record, counts the
generations of the slot: it begins anew whenever the slot has been reset.
-/

set_option autoImplicit false

namespace Observe.Custody

open Machine

variable {O : Type}

/-! ## The cell -/

/-- Who moves an outcome out of its cell. -/
inductive Taker
  /-- The poll of an affine observation. -/
  | affine
  /-- `Observation::into_outcome`, which owns the slot. -/
  | unwrapped
  deriving DecidableEq

/-- An access to the memory of the outcome. -/
inductive Access (O : Type)
  | wrote (epoch : ℕ) (outcome : O)
  | read (epoch : ℕ) (outcome : O)
  | moved (taker : Taker) (epoch : ℕ) (outcome : O)
  /-- The destructor runs, in `Slot::reset`, and may panic. -/
  | reset (panicked : Bool) (epoch : ℕ) (outcome : O)
  /-- The destructor runs, with the last handle, and may panic. -/
  | dropped (panicked : Bool) (epoch : ℕ) (outcome : O)
  /-- The memory has not been written. -/
  | uninitialised
  deriving DecidableEq

/-- What an access means for the outcome of one epoch. -/
def Access.use (epoch : ℕ) : Access O → Option (Use O)
  | wrote e outcome => if e = epoch then some (.write outcome) else none
  | read e outcome => if e = epoch then some (.read outcome) else none
  | moved _ e outcome | reset _ e outcome | dropped _ e outcome =>
    if e = epoch then some (.dispose outcome) else none
  | uninitialised => none

/-- A slot: its `Arc` count, the two bits, and what its memory was last written with; and how many
handles of it the table and the pool of the space have. -/
structure Cell (O : Type) where
  strong : ℕ
  completed : Bool
  outcomeValid : Bool
  outcome : Option (ℕ × O)
  epoch : ℕ
  freed : Bool
  entries : ℕ
  pooled : ℕ
  log : List (Access O)

/-- `Arc::new(Slot::new())`, with `strong` handles. -/
def Cell.new (strong : ℕ) : Cell O where
  strong := strong
  completed := false
  outcomeValid := false
  outcome := none
  epoch := 0
  freed := false
  entries := 0
  pooled := 0
  log := []

/-! ## Places -/

/-- Who publishes. -/
inductive Author
  | subject
  | publisher

/-- Where a thread is. -/
inductive Place (O : Type)
  | space
  -- `ObservationSpace::subject`, with a slot of the pool or a new one
  | load
  | clear (completed : Bool)
  | destroy
  | zero
  | enroll
  -- `Slot::complete`
  | author (author : Author)
  | complete (author : Author) (outcome : O)
  | store (author : Author) (outcome : O)
  | mark (author : Author)
  -- `Subject::drop`
  | recycle
  | push
  -- observations
  | observation
  | read
  | cloning
  | unwrapped
  | affine
  | claim (taker : Taker)
  | take (taker : Taker)
  -- the drop of an `Arc`
  | release
  | dying
  | dropping
  | gone

/-- What the surroundings contribute to a section. -/
inductive Input (O : Type)
  | advance
  /-- The user's code that runs here panics. -/
  | panics
  /-- The pool has no room. -/
  | full
  | observe
  | pop
  /-- The space is dismantled: the table, or the pool, drops its handle. -/
  | evict
  | drain
  | complete (outcome : O)
  /-- One look at an observation: `try_get`, or a check of a wait or a poll. -/
  | look
  | intoOutcome
  | clone
  | drop

/-! ## The code -/

abbrev Section (O : Type) := Option (Cell O × Place O × Option (Place O))

def goto (c : Cell O) (p : Place O) : Section O := some (c, p, none)

namespace Cell

variable (c : Cell O)

/-- The memory is used: what is logged depends on what is in it. -/
def access (how : ℕ → O → Access O) : Cell O :=
  { c with log := c.log ++ [match c.outcome with
      | some (epoch, outcome) => how epoch outcome
      | none => .uninitialised] }

/-- One more handle. -/
def retain : Cell O := { c with strong := c.strong + 1 }

end Cell

/-- Where `complete` returns to: the publisher has been consumed. -/
def Author.rest : Author → Place O
  | subject => .author .subject
  | publisher => .release

/-- Where the taker of an outcome goes on. -/
def Taker.rest : Taker → Place O
  | affine => .affine
  | unwrapped => .dying

def space (c : Cell O) : Input O → Section O
  | .observe => if c.entries = 0 then none else some (c.retain, .space, some .observation)
  | .pop =>
    if c.pooled = 0 then none else some ({ c with pooled := c.pooled - 1 }, .space, some .load)
  | .evict =>
    if c.entries = 0 then none
    else some ({ c with entries := c.entries - 1 }, .space, some .release)
  | .drain =>
    if c.pooled = 0 then none else some ({ c with pooled := c.pooled - 1 }, .space, some .release)
  | _ => none

/-- `ObservationSpace::subject`, with `Slot::reset`. -/
def subject (c : Cell O) : Place O → Input O → Section O
  | .load, .advance => goto c (if c.outcomeValid then .clear c.completed else .zero)
  -- "observation generation exhausted"
  | .load, .panics => goto c .release
  | .clear completed, .advance =>
    goto { c with completed := completed, outcomeValid := false } .destroy
  | .destroy, .advance => goto (c.access (.reset false)) .zero
  | .destroy, .panics => goto (c.access (.reset true)) .release
  | .zero, .advance =>
    goto { c with completed := false, outcomeValid := false, epoch := c.epoch + 1 } .enroll
  -- the destructor of a stale waiter panics
  | .zero, .panics => goto c .release
  -- the entry, and the subject that is returned
  | .enroll, .advance => goto { c.retain with entries := c.entries + 1 } (.author .subject)
  -- the clone of the key panics
  | .enroll, .panics => goto c .release
  | _, _ => none

/-- `Slot::complete`, and `Subject::drop`. -/
def publish (c : Cell O) : Place O → Input O → Section O
  | .author author, .complete outcome => goto c (.complete author outcome)
  | .complete author outcome, .advance =>
    goto c (if c.completed then author.rest else .store author outcome)
  | .store author outcome, .advance =>
    goto { c with outcome := some (c.epoch, outcome), log := c.log ++ [.wrote c.epoch outcome] }
      (.mark author)
  | .mark author, .advance => goto { c with completed := true, outcomeValid := true } author.rest
  -- the handle of the entry is dropped, by whoever is first
  | .author .subject, .drop =>
    if c.entries = 0 then goto c .release
    else some ({ c with entries := c.entries - 1 }, .recycle, some .release)
  | .recycle, .advance => goto c (if c.strong = 1 then .push else .release)
  | .recycle, .full => goto c .release
  | .push, .advance => goto { c.retain with pooled := c.pooled + 1 } .release
  | .author .publisher, .drop => goto c .release
  | _, _ => none

/-- Observations, and `Slot::try_take_outcome`. -/
def observe (c : Cell O) : Place O → Input O → Section O
  | .observation, .clone => some (c.retain, .observation, some .observation)
  | .observation, .look => goto c (if c.completed then .read else .observation)
  | .observation, .intoOutcome =>
    if c.strong = 1 then goto { c with strong := 0 } .unwrapped else goto c .release
  -- the outcome is borrowed while it is cloned
  | .read, .advance => goto (c.access .read) .cloning
  | .cloning, .advance | .cloning, .panics => goto (c.access .read) .observation
  | .unwrapped, .advance => goto c (if c.completed then .claim .unwrapped else .dying)
  | .affine, .look => goto c (if c.completed then .claim .affine else .affine)
  | .claim taker, .advance =>
    -- "completed observation polled after yielding its outcome"
    goto { c with outcomeValid := false } (if c.outcomeValid then .take taker else taker.rest)
  | .take taker, .advance => goto (c.access (.moved taker)) taker.rest
  | .observation, .drop | .affine, .drop => goto c .release
  | _, _ => none

/-- The drop of an `Arc`, and of the slot with the last one. -/
def drop (c : Cell O) : Place O → Input O → Section O
  | .release, .advance =>
    goto { c with strong := c.strong - 1 } (if c.strong = 1 then .dying else .gone)
  | .dying, .advance =>
    if c.outcomeValid then goto c .dropping else goto { c with freed := true } .gone
  | .dropping, .advance => goto { c.access (.dropped false) with freed := true } .gone
  | .dropping, .panics => goto { c.access (.dropped true) with freed := true } .gone
  | _, _ => none

/-- The code of everybody. -/
def act : Code (Cell O) (Place O) (Input O) := fun c _ _ p input =>
  match p with
  | .space => space c input
  | .load | .clear _ | .destroy | .zero | .enroll => subject c p input
  | .author _ | .complete _ _ | .store _ _ | .mark _ | .recycle | .push => publish c p input
  | .observation | .read | .cloning | .unwrapped | .affine | .claim _ | .take _ => observe c p input
  | .release | .dying | .dropping => drop c p input
  | .gone => none

/-- A slot, and the threads at it. -/
abbrev World (O : Type) := Pool (Cell O) (Place O)

/-- A thread runs. -/
def step : World O → Schedule (Place O) (Input O) → Option (World O) :=
  Pool.step (fun _ => false) act

/-- How a slot comes about. -/
inductive Origin
  /-- `ObservationSpace::subject`, when the pool is empty. -/
  | subject
  /-- `pair` and `affine_pair`. -/
  | pair (flavor : Flavor)

/-- A slot that has just been made. -/
def World.start : Origin → World O
  | .subject => ⟨.new 1, [.space, .enroll]⟩
  | .pair .shared => ⟨.new 2, [.author .publisher, .observation]⟩
  | .pair .affine => ⟨.new 2, [.author .publisher, .affine]⟩

/-- The slot comes to `w` by the history `tr`. -/
abbrev WorldRun (origin : Origin) (tr : List (Transition (World O) (Schedule (Place O) (Input O))))
    (w : World O) : Prop := Run step (World.start origin) tr w

end Observe.Custody
