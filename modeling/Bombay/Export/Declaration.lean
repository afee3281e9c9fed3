import Bombay.Machine.Run

/-!
# Declared operations and their native attempts

An export offers operations of three kinds: a *reply* sends a message and waits for an answer, a
*submission* only sends, and *stop* shuts the actor down.  Declarations are paired, and a request
belongs to the first of them whose projection takes its input.

An operation is attempted in two parts.  `prepare_attempt` builds the message, which is the moment a
reply or a submission becomes canonical, and `attempt` performs the call, which is the moment a stop
does.  What the policies, the actor and the mailbox answer is not known beforehand, and comes in as
an argument wherever the code asks for it.
-/

set_option autoImplicit false

namespace Export

/-! ## What an export is declared with -/

/-- The types of an export, and when two receipts are of the same request. -/
structure Policies where
  Bytes : Type
  Receipt : Type
  Input : Type
  Message : Type
  Answer : Type
  Report : Type
  JsonError : Type
  VerificationError : Type
  DecodingError : Type
  EncodingError : Type
  ProtectionError : Type
  RequestError : Type
  ReplyError : Type
  EndpointError : Type
  ShutdownRejection : Type
  bytesEq : DecidableEq Bytes
  sameRequest : Receipt → Receipt → Bool

variable {P : Policies}

/-- The refusals of a request. -/
inductive ExportError (P : Policies)
  | conflict
  | stopAuthority
  | json (cause : P.JsonError)

/-- What is known of an operation that was entered. -/
inductive Attempt (α : Type)
  | unattempted
  | uncertain
  | returned (outcome : α)

/-- Why `try_send` gave the message back. -/
inductive TrySendError (M : Type)
  | full (message : M)
  | closed (message : M)

/-- How the mailbox answers a message. -/
inductive Sending
  | accepted
  | full
  | closed
  deriving DecidableEq

/-- The result of `try_send` that hands a refused message back. -/
def Sending.result {M : Type} (message : M) : Sending → Except (TrySendError M) Unit
  | accepted => .ok ()
  | full => .error (.full message)
  | closed => .error (.closed message)

/-- The message of an operation: still to be built, or built. -/
inductive Construction (M : Type)
  | constructor
  | command (message : M)

/-! ## Native operations -/

/-- What replies and submissions have in common: a message, an endpoint, and the admission of the
message by the mailbox. -/
structure Delivery (P : Policies) where
  construction : Option (Construction P.Message)
  endpoint : Attempt (Except P.EndpointError Unit)
  admission : Attempt (Except (TrySendError P.Message) Unit)

/-- The native part of a request. -/
inductive Native (P : Policies)
  | reply (delivery : Delivery P) (received : Option (Option P.Answer))
  | submission (delivery : Delivery P)
  | stop (admission : Attempt (Except P.ShutdownRejection Unit)) (report : Option P.Report)
  | left (native : Native P)
  | right (native : Native P)

/-- The declarations of an export. -/
inductive Declarations
  | reply
  | submission
  | stop
  | pair (left right : Declarations)

/-- The calls by which a request reaches the actor. -/
inductive NativeCall
  | construct
  | trySend (sending : Sending)
  | shutdown
  deriving DecidableEq

/-- A message has got into the mailbox. -/
def NativeCall.admits : NativeCall → Bool
  | trySend .accepted => true
  | _ => false

namespace Delivery

/-- A delivery before its first attempt. -/
def new : Delivery P := ⟨some .constructor, .unattempted, .unattempted⟩

/-- The mailbox was full, and the message has come back. -/
def isFull (d : Delivery P) : Bool :=
  match d.admission with
  | .returned (.error (.full _)) => true
  | _ => false

/-- The message is still to be built. -/
def unbuilt (d : Delivery P) : Bool :=
  match d.construction with
  | some .constructor => true
  | _ => false

/-- `prepare_attempt` of a reply or a submission.  The flag says that the message has been built,
and that the request has become canonical just before. -/
def prepareAttempt (d : Delivery P) (message : P.Message) : Option (Delivery P × Bool) :=
  match d.endpoint with
  | .returned (.ok ()) =>
    match d.construction with
    | some .constructor => some ({ d with construction := some (.command message) }, true)
    | some (.command _) => some (d, false)
    | none => if d.isFull then some (d, false) else none
  | _ => none

/-- The attempt of a reply or a submission; `none` is the arm "only the retained native Full enters
retry". -/
def attempt (d : Delivery P) (sending : Sending) : Option (Delivery P) :=
  match d.construction, d.admission with
  | some (.command message), _ =>
    some { d with construction := none, admission := .returned (sending.result message) }
  | _, .returned (.error (.full message)) =>
    some { d with construction := none, admission := .returned (sending.result message) }
  | _, _ => none

end Delivery

/-- `Commands::select`: the first declaration whose projection accepts the input. -/
def Declarations.select (accepts : List Bool → Bool) (path : List Bool) :
    Declarations → Option (Native P)
  | reply => if accepts path then some (.reply .new none) else none
  | submission => if accepts path then some (.submission .new) else none
  | stop => if accepts path then some (.stop .unattempted none) else none
  | pair l r =>
    match l.select accepts (path ++ [false]) with
    | some native => some (.left native)
    | none => (r.select accepts (path ++ [true])).map .right

namespace Native

def isFull : Native P → Bool
  | reply d _ | submission d => d.isFull
  | stop .. => false
  | left n | right n => n.isFull

/-- The message is still to be built. -/
def unbuilt : Native P → Bool
  | reply d _ | submission d => d.unbuilt
  | stop .. => false
  | left n | right n => n.unbuilt

def stops : Native P → Bool
  | reply .. | submission _ => false
  | stop .. => true
  | left n | right n => n.stops

/-- `Commands::prepare`: connect to the actor. -/
def prepare (endpoint : Except P.EndpointError Unit) : Native P → Native P
  | reply d received => reply { d with endpoint := .returned endpoint } received
  | submission d => submission { d with endpoint := .returned endpoint }
  | stop admission report => stop admission report
  | left n => left (n.prepare endpoint)
  | right n => right (n.prepare endpoint)

/-- Whether `prepare` has returned an error. -/
def endpointRefused : Native P → Bool
  | reply d _ | submission d =>
    match d.endpoint with
    | .returned (.error _) => true
    | _ => false
  | stop .. => false
  | left n | right n => n.endpointRefused

/-- The attempt of the declaration that was selected. -/
def prepareAttempt (authority : Bool) (message : P.Message) :
    Native P → Except (ExportError P) (Option (Native P × Bool))
  | reply d received =>
    .ok ((d.prepareAttempt message).map fun (d, built) => (reply d received, built))
  | submission d => .ok ((d.prepareAttempt message).map fun (d, built) => (submission d, built))
  | stop admission report =>
    if authority then .ok (some (stop admission report, false)) else .error .stopAuthority
  | left n =>
    (n.prepareAttempt authority message).map (Option.map fun (n, built) => (left n, built))
  | right n =>
    (n.prepareAttempt authority message).map (Option.map fun (n, built) => (right n, built))

/-- The prepared attempt: the native operation after it, and the call it has made. -/
def attempt (sending : Sending) (stopping : Except P.ShutdownRejection Unit) :
    Native P → Option (Native P × NativeCall)
  | reply d received => (d.attempt sending).map fun d => (reply d received, .trySend sending)
  | submission d => (d.attempt sending).map fun d => (submission d, .trySend sending)
  | stop _ report => some (stop (.returned stopping) report, .shutdown)
  | left n => (n.attempt sending stopping).map fun (n, call) => (left n, call)
  | right n => (n.attempt sending stopping).map fun (n, call) => (right n, call)

/-- Whether `Delivery::receive` has something to wait for. -/
def receives (retirement : Bool) : Native P → Bool
  | reply d _ =>
    match d.endpoint, d.admission with
    | .returned (.ok ()), .uncertain | .returned (.ok ()), .returned (.ok ()) => true
    | _, _ => false
  | submission _ => false
  | stop .. => retirement
  | left n | right n => n.receives retirement

/-- What `Delivery::receive` leaves behind. -/
def receive (answer : Option P.Answer) (report : P.Report) : Native P → Native P
  | reply d _ => reply d (some answer)
  | submission d => submission d
  | stop admission _ => stop admission (some report)
  | left n => left (n.receive answer report)
  | right n => right (n.receive answer report)

/-- Whether `Commands::encode` has something to encode. -/
def encodes : Native P → Bool
  | reply _ (some (some _)) => true
  | reply .. => false
  | submission _ | stop .. => true
  | left n | right n => n.encodes

end Native

/-! ## What preparing and attempting do -/

section Lemmas

variable {d d' : Delivery P} {n n' : Native P} {message : P.Message} {sending : Sending}
  {authority built : Bool} {stopping : Except P.ShutdownRejection Unit} {call : NativeCall}

/-- A preparation builds the message if that has not been done, and an attempt can follow. -/
theorem Delivery.prepareAttempt_spec (h : d.prepareAttempt message = some (d', built)) :
    built = d.unbuilt ∧ d'.unbuilt = false ∧ ∀ sending, (d'.attempt sending).isSome := by
  unfold prepareAttempt at h
  split at h
  · split at h
    iterate 2
      · next hc =>
        cases h
        simp [unbuilt, attempt, hc]
    · next hc =>
      split at h
      · next hfull =>
        cases h
        refine ⟨by simp [unbuilt, hc], by simp [unbuilt, hc], fun sending => ?_⟩
        unfold isFull at hfull
        split at hfull
        · next hadmission => simp [attempt, hc, hadmission]
        · cases hfull
      · cases h
  · cases h

/-- An attempt uses the message up, and gets it back if the mailbox is full. -/
theorem Delivery.attempt_spec (h : d.attempt sending = some d') :
    d'.unbuilt = false ∧ d'.isFull = (sending == .full) := by
  unfold attempt at h
  split at h
  iterate 2
    · cases h
      cases sending <;> simp [unbuilt, isFull, Sending.result]
  · cases h

theorem Native.prepareAttempt_spec (h : n.prepareAttempt authority message =
    .ok (some (n', built))) :
    built = n.unbuilt ∧ n'.unbuilt = false ∧ n'.stops = n.stops ∧
      ∀ sending stopping, (n'.attempt sending stopping).isSome := by
  induction n generalizing n' with
  | reply | submission =>
    simp only [prepareAttempt, Except.ok.injEq, Option.map_eq_some_iff] at h
    obtain ⟨⟨d', built'⟩, hd, hn⟩ := h
    cases hn
    obtain ⟨hbuilt, hunb, hattempt⟩ := Delivery.prepareAttempt_spec hd
    exact ⟨hbuilt, hunb, rfl, fun sending _ => by simpa [attempt] using hattempt sending⟩
  | stop =>
    simp only [prepareAttempt] at h
    split at h
    · cases h
      exact ⟨rfl, rfl, rfl, fun _ _ => rfl⟩
    · cases h
  | left n ih | right n ih =>
    simp only [prepareAttempt] at h
    cases hn : n.prepareAttempt authority message with
    | error => simp [hn, Except.map] at h
    | ok =>
      simp only [hn, Except.map, Except.ok.injEq, Option.map_eq_some_iff] at h
      obtain ⟨⟨m, built'⟩, rfl, hm⟩ := h
      cases hm
      obtain ⟨hbuilt, hunb, hstops, hattempt⟩ := ih hn
      exact ⟨hbuilt, hunb, hstops, fun x y => by simpa [attempt] using hattempt x y⟩

theorem Native.attempt_spec (h : n.attempt sending stopping = some (n', call)) :
    n'.unbuilt = false ∧ n'.stops = n.stops ∧
      call = (if n.stops then .shutdown else .trySend sending) ∧
      n'.isFull = (!n.stops && sending == .full) := by
  induction n generalizing n' with
  | reply | submission =>
    obtain ⟨d', hd, hn⟩ := Option.map_eq_some_iff.mp h
    cases hn
    obtain ⟨hunb, hfull⟩ := Delivery.attempt_spec hd
    exact ⟨hunb, rfl, rfl, hfull⟩
  | stop =>
    cases h
    exact ⟨rfl, rfl, rfl, rfl⟩
  | left _ ih | right _ ih =>
    obtain ⟨⟨m, call'⟩, hm, hn⟩ := Option.map_eq_some_iff.mp h
    cases hn
    have hspec := ih hm
    exact hspec

@[simp] theorem Native.stops_prepare (e : Except P.EndpointError Unit) (n : Native P) :
    (n.prepare e).stops = n.stops := by
  induction n with
  | left _ ih | right _ ih => exact ih
  | _ => rfl

@[simp] theorem Native.unbuilt_prepare (e : Except P.EndpointError Unit) (n : Native P) :
    (n.prepare e).unbuilt = n.unbuilt := by
  induction n with
  | left _ ih | right _ ih => exact ih
  | _ => rfl

/-- A selected operation has its message still to be built, unless it is a stop. -/
theorem Declarations.select_unbuilt {declarations : Declarations} {accepts : List Bool → Bool}
    {path : List Bool} (h : declarations.select accepts path = some n) : n.unbuilt = !n.stops := by
  induction declarations generalizing path n with
  | pair _ _ ihl ihr =>
    simp only [select] at h
    split at h
    · next native hl =>
      have hspec := ihl hl
      cases h
      exact hspec
    · obtain ⟨m, hm, rfl⟩ := Option.map_eq_some_iff.mp h
      have hspec := ihr hm
      exact hspec
  | _ =>
    simp only [select] at h
    split at h <;> cases h
    rfl

end Lemmas

end Export
