import Bombay.Export.Declaration

/-!
# Serving requests

`Export::serving` accepts queries, gives each a row, and runs one operation per row until it ends;
then it publishes the results and may discharge rows that came to nothing.  Operations give way to
each other only where they await, so the code between two awaits is one step.  The part that matters
most is one of them: after the verification the operation looks for a canonical request, decodes,
selects, prepares and attempts without giving way.

A request keeps its row number, and everybody else knows it by that: `entries` says who sits where.
What happens after the first attempt is cut up more finely than the code is, which only allows more
interleavings.  An operation whose row is not its own, a key whose row is vacant and a prepared
attempt without a message are expectations of the code, and `failed` records that one was
disappointed.
-/

set_option autoImplicit false

namespace Export

open Machine

variable {P : Policies}

instance : DecidableEq P.Bytes := P.bytesEq

/-! ## Requests -/

/-- `Identity`.  A key is the number of its row. -/
inductive Identity
  | unassigned
  | canonical (row : ℕ)
  | duplicate (row : ℕ)
  deriving DecidableEq

/-- `Custody`: what has been found out about a request. -/
structure Custody (P : Policies) where
  identity : Identity
  /-- The protected bytes and the proof. -/
  original : P.Bytes × P.Bytes
  query : Bool
  verified : Option (Except P.VerificationError P.Receipt)
  decoded : Option (Except P.DecodingError P.Input)
  native : Option (Native P)
  encoding : Option (Except P.EncodingError P.Bytes)
  protection : Option (Except P.ProtectionError P.Bytes)
  /-- The replies that were published, and whether the network took them. -/
  publications : List Bool
  requestRefusal : Option P.RequestError
  replyRefusal : Option P.ReplyError
  refusal : Option (ExportError P)
  verificationFactory : Bool
  verificationPoll : Bool
  verificationDisposal : Bool
  protectionFactory : Bool
  protectionPoll : Bool
  protectionDisposal : Bool
  completed : Bool

/-- A request that has just arrived. -/
def Custody.new (original : P.Bytes × P.Bytes) : Custody P where
  identity := .unassigned
  original := original
  query := true
  verified := none
  decoded := none
  native := none
  encoding := none
  protection := none
  publications := []
  requestRefusal := none
  replyRefusal := none
  refusal := none
  verificationFactory := false
  verificationPoll := false
  verificationDisposal := false
  protectionFactory := false
  protectionPoll := false
  protectionDisposal := false
  completed := false

/-- Where an operation stands. -/
inductive Place
  | start
  | verifying
  | sent
  | waiting
  | receiving
  | replying
  | protecting
  | finished
  /-- The operation has been dropped, and with it its lease of the request. -/
  | released
  deriving DecidableEq

/-- A request, its operation, and the calls by which it has reached the actor. -/
structure Request (P : Policies) where
  row : ℕ
  place : Place
  custody : Custody P
  calls : List NativeCall

/-- The operation returns. -/
@[simp] def Request.finish (q : Request P) (c : Custody P) : Request P :=
  { q with custody := { c with completed := true }, place := .finished }

/-! ## The export -/

/-- What becomes of completed refusals without a key. -/
inductive RefusalRetention
  | retain
  | discharge

/-- What an export is served with.  `control` is the authority over the target's lifecycle. -/
structure Setting where
  declarations : Declarations
  retainedRequests : ℕ
  refusals : RefusalRetention
  control : Bool

/-- The rows, all requests there have been, and whether an expectation was disappointed. -/
structure Serving (P : Policies) where
  entries : List (Option ℕ)
  requests : List (Request P)
  failed : Bool

/-- An export that has received nothing. -/
def Serving.new : Serving P := ⟨[], [], false⟩

/-- How an operation under `provide` ends. -/
inductive Provided (α : Type)
  | returned (result : α)
  | panicked
  /-- The application has joined first. -/
  | joined

/-- What the policies and the actor answer between the verification and the first attempt. -/
structure Answers (P : Policies) where
  permission : Except P.RequestError Unit
  reply : Except P.ReplyError Unit
  decoded : Except P.DecodingError P.Input
  accepts : List Bool → Bool
  endpoint : Except P.EndpointError Unit
  message : P.Message
  again : Except P.RequestError Unit
  sending : Sending
  stopping : Except P.ShutdownRejection Unit

/-- What an operation is resumed with. -/
inductive Input (P : Policies)
  | begins (json : Except P.JsonError Unit) (factoryPanics : Bool)
  | verified (outcome : Provided (Except P.VerificationError P.Receipt)) (disposalPanics : Bool)
      (answers : Answers P)
  | advance
  | capacity (permission : Except P.RequestError Unit) (message : P.Message) (sending : Sending)
      (stopping : Except P.ShutdownRejection Unit)
  /-- The target retires while the mailbox is full. -/
  | ended
  | received (answer : Option P.Answer) (report : P.Report)
  | reply (permission : Except P.ReplyError Unit) (encoded : Except P.EncodingError P.Bytes)
      (factoryPanics : Bool)
  | protects (outcome : Provided (Except P.ProtectionError P.Bytes)) (disposalPanics : Bool)
  | release

/-- How the operation of a row ends. -/
inductive Outcome (P : Policies)
  | goes (q : Request P)
  /-- An expectation is disappointed. -/
  | fails

/-! ## The operation -/

namespace Serving

variable (s : Serving P)

/-- The request in a row. -/
def occupant (row : ℕ) : Option (Request P) :=
  match s.entries[row]? with
  | some (some k) => s.requests[k]?
  | _ => none

/-- The key of a canonical request with this receipt. -/
def keyOf (receipt : P.Receipt) (q : Request P) : Option ℕ :=
  match q.custody.identity, q.custody.verified with
  | .canonical row, some (.ok original) => if P.sameRequest original receipt then some row else none
  | _, _ => none

/-- The first canonical request of the same class. -/
def canonical (receipt : P.Receipt) : Option ℕ :=
  s.entries.findSome? fun e =>
    match e with
    | none => none
    | some k => (s.requests[k]?).bind (keyOf receipt)

/-- `Export::request` from the verified receipt to the first attempt. -/
def settle (S : Setting) (q : Request P) (receipt : P.Receipt) (a : Answers P) : Outcome P :=
  let c := q.custody
  match a.permission with
  | .error cause => .goes (q.finish { c with requestRefusal := some cause })
  | .ok () =>
    match s.canonical receipt with
    | some row =>
      match s.occupant row with
      | none => .fails
      | some original =>
        if original.custody.original.1 ≠ c.original.1 then
          .goes (q.finish { c with refusal := some .conflict })
        else
          match original.custody.verified, a.reply with
          | some (.ok _), .error cause => .goes (q.finish { c with replyRefusal := some cause })
          | _, _ => .goes (q.finish { c with identity := .duplicate row })
    | none =>
      match a.decoded with
      | .error cause => .goes (q.finish { c with decoded := some (.error cause) })
      | .ok input =>
        match S.declarations.select a.accepts [] with
        | none => .goes (q.finish { c with decoded := some (.ok input) })
        | some selected =>
          let native := selected.prepare a.endpoint
          if native.endpointRefused then .goes (q.finish { c with native := some native })
          else
            match native.prepareAttempt S.control a.message with
            | .error cause =>
              .goes (q.finish { c with native := some native, refusal := some cause })
            | .ok none => .goes (q.finish { c with native := some native })
            | .ok (some (native, built)) =>
              -- a reply or a submission is canonical from here on, a stop once it is called
              let c := { c with
                native := some native
                identity := if built then .canonical q.row else c.identity }
              let q := { q with calls := q.calls ++ if built then [NativeCall.construct] else [] }
              match a.again with
              | .error cause => .goes (q.finish { c with requestRefusal := some cause })
              | .ok () =>
                match native.attempt a.sending a.stopping with
                | none => .fails
                | some (native, call) =>
                  .goes { q with
                    custody := { c with
                      native := some native
                      identity := if call = NativeCall.shutdown then .canonical q.row
                        else c.identity }
                    calls := q.calls ++ [call]
                    place := .sent }

/-- What the verification leaves behind. -/
def verification (c : Custody P) (outcome : Provided (Except P.VerificationError P.Receipt))
    (disposalPanics : Bool) : Custody P :=
  match outcome with
  | .returned result => { c with verified := some result, verificationDisposal := disposalPanics }
  | .panicked => { c with verificationPoll := true, verificationDisposal := disposalPanics }
  | .joined => { c with verificationDisposal := disposalPanics }

/-- What the protection leaves behind. -/
def protection (c : Custody P) (outcome : Provided (Except P.ProtectionError P.Bytes))
    (disposalPanics : Bool) : Custody P :=
  match outcome with
  | .returned result => { c with protection := some result, protectionDisposal := disposalPanics }
  | .panicked => { c with protectionPoll := true, protectionDisposal := disposalPanics }
  | .joined => { c with protectionDisposal := disposalPanics }

/-- Another attempt, once the mailbox may have room. -/
def retry (S : Setting) (q : Request P) (permission : Except P.RequestError Unit)
    (message : P.Message) (sending : Sending) (stopping : Except P.ShutdownRejection Unit) :
    Outcome P :=
  let c := q.custody
  match c.native with
  | none => .goes (q.finish c)
  | some native =>
    match native.prepareAttempt S.control message with
    | .error cause => .goes (q.finish { c with refusal := some cause })
    | .ok none => .goes (q.finish c)
    | .ok (some (native, built)) =>
      let q := { q with calls := q.calls ++ if built then [NativeCall.construct] else [] }
      match permission with
      | .error cause =>
        .goes (q.finish { c with native := some native, requestRefusal := some cause })
      | .ok () =>
        match native.attempt sending stopping with
        | none => .fails
        | some (native, call) =>
          .goes { q with
            custody := { c with native := some native }
            calls := q.calls ++ [call]
            place := .sent }

/-- One section of the operation of request `k`. -/
def act (S : Setting) (k : ℕ) (q : Request P) (i : Input P) : Option (Outcome P) :=
  let c := q.custody
  match q.place, i with
  | .start, .begins json factoryPanics =>
    -- "an active producer owns its occupied request"
    if s.entries[q.row]? = some (some k) then
      match json with
      | .error cause => some (.goes (q.finish { c with refusal := some (.json cause) }))
      | .ok () =>
        if factoryPanics then some (.goes (q.finish { c with verificationFactory := true }))
        else some (.goes { q with place := .verifying })
    else some .fails
  | .verifying, .verified outcome disposalPanics answers =>
    let c := verification c outcome disposalPanics
    if c.verificationFactory || c.verificationPoll || c.verificationDisposal then
      some (.goes (q.finish c))
    else
      match c.verified with
      | some (.ok receipt) => some (s.settle S { q with custody := c } receipt answers)
      | _ => some (.goes (q.finish c))
  | .sent, .advance =>
    match c.native with
    | none => some (.goes (q.finish c))
    | some native =>
      if native.isFull then some (.goes { q with place := .waiting })
      else if native.receives S.control then some (.goes { q with place := .receiving })
      else some (.goes { q with place := .replying })
  | .waiting, .ended => some (.goes (q.finish c))
  | .waiting, .capacity permission message sending stopping =>
    some (retry S q permission message sending stopping)
  | .receiving, .received answer report =>
    some (.goes { q with
      custody := { c with native := c.native.map (Native.receive answer report) }
      place := .replying })
  | .replying, .reply permission encoded factoryPanics =>
    match permission with
    | .error cause => some (.goes (q.finish { c with replyRefusal := some cause }))
    | .ok () =>
      let c :=
        if (c.native.map Native.encodes).getD false then { c with encoding := some encoded } else c
      match c.encoding with
      | some (.ok _) =>
        if factoryPanics then some (.goes (q.finish { c with protectionFactory := true }))
        else some (.goes { q with custody := c, place := .protecting })
      | _ => some (.goes (q.finish c))
  | .protecting, .protects outcome disposalPanics =>
    some (.goes (q.finish (protection c outcome disposalPanics)))
  | .finished, .release => some (.goes { q with place := .released })
  | _, _ => none

/-! ## The serving loop -/

/-- A query arrives.  Without room for it, or if it is too large, it is discarded. -/
def arrive (S : Setting) (original : P.Bytes × P.Bytes) (fits : Bool) : Serving P :=
  let k := s.requests.length
  match s.entries.findIdx? Option.isNone with
  | some row =>
    if fits then
      { s with
        entries := s.entries.set row (some k)
        requests := s.requests ++ [⟨row, .start, .new original, []⟩] }
    else s
  | none =>
    if s.entries.length = S.retainedRequests then s
    else if fits then
      { s with
        entries := s.entries ++ [some k]
        requests := s.requests ++ [⟨s.entries.length, .start, .new original, []⟩] }
    else s

/-- The facts that a published reply needs. -/
def replyReady (c : Custody P) : Bool :=
  !c.protectionFactory && !c.protectionPoll && !c.protectionDisposal &&
    match c.verified, c.encoding, c.protection with
    | some (.ok _), some (.ok _), some (.ok _) => true
    | _, _, _ => false

/-- `Export::publish` for one row; `none` is the expectation "issued keys keep their occupied
positions". -/
def publishRow (q : Request P) (permission : Except P.ReplyError Unit) (accepted : Bool) :
    Option (Request P) :=
  let c := q.custody
  if c.completed && c.query then
    match c.identity with
    | .unassigned => some { q with custody := { c with query := false } }
    | .canonical _ => some (reply c c)
    | .duplicate row => (s.occupant row).map fun original => reply original.custody c
  else some q
where
  /-- Publish the result of `original` in answer to `c`. -/
  reply (original c : Custody P) : Request P :=
    if original.completed then
      if replyReady original then
        match permission with
        | .ok () =>
          { q with
            custody := { c with query := false, publications := c.publications ++ [accepted] } }
        | .error cause =>
          { q with custody := { c with query := false, replyRefusal := some cause } }
      else { q with custody := { c with query := false } }
    else q

/-- Results go out, where the transport permits it. -/
def publish (permission : ℕ → Except P.ReplyError Unit) (accepted : ℕ → Bool) : Serving P :=
  let published (k : ℕ) (q : Request P) := s.publishRow q (permission k) (accepted k)
  { s with
    requests := s.requests.mapIdx fun k q =>
      if some k ∈ s.entries then (published k q).getD q else q
    failed := s.entries.any fun e =>
      match e with
      | none => false
      | some k => ((s.requests[k]?).bind (published k)).isNone }

/-- Whether `Export::discharge` takes a request out of its row. -/
def dischargeable (q : Request P) : Bool :=
  let c := q.custody
  c.completed && !c.query && c.identity = .unassigned && !c.verificationFactory &&
    !c.verificationPoll && !c.verificationDisposal && !c.protectionFactory && !c.protectionPoll &&
    !c.protectionDisposal && q.place = .released

/-- Completed refusals without a key leave their rows. -/
def discharge (S : Setting) : Serving P :=
  match S.refusals with
  | .retain => s
  | .discharge =>
    { s with entries := s.entries.map fun e =>
        match e with
        | none => none
        | some k => if ((s.requests[k]?).map dischargeable).getD false then none else some k }

end Serving

/-- What happens to an export. -/
inductive Op (P : Policies)
  | arrive (original : P.Bytes × P.Bytes) (fits : Bool)
  | run (k : ℕ) (i : Input P)
  | publish (permission : ℕ → Except P.ReplyError Unit) (accepted : ℕ → Bool)
  | discharge

/-- One step of an export.  A disappointed expectation is the end of it. -/
def Serving.step (S : Setting) (s : Serving P) (op : Op P) : Option (Serving P) :=
  if s.failed then none
  else
    match op with
    | .arrive original fits => some (s.arrive S original fits)
    | .run k i =>
      match s.requests[k]? with
      | none => none
      | some q =>
        match s.act S k q i with
        | none => none
        | some (.goes q') => some { s with requests := s.requests.set k q' }
        | some .fails => some { s with failed := true }
    | .publish permission accepted => some (s.publish permission accepted)
    | .discharge => some (s.discharge S)

abbrev History (P : Policies) := List (Transition (Serving P) (Op P))

/-- An export comes to `s` by the history `tr`. -/
abbrev Serves (S : Setting) (tr : History P) (s : Serving P) : Prop :=
  Run (Serving.step S) Serving.new tr s

end Export
