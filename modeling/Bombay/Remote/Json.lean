import Mathlib.Data.PNat.Defs

/-!
# The check of protected JSON

`remote/json.rs` checks a protected message before anybody decodes it: it reads the events of a
streaming parser, counts how deep it is, and looks at one event more after every key `bombay` of the
outer object.  The parser is not part of the repository.  `Parsed` is what it is assumed to do: it
gives the events of a document and then the end, or it stops with an error somewhere in what begins
like a document.

`protected_json_exact` says what `check` accepts in terms of the document, and that the count of
what is open never goes below zero.
-/

set_option autoImplicit false

namespace Remote.Json

open List

/-! ## Documents -/

/-- `JsonEvent`. -/
inductive Event
  | string (token : String)
  | number (token : String)
  | boolean (value : Bool)
  | null
  | startArray
  | endArray
  | startObject
  | endObject
  | objectKey (key : String)
  | eof
  deriving DecidableEq

mutual

/-- A JSON value. -/
inductive Value
  | string (token : String)
  | number (token : String)
  | boolean (value : Bool)
  | null
  | array (items : Items)
  | object (fields : Fields)

inductive Items
  | nil
  | cons (value : Value) (items : Items)

inductive Fields
  | nil
  | cons (key : String) (value : Value) (fields : Fields)

end

mutual

/-- The events of a value. -/
def Value.events : Value → List Event
  | .string token => [.string token]
  | .number token => [.number token]
  | .boolean value => [.boolean value]
  | .null => [.null]
  | .array items => .startArray :: (items.events ++ [.endArray])
  | .object fields => .startObject :: (fields.events ++ [.endObject])

def Items.events : Items → List Event
  | .nil => []
  | .cons value items => value.events ++ items.events

def Fields.events : Fields → List Event
  | .nil => []
  | .cons key value fields => .objectKey key :: (value.events ++ fields.events)

end

mutual

/-- How many objects and arrays are open at once, at most. -/
def Value.nesting : Value → ℕ
  | .array items => items.nesting + 1
  | .object fields => fields.nesting + 1
  | _ => 0

/-- The same for the items of an array. -/
def Items.nesting : Items → ℕ
  | .nil => 0
  | .cons value items => max value.nesting items.nesting

/-- The same for the fields of an object. -/
def Fields.nesting : Fields → ℕ
  | .nil => 0
  | .cons _ value fields => max value.nesting fields.nesting

end

def Value.IsObject (value : Value) : Prop := ∃ fields, value = .object fields

/-- Every value under the key `bombay` is an object. -/
def Fields.Metadata : Fields → Prop
  | .nil => True
  | .cons key value fields => (key = "bombay" → value.IsObject) ∧ fields.Metadata

/-! ## The source -/

/-- `Limits`: what an input may take. -/
structure Limits where
  inputBytes : ℕ+
  proofBytes : ℕ+
  tokenBytes : ℕ+
  nesting : ℕ+
  parserStates : ℕ+

/-- Why an input is refused. -/
inductive Error (E : Type)
  | inputBytes
  | proofBytes
  | outerObject
  | metadataObject
  | tokenBytes
  | nesting
  | noEvent
  /-- `Syntax`, with the error of the parser. -/
  | syntactic (cause : E)
  /-- `depth -= 1` at zero, which panics or wraps around. -/
  | underflow

variable {E : Type}

/-- What the calls of `parse_next` give: the events of a document and the end, or the first `n` of
them and an error, which may be that there is no event. -/
inductive Parsed (E : Type)
  | document (value : Value)
  | refused (value : Value) (n : ℕ) (error : Option E)

abbrev Checked (E α : Type) := Except (Error E) α

/-- The results of the calls that are still to come. -/
abbrev Results (E : Type) := List (Checked E Event)

/-- What a round of the loop of `check` leaves: the results and how deep it is, if it goes on. -/
abbrev Left (E : Type) := Option (Results E × ℕ)

def Parsed.results : Parsed E → Results E
  | .document value => value.events.map .ok ++ [.ok .eof]
  | .refused value n error =>
    (value.events.take n).map .ok ++ [.error (error.elim .noEvent .syntactic)]

/-- The decoded token of the event is not too long. -/
def Event.Fits (limits : Limits) : Event → Prop
  | .string token | .objectKey token | .number token => token.utf8ByteSize ≤ limits.tokenBytes
  | _ => True

instance (limits : Limits) : DecidablePred (Event.Fits limits) := fun e => by
  unfold Event.Fits
  split <;> infer_instance

/-- `next_event`, with what is left of the input. -/
def nextEvent (limits : Limits) : Results E → Checked E (Event × Results E)
  | [] => .error .noEvent
  | .error error :: _ => .error error
  | .ok event :: rest => if event.Fits limits then .ok (event, rest) else .error .tokenBytes

/-- The end of a round: what is left, and how deep it is. -/
def nested (limits : Limits) (rest : Results E) (depth : ℕ) : Checked E (Left E) :=
  if limits.nesting < depth then .error .nesting else .ok (some (rest, depth))

/-- A round of the loop of `check`; the end of the document ends it. -/
def round (limits : Limits) (results : Results E) (depth : ℕ) : Checked E (Left E) := do
  let (event, rest) ← nextEvent limits results
  match event with
  | .objectKey key =>
    if depth = 1 ∧ key = "bombay" then
      let (value, rest) ← nextEvent limits rest
      if value = .startObject then nested limits rest (depth + 1) else .error .metadataObject
    else nested limits rest depth
  | .startObject | .startArray => nested limits rest (depth + 1)
  | .endObject | .endArray =>
    if depth = 0 then .error .underflow else nested limits rest (depth - 1)
  | .eof => .ok none
  | _ => nested limits rest depth

variable {limits : Limits} {results rest : Results E} {depth depth' : ℕ} {event : Event}

theorem length_of_round (h : round limits results depth = .ok (some (rest, depth'))) :
    rest.length < results.length := by
  simp only [round, nested, nextEvent, bind, Except.bind] at h
  grind

/-- The loop of `check`. -/
def scan (limits : Limits) (results : Results E) (depth : ℕ) :
    Checked E Unit :=
  match _h : round limits results depth with
  | .error error => .error error
  | .ok none => .ok ()
  | .ok (some (rest, depth)) => scan limits rest depth
termination_by results.length
decreasing_by exact length_of_round _h

/-- `check`, of what the parser gives. -/
def checkResults (limits : Limits) (results : Results E) :
    Checked E Unit :=
  match nextEvent limits results with
  | .error error => .error error
  | .ok (.startObject, rest) => scan limits rest 1
  | .ok _ => .error .outerObject

/-- `check`: the sizes, and then the document. -/
def check (parse : ℕ → List UInt8 → Parsed E) (limits : Limits)
    (protectedBytes proof : List UInt8) : Checked E Unit :=
  if limits.inputBytes < protectedBytes.length then .error .inputBytes
  else if limits.proofBytes < proof.length then .error .proofBytes
  else checkResults limits (parse (limits.parserStates - 1) protectedBytes).results

/-! ## Rounds of the loop -/

/-- The loop accepts what is left. -/
abbrev Passes (limits : Limits) (results : Results E) (depth : ℕ) : Prop :=
  scan limits results depth = .ok ()

/-- The loop goes on after a round. -/
def resume (limits : Limits) : Left E → Checked E Unit
  | none => .ok ()
  | some (rest, depth) => scan limits rest depth

theorem scan_eq (limits : Limits) (results : Results E) (depth : ℕ) :
    scan limits results depth = (round limits results depth).bind (resume limits) := by
  rw [scan]
  split <;> simp_all [Except.bind, resume]

theorem nested_resume : (nested limits rest depth).bind (resume limits) = .ok () ↔
    depth ≤ limits.nesting ∧ Passes limits rest depth := by
  rw [nested]
  split
  · next h => exact iff_of_false nofun fun h' => absurd h'.1 (Nat.not_le.mpr h)
  · next h => exact (and_iff_right (Nat.not_lt.mp h)).symm

/-- An event that neither opens nor closes anything. -/
def Event.Plain (depth : ℕ) : Event → Prop
  | .string _ | .number _ | .boolean _ | .null => True
  | .objectKey key => ¬(depth = 1 ∧ key = "bombay")
  | _ => False

theorem passes_plain (h : event.Plain depth) : Passes limits (.ok event :: rest) depth ↔
    event.Fits limits ∧ depth ≤ limits.nesting ∧ Passes limits rest depth := by
  rw [Passes, scan_eq]
  by_cases hfits : event.Fits limits
  · rw [← nested_resume, and_iff_right hfits]
    cases event with
    | objectKey => simp [round, nextEvent, hfits, bind, Except.bind, if_neg h]
    | _ => simp_all [round, nextEvent, bind, Except.bind, Event.Plain]
  · simp [round, nextEvent, hfits, bind, Except.bind]

theorem passes_open (h : event = .startObject ∨ event = .startArray) :
    Passes limits (.ok event :: rest) depth ↔
      depth + 1 ≤ limits.nesting ∧ Passes limits rest (depth + 1) := by
  rw [Passes, scan_eq, ← nested_resume]
  rcases h with rfl | rfl <;> simp [round, nextEvent, Event.Fits, bind, Except.bind]

theorem passes_close (h : event = .endObject ∨ event = .endArray) :
    Passes limits (.ok event :: rest) (depth + 1) ↔
      depth ≤ limits.nesting ∧ Passes limits rest depth := by
  rw [Passes, scan_eq, ← nested_resume]
  rcases h with rfl | rfl <;> simp [round, nextEvent, Event.Fits, bind, Except.bind]

/-- The two events of the special case are those of a key and of an object, one after the other. -/
theorem passes_bombay : Passes limits (.ok (.objectKey "bombay") :: .ok event :: rest) 1 ↔
    (Event.objectKey "bombay").Fits limits ∧ event = .startObject ∧
      Passes limits (.ok event :: rest) 1 := by
  rw [Passes, scan_eq]
  by_cases hfits : (Event.objectKey "bombay").Fits limits
  · by_cases hevent : event = .startObject
    · subst hevent
      have hobject : Event.startObject.Fits limits := trivial
      rw [passes_open (.inl rfl), ← nested_resume]
      simp [round, nextEvent, hfits, hobject, bind, Except.bind]
    · by_cases hsize : event.Fits limits
      all_goals simp [round, nextEvent, hfits, hevent, hsize, bind, Except.bind]
  · simp [round, nextEvent, hfits, bind, Except.bind]

/-! ## Values -/

/-- What encloses the events of an object or of an array. -/
def Encloses (start stop : Event) : Prop :=
  start = .startObject ∧ stop = .endObject ∨ start = .startArray ∧ stop = .endArray

theorem passes_enclosed {start stop : Event} {inner} {n : ℕ} (h : Encloses start stop)
    (hdepth : depth ≤ limits.nesting) (hinner : depth + 1 ≤ limits.nesting →
      (Passes limits (inner.map .ok ++ .ok stop :: rest) (depth + 1) ↔
        (∀ event ∈ inner, event.Fits limits) ∧ depth + 1 + n ≤ limits.nesting ∧
          Passes limits (.ok stop :: rest) (depth + 1))) :
    Passes limits ((start :: (inner ++ [stop])).map .ok ++ rest) depth ↔
      (∀ event ∈ start :: (inner ++ [stop]), event.Fits limits) ∧ depth + (n + 1) ≤ limits.nesting ∧
        Passes limits rest depth := by
  have hfits : start.Fits limits ∧ stop.Fits limits := by
    rcases h with ⟨rfl, rfl⟩ | ⟨rfl, rfl⟩ <;> exact ⟨trivial, trivial⟩
  have hclose : Passes limits (.ok stop :: rest) (depth + 1) ↔ Passes limits rest depth :=
    (passes_close (h.imp And.right And.right)).trans (and_iff_right hdepth)
  simp only [map_cons, map_append, map_nil, cons_append, append_assoc,
    nil_append, passes_open (h.imp And.left And.left), forall_mem_cons,
    forall_mem_append, hfits, not_mem_nil, false_implies, implies_true, and_true, true_and]
  constructor
  · rintro ⟨hopen, hp⟩
    obtain ⟨hsmall, hnesting, hrest⟩ := (hinner hopen).mp hp
    exact ⟨hsmall, by omega, hclose.mp hrest⟩
  · rintro ⟨hsmall, hnesting, hrest⟩
    have hopen : depth + 1 ≤ limits.nesting := by omega
    exact ⟨hopen, (hinner hopen).mpr ⟨hsmall, by omega, hclose.mpr hrest⟩⟩

mutual

theorem Value.passes {rest : Results E} {depth : ℕ} (value : Value) (hpos : 0 < depth)
    (hdepth : depth ≤ limits.nesting) : Passes limits (value.events.map .ok ++ rest) depth ↔
      (∀ event ∈ value.events, event.Fits limits) ∧ depth + value.nesting ≤ limits.nesting ∧
        Passes limits rest depth := by
  cases value with
  | array items => exact passes_enclosed (.inr ⟨rfl, rfl⟩) hdepth (items.passes (Nat.succ_pos _))
  | object fields =>
    exact passes_enclosed (.inl ⟨rfl, rfl⟩) hdepth (fields.passes (Nat.succ_lt_succ hpos))
  | _ =>
    rw [Value.events, map_singleton, singleton_append, passes_plain (by trivial),
      forall_mem_singleton]
    rfl

theorem Items.passes {rest : Results E} {depth : ℕ} (items : Items) (hpos : 0 < depth)
    (hdepth : depth ≤ limits.nesting) : Passes limits (items.events.map .ok ++ rest) depth ↔
      (∀ event ∈ items.events, event.Fits limits) ∧ depth + items.nesting ≤ limits.nesting ∧
        Passes limits rest depth := by
  cases items with
  | nil => simp [Items.events, Items.nesting, hdepth]
  | cons value items =>
    rw [Items.events, map_append, append_assoc, value.passes hpos hdepth,
      items.passes hpos hdepth, forall_mem_append, Items.nesting]
    grind

theorem Fields.passes {rest : Results E} {depth : ℕ} (fields : Fields) (hpos : 1 < depth)
    (hdepth : depth ≤ limits.nesting) : Passes limits (fields.events.map .ok ++ rest) depth ↔
      (∀ event ∈ fields.events, event.Fits limits) ∧ depth + fields.nesting ≤ limits.nesting ∧
        Passes limits rest depth := by
  cases fields with
  | nil => simp [Fields.events, Fields.nesting, hdepth]
  | cons key value fields =>
    have hplain : (Event.objectKey key).Plain depth := fun h => absurd h.1 (by omega)
    rw [Fields.events, map_cons, cons_append, passes_plain hplain, map_append,
      append_assoc, value.passes (by omega) hdepth, fields.passes hpos hdepth, forall_mem_cons,
      forall_mem_append, Fields.nesting]
    grind

end

/-- The fields of the outer object. -/
theorem Fields.passes_outer (fields : Fields) : Passes limits (fields.events.map .ok ++ rest) 1 ↔
    (∀ event ∈ fields.events, event.Fits limits) ∧ 1 + fields.nesting ≤ limits.nesting ∧
      fields.Metadata ∧ Passes limits rest 1 := by
  have hdepth : 1 ≤ (limits.nesting : ℕ) := limits.nesting.pos
  match fields with
  | .nil => simp [Fields.events, Fields.nesting, Fields.Metadata, hdepth]
  | .cons key value fields =>
    have hkey (k : Results E) :
        Passes limits (.ok (.objectKey key) :: (value.events.map .ok ++ k)) 1 ↔
        (Event.objectKey key).Fits limits ∧ (key = "bombay" → value.IsObject) ∧
          Passes limits (value.events.map .ok ++ k) 1 := by
      by_cases hkey : key = "bombay"
      · subst hkey
        cases value <;> simp [Value.events, Value.IsObject, passes_bombay]
      · have hplain : (Event.objectKey key).Plain 1 := fun h => hkey h.2
        simp [passes_plain hplain, hkey, hdepth]
    rw [Fields.events, map_cons, cons_append, map_append, append_assoc, hkey,
      value.passes Nat.one_pos hdepth, fields.passes_outer, forall_mem_cons, forall_mem_append,
      Fields.nesting, Fields.Metadata]
    grind

/-! ## The count -/

/-- Nothing is closed that is not open, from a depth on, and nothing has ended. -/
def Balanced : ℕ → List Event → Prop
  | _, [] => True
  | depth, .startObject :: events | depth, .startArray :: events => Balanced (depth + 1) events
  | 0, .endObject :: _ | 0, .endArray :: _ | _, .eof :: _ => False
  | depth + 1, .endObject :: events | depth + 1, .endArray :: events => Balanced depth events
  | depth, _ :: events => Balanced depth events

theorem Balanced.of_append {events events'} (h : Balanced depth (events ++ events')) :
    Balanced depth events := by
  induction events generalizing depth with
  | nil => trivial
  | cons event _ ih =>
    cases event <;> cases depth <;> first | exact ih h | exact h

mutual

theorem Value.balanced {depth : ℕ} {events} (h : Balanced depth events) :
    ∀ value : Value, Balanced depth (value.events ++ events)
  | .string _ | .number _ | .boolean _ | .null => h
  | .array items => by
    have hclose : Balanced (depth + 1) ([.endArray] ++ events) := h
    rw [Value.events, cons_append, append_assoc]
    exact items.balanced hclose
  | .object fields => by
    have hclose : Balanced (depth + 1) ([.endObject] ++ events) := h
    rw [Value.events, cons_append, append_assoc]
    exact fields.balanced hclose

theorem Items.balanced {depth : ℕ} {events} (h : Balanced depth events) :
    ∀ items : Items, Balanced depth (items.events ++ events)
  | .nil => h
  | .cons value items => by
    rw [Items.events, append_assoc]
    exact value.balanced (items.balanced h)

theorem Fields.balanced {depth : ℕ} {events} (h : Balanced depth events) :
    ∀ fields : Fields, Balanced depth (fields.events ++ events)
  | .nil => h
  | .cons key value fields => by
    rw [Fields.events, cons_append, append_assoc]
    exact value.balanced (fields.balanced h)

end

variable {stop : Checked E Event} {events : List Event}

/-- What comes after the events: their end, or an error of the parser. -/
def Stops (stop : Checked E Event) : Prop :=
  stop = .ok .eof ∨ ∃ error, stop = .error error ∧ error ≠ .underflow

/-- A round does not underflow, accepts at the end only, and leaves events that are balanced. -/
structure Sound (stop : Checked E Event) (x : Checked E (Left E)) : Prop where
  counted : x ≠ .error .underflow
  ended : x = .ok none → stop = .ok .eof
  left : ∀ rest depth, x = .ok (some (rest, depth)) →
    ∃ events : List Event, rest = events.map .ok ++ [stop] ∧ Balanced depth events

theorem sound_error {error : Error E} (h : error ≠ .underflow) : Sound stop (.error error) :=
  ⟨fun h' => h (Except.error.inj h'), nofun, nofun⟩

theorem sound_nested (h : Balanced depth events) :
    Sound stop (nested limits (events.map .ok ++ [stop]) depth) := by
  rw [nested]
  split
  · exact sound_error nofun
  · refine ⟨nofun, nofun, fun rest depth heq => ⟨events, ?_⟩⟩
    cases heq
    exact ⟨rfl, h⟩

theorem sound_round (hstop : Stops stop) (h : Balanced depth events) :
    Sound stop (round limits (events.map .ok ++ [stop]) depth) := by
  match events with
  | [] =>
    rcases hstop with rfl | ⟨error, rfl, herror⟩
    · exact ⟨nofun, fun _ => rfl, nofun⟩
    · exact sound_error herror
  | event :: events =>
    rw [round, map_cons, cons_append, nextEvent]
    by_cases hfits : event.Fits limits
    · rw [if_pos hfits]
      cases event with
      | objectKey key =>
        have hrest : Balanced depth events := h
        by_cases hkey : depth = 1 ∧ key = "bombay"
        · obtain ⟨rfl, rfl⟩ := hkey
          simp only [bind, Except.bind, and_self, if_true]
          match events with
          | [] =>
            rcases hstop with rfl | ⟨error, rfl, herror⟩
            · exact sound_error nofun
            · exact sound_error herror
          | event :: events =>
            rw [map_cons, cons_append, nextEvent]
            by_cases hsize : event.Fits limits
            · by_cases hevent : event = .startObject
              · subst hevent
                simp only [hsize, if_true]
                exact sound_nested hrest
              · simp only [hsize, hevent, if_true, if_false]
                exact sound_error nofun
            · simp only [hsize, if_false]
              exact sound_error nofun
        · simpa [bind, Except.bind, hkey] using sound_nested hrest
      | endObject | endArray =>
        cases depth with
        | zero => exact h.elim
        | succ => exact sound_nested h
      | eof => cases depth <;> exact h.elim
      | _ => exact sound_nested h
    · rw [if_neg hfits]
      exact sound_error nofun

/-- **The count never underflows**, and nothing is accepted before the end. -/
theorem scan_sound (hstop : Stops stop) (h : Balanced depth events) :
    scan limits (events.map .ok ++ [stop]) depth ≠ .error .underflow ∧
      (Passes limits (events.map .ok ++ [stop]) depth → stop = .ok .eof) := by
  generalize hresults : events.map .ok ++ [stop] = results
  induction results, depth using scan.induct limits generalizing events with
  | case1 _ _ _ heq =>
    obtain ⟨hsound, -, -⟩ := heq ▸ hresults ▸ @sound_round _ limits _ _ _ hstop h
    rw [Passes, scan_eq, heq]
    exact ⟨fun h' => hsound (congrArg _ (Except.error.inj h')), nofun⟩
  | case2 _ _ heq =>
    rw [Passes, scan_eq, heq]
    exact ⟨nofun, fun _ => (sound_round hstop h).ended (hresults ▸ heq)⟩
  | case3 _ _ _ _ heq ih =>
    obtain ⟨events', hrest, h'⟩ := (sound_round hstop h).left _ _ (hresults ▸ heq)
    rw [Passes, scan_eq, heq]
    exact ih h' hrest.symm

/-! ## The check -/

/-- What `check` accepts. -/
structure Accepts (parse : ℕ → List UInt8 → Parsed E) (limits : Limits)
    (protectedBytes proof : List UInt8) : Prop where
  input : protectedBytes.length ≤ limits.inputBytes
  proof : proof.length ≤ limits.proofBytes
  /-- The parser accepts a document within its bound, and the document is an object that keeps the
  other limits and has nothing but objects under the key `bombay`. -/
  document : ∃ fields, parse (limits.parserStates - 1) protectedBytes = .document (.object fields) ∧
    (∀ event ∈ (Value.object fields).events, event.Fits limits) ∧
    (Value.object fields).nesting ≤ limits.nesting ∧ fields.Metadata

theorem Value.balanced_events (value : Value) : Balanced 0 value.events := by
  have h := @Value.balanced 0 [] trivial value
  rwa [append_nil] at h

theorem Parsed.results_eq (parsed : Parsed E) : ∃ events stop,
    parsed.results = events.map .ok ++ [stop] ∧ Balanced 0 events ∧ Stops stop ∧
      (stop = .ok .eof → ∃ value, parsed = .document value) := by
  cases parsed with
  | document value =>
    exact ⟨_, _, rfl, value.balanced_events, .inl rfl, fun _ => ⟨value, rfl⟩⟩
  | refused value n error =>
    refine ⟨_, _, rfl, ?_, .inr ⟨_, rfl, ?_⟩, nofun⟩
    · have h := value.balanced_events
      rw [← take_append_drop n value.events] at h
      exact h.of_append
    · cases error <;> nofun

theorem checkResults_cons (limits : Limits) (event : Event) (rest : Results E) :
    checkResults limits (.ok event :: rest) = if event = .startObject then scan limits rest 1
      else .error (if event.Fits limits then .outerObject else .tokenBytes) := by
  rw [checkResults, nextEvent]
  by_cases hfits : event.Fits limits
  · cases event <;> simp [hfits]
  · have hne : event ≠ .startObject := fun h => hfits (h ▸ trivial)
    simp [hfits, hne]

theorem checkResults_sound (limits : Limits) (parsed : Parsed E) :
    checkResults limits parsed.results ≠ .error .underflow ∧
      (checkResults limits parsed.results = .ok () → ∃ value, parsed = .document value) := by
  obtain ⟨events, stop, hresults, hbalanced, hstop, hdocument⟩ := parsed.results_eq
  rw [hresults]
  match events with
  | [] =>
    rcases hstop with rfl | ⟨error, rfl, herror⟩
    · exact ⟨nofun, nofun⟩
    · exact ⟨fun h => herror (Except.error.inj h), nofun⟩
  | event :: events =>
    rw [map_cons, cons_append, checkResults_cons]
    by_cases hevent : event = .startObject
    · subst hevent
      obtain ⟨hcount, hend⟩ := @scan_sound _ limits 1 _ events hstop hbalanced
      exact ⟨hcount, fun h => hdocument (hend h)⟩
    · rw [if_neg hevent]
      split <;> exact ⟨nofun, nofun⟩

theorem checkResults_document (limits : Limits) (value : Value) :
    checkResults limits (Parsed.document value : Parsed E).results = .ok () ↔
    ∃ fields, value = .object fields ∧ (∀ event ∈ (Value.object fields).events, event.Fits limits) ∧
      (Value.object fields).nesting ≤ limits.nesting ∧ fields.Metadata := by
  cases value with
  | object fields =>
    have hend : Passes limits ([.ok .endObject, .ok .eof] : Results E) 1 :=
      (passes_close (.inl rfl)).mpr ⟨Nat.zero_le _, by rw [Passes, scan_eq]; rfl⟩
    have houter :=
      (fields.passes_outer.trans (and_congr_right' (and_congr_right' (and_iff_left hend))))
    rw [Parsed.results, Value.events, map_cons, cons_append, checkResults_cons, if_pos rfl,
      map_append, append_assoc, map_singleton, singleton_append]
    refine houter.trans ?_
    have hobject : Event.startObject.Fits limits ∧ Event.endObject.Fits limits := ⟨trivial, trivial⟩
    simp [Value.events, Value.nesting, hobject, or_imp, forall_and, Nat.add_comm]
  | _ =>
    refine iff_of_false ?_ (by rintro ⟨fields, ⟨⟩, -⟩)
    rw [Parsed.results, Value.events, map_cons, cons_append, checkResults_cons]
    nofun

/-- **The check of protected JSON is exact**, and its count never underflows. -/
theorem protected_json_exact (parse : ℕ → List UInt8 → Parsed E) (limits : Limits)
    (protectedBytes proof : List UInt8) :
    (check parse limits protectedBytes proof = .ok () ↔ Accepts parse limits protectedBytes proof) ∧
      check parse limits protectedBytes proof ≠ .error .underflow := by
  obtain ⟨hcount, hdocument⟩ :=
    checkResults_sound limits (parse (limits.parserStates - 1) protectedBytes)
  rw [check]
  split
  · next h => exact ⟨iff_of_false nofun fun ha => absurd ha.input (Nat.not_le.mpr h), nofun⟩
  split
  · next h => exact ⟨iff_of_false nofun fun ha => absurd ha.proof (Nat.not_le.mpr h), nofun⟩
  next hinput hproof =>
  refine ⟨⟨fun h => ?_, fun ha => ?_⟩, hcount⟩
  · obtain ⟨value, hparse⟩ := hdocument h
    rw [hparse] at h
    obtain ⟨fields, rfl, hfields⟩ := (checkResults_document limits value).mp h
    exact ⟨Nat.not_lt.mp hinput, Nat.not_lt.mp hproof, fields, hparse, hfields⟩
  · obtain ⟨fields, hparse, hfields⟩ := ha.document
    rw [hparse]
    exact (checkResults_document limits _).mpr ⟨fields, rfl, hfields⟩

end Remote.Json
