import Bombay.Local.EnvironmentRetirement

/-!
# The slots that an actor's retirement finds

The custody of a retirement begins with slots that fit together (`LocalRetire.Fits`).  Every
operation of an actor leaves them so, whatever it was answered: `Place.Orderly` holds in every state
of an `Execution` (`Execution.orderly_run`), so the driver's calls and polls of a retirement find
such slots.
-/

set_option autoImplicit false

namespace Local

open Machine Engine Option LocalEnvironment

variable {P : ActorPort}

/-! ## Activation and application -/

/-- Where `activate` retires the environment, it was refused, and its lanes are closed from the
first poll on. -/
def ActivatePoint.Admits (e : LocalEnvironment P) : ActivatePoint → Prop
  | .retire begun => e.activationRejection.isSome ∧ (begun = true → e.ownerCancellation = none)
  | _ => True

/-- The slots that `activate` borrows. -/
structure ActivateCall.Orderly (call : ActivateCall P) (point : ActivatePoint) : Prop where
  environment : ∀ e, call.environment = some e → e.Fits ∧ point.Admits e
  received : ∀ e i, call.received = some (.ok (e, i)) → e.Fits

namespace ActivateCall

variable {call : ActivateCall P} {point : ActivatePoint} {owner : LocalEnvironment P}

theorem Orderly.put (h : call.Orderly point) {point'} (ho : owner.Fits) (hp : point'.Admits owner) :
    ActivateCall.Orderly { call with environment := some owner } point' :=
  ⟨by rintro _ ⟨⟩; exact ⟨ho, hp⟩, h.received⟩

theorem Orderly.map {f : LocalEnvironment P → LocalEnvironment P} (h : call.Orderly point)
    (hf : ∀ e, e.Fits → (f e).Fits) (hp : ∀ e, point.Admits e → point.Admits (f e)) :
    ActivateCall.Orderly { call with environment := call.environment.map f } point := by
  refine ⟨fun e he => ?_, h.received⟩
  obtain ⟨owner, howner, rfl⟩ := map_eq_some_iff.mp he
  exact (h.environment owner howner).imp (hf owner) (hp owner)

theorem enter_orderly {e} (actions : Option P.Actions) (h : e.Fits) :
    (enter ⟨some e, actions, none⟩).1.Orderly (enter ⟨some e, actions, none⟩).2 := by
  have hstart : ∀ {e : LocalEnvironment P} {actions : Option P.Actions} {b : Bool}, e.Fits →
      ActivateCall.Orderly ⟨some e, actions, none⟩ (if b then .returned else .initializing) := by
    intro e actions b he
    refine ⟨?_, fun _ _ hn => absurd hn.symm (some_ne_none _)⟩
    rintro _ ⟨⟩
    cases b <;> exact ⟨he, trivial⟩
  have hback : ActivateCall.Orderly ⟨some e, actions, none⟩ .returned := hstart (b := true) h
  unfold enter
  simp only [isSome_none, Bool.false_eq_true, if_false]
  rcases e.initialization with _ | progress <;> rcases actions with _ | actions
  · exact hback
  · exact hstart ⟨h.cancellation, h.ingress, h.residual⟩
  · exact hstart h
  · exact hback

theorem finish_orderly (h : call.Orderly point) (ho : owner.Fits) :
    (call.finish owner).1.Orderly (call.finish owner).2 := by
  unfold finish
  cases hact : owner.activated with
  | none => exact h.put ho trivial
  | some activated =>
    refine ⟨fun _ hn => absurd hn.symm (some_ne_none _), ?_⟩
    rintro e i ⟨⟩
    unfold activated at hact
    split at hact
    · split at hact
      · cases hact
        exact ⟨fun _ => rfl, nofun⟩
      · cases hact
    · cases hact

theorem bound_orderly (h : call.Orderly point) (ho : owner.Fits) :
    (call.bound owner).1.Orderly (call.bound owner).2 := by
  unfold bound
  split
  · next hrejected => exact h.put ho ⟨hrejected, nofun⟩
  · split
    · exact h.put ho trivial
    · split
      · exact h.put ho trivial
      · exact finish_orderly h ho

theorem initialized_orderly (a : ActivateAnswer P) (h : call.Orderly point) (ho : owner.Fits) :
    (call.initialized a owner).1.Orderly (call.initialized a owner).2 := by
  have hbound : ((owner.reserve a).bind a).Fits := by
    unfold LocalEnvironment.bind LocalEnvironment.reserve
    (repeat' split) <;> exact ⟨ho.cancellation, ho.ingress, ho.residual⟩
  unfold initialized
  simp only
  split
  · exact h.put hbound trivial
  · exact bound_orderly h hbound

/-- A retirement does not take back the refusal. -/
theorem receiveRetirement_rejection (entering : Bool) (a : RetirementAnswer P)
    (channel : Oneshot P.Termination) :
    (owner.receiveRetirement entering a channel).1.activationRejection =
      owner.activationRejection := by
  unfold receiveRetirement pollRetirement concludeRetirement
  simp only
  (repeat' split) <;> rfl

/-- The residual of a refused environment goes to the driver. -/
theorem refuse_orderly (begun : Bool) (a : RetirementAnswer P) (channel : Oneshot P.Termination)
    (h : call.Orderly point) (ho : owner.Fits) (hp : (ActivatePoint.retire begun).Admits owner) :
    (call.refuse begun a channel owner).1.1.Orderly (call.refuse begun a channel owner).1.2 := by
  have hrejection : _ = owner.activationRejection :=
    receiveRetirement_rejection (!begun) a channel
  have hrec := receiveRetirement_receives (!begun) a channel ho fun hb => hp.2 (by simpa using hb)
  unfold refuse
  generalize owner.receiveRetirement (!begun) a channel = r at hrejection hrec
  obtain ⟨e, channel', status⟩ := r
  obtain ⟨error, herror⟩ := isSome_iff_exists.mp (hrejection ▸ hp.1)
  cases hrec with
  | stays fits _ closed _ =>
    cases status with
    | waiting => exact h.put fits ⟨by rw [herror]; rfl, fun _ => closed rfl⟩
    | unwound => exact h.put fits trivial
    | returned =>
      simp only
      split
      · rename_i hres _
        rw [fits.residual] at hres
        cases hres
      · exact h.put fits trivial
  | ends hres hret =>
    simp only
    rw [herror, hres, hret]
    refine ⟨fun _ hn => absurd hn.symm (some_ne_none _), fun _ _ hn => ?_⟩
    cases some.inj hn

theorem commit_orderly (disposition : TerminalReportDisposition) (a : CommitAnswer P)
    (c : Capabilities P) (h : call.Orderly point) (ho : owner.Fits) :
    (call.commit disposition a owner c).1.Orderly (call.commit disposition a owner c).2 := by
  have hkept : LocalEnvironment.Fits { owner.withCapabilities (c.commit disposition a) with
      initialization := some a.progress } := ⟨ho.cancellation, ho.ingress, ho.residual⟩
  unfold commit
  simp only
  split
  · exact finish_orderly h hkept
  · exact h.put hkept trivial

end ActivateCall

namespace ApplyCall

variable {call : ApplyCall P}

theorem finish_fits (h : call.environment.Fits) : call.finish.1.environment.Fits := by
  unfold finish
  split <;> exact ⟨h.cancellation, h.inbox⟩

theorem enter_fits (h : call.environment.Fits) : call.enter.1.environment.Fits := by
  unfold enter begin
  (repeat' split) <;> first
    | exact ⟨h.cancellation, h.inbox⟩
    | exact finish_fits ⟨h.cancellation, h.inbox⟩

theorem commit_fits (disposition : TerminalReportDisposition) (a : CommitAnswer P)
    (c : Capabilities P) (h : call.environment.Fits) :
    (call.commit disposition a c).1.environment.Fits := by
  unfold commit
  simp only
  split
  · exact finish_fits ⟨h.cancellation, h.inbox⟩
  · exact ⟨h.cancellation, h.inbox⟩

end ApplyCall

/-! ## Messages, requests and acquisitions -/

theorem LocalEnvironment.arrive_fits {e : LocalEnvironment P} (lanes : Lanes P) (h : e.Fits) :
    (e.arrive lanes).Fits :=
  ⟨h.cancellation, fun hsome => by simp [arrive, h.ingress hsome], h.residual⟩

theorem LocalEnvironment.cancel_fits {e : LocalEnvironment P} (h : e.Fits) : e.cancel.Fits :=
  ⟨fun hsome => h.cancellation (by simpa [cancel] using hsome), h.ingress, h.residual⟩

namespace ActiveLocalEnvironment

variable {e : ActiveLocalEnvironment P}

theorem arrive_fits (lanes : Lanes P) (h : e.Fits) : (e.arrive lanes).Fits :=
  ⟨h.cancellation, fun hsome => by simp [arrive, h.inbox hsome]⟩

theorem cancel_fits (h : e.Fits) : e.cancel.Fits :=
  ⟨fun hsome => h.cancellation (by simpa [cancel] using hsome), h.inbox⟩

theorem serve_fits (read published : Bool) (source : Option (SourceProgress P)) (unread : Lanes P)
    (h : e.Fits) : (e.serve read published source unread).Fits := by
  refine ⟨fun hsome => ?_, fun hsome => by simp [serve, h.inbox hsome]⟩
  cases read with
  | true => simp [serve] at hsome
  | false => exact h.cancellation (by simpa [serve] using hsome)

end ActiveLocalEnvironment

/-! ## The whole actor -/

/-- The slots of the environment, wherever it is. -/
def Place.Orderly : Place P → Prop
  | .prepared e => e.Fits
  | .activating call point => call.Orderly point
  | .active e => e.Fits
  | .applying call _ => call.environment.Fits
  | .retiringPrepared call => call.Fits
  | .retiringActive call => call.Fits
  | .gone => True

namespace Execution

variable {s u : Execution P}

/-- A retirement leaves the slots so that the next poll or call finds them in order: each of its
polls is a step of `LocalRetire`. -/
theorem retire_orderly {a} (h : s.place.Orderly) (hs : s.retire a = some u) :
    u.place.Orderly := by
  obtain ⟨config, place, bound, channel, terminal, published, finished⟩ := s
  unfold retire at hs
  simp only at hs
  split at hs
  · obtain ⟨owner, howner, rfl⟩ := map_eq_some_iff.mp hs
    obtain ⟨ho, hp⟩ := h.environment owner howner
    exact ActivateCall.refuse_orderly _ a channel h ho hp
  · cases hs
    refine (PreparedRetire.Fits.call_advances ?_ a).1
    exact ⟨fun e he => some.inj he ▸ h, nofun⟩
  · cases hs
    refine (ActiveRetire.Fits.call_advances ?_ a).1
    exact ⟨fun e he => some.inj he ▸ h, nofun⟩
  · rename_i call
    split at hs
    · rename_i owner hstatus howner
      cases hs
      have hstep : LocalRetire.step (.prepared call) (.poll a) =
          some (.prepared (call.resume false a owner)) := by rw [LocalRetire.step, hstatus, howner]
      exact (LocalRetire.step_advances (s := .prepared call) h hstep).1
    · cases hs
  · rename_i call
    split at hs
    · rename_i owner settlements hstatus howner hsett
      cases hs
      have hstep : LocalRetire.step (.active call) (.poll a) =
          some (.active (call.resume a owner settlements)) := by
        rw [LocalRetire.step, hstatus, howner, hsett]
      exact (LocalRetire.step_advances (s := .active call) h hstep).1
    · cases hs
  · cases hs

/-- The driver gets back what an operation left. -/
theorem ended_orderly {reply} (h : s.place.Orderly)
    (hs : s.ended reply = some u) : u.place.Orderly := by
  obtain ⟨config, place, bound, channel, terminal, published, finished⟩ := s
  cases place with
  | activating call point =>
    simp only [ended] at hs
    split at hs
    · obtain ⟨c, _, rfl⟩ := map_eq_some_iff.mp hs
      obtain ⟨_ | owner, _, _ | _ | ⟨e, i⟩⟩ := call
      · trivial
      · trivial
      · exact h.received e i rfl
      all_goals exact (h.environment owner rfl).1
    · cases hs
  | applying call point =>
    simp only [ended] at hs
    split at hs
    · obtain ⟨c, _, rfl⟩ := map_eq_some_iff.mp hs
      exact h
    · cases hs
  | retiringPrepared call | retiringActive call =>
    simp only [ended] at hs
    split at hs
    · obtain ⟨c, _, rfl⟩ := map_eq_some_iff.mp hs
      obtain ⟨_ | e, _⟩ := call
      · trivial
      · exact h.environment e rfl
    · cases hs
  | _ => cases hs

theorem arrive_orderly {lanes : Lanes P} (h : s.place.Orderly) (hs : s.arrive lanes = some u) :
    u.place.Orderly := by
  obtain ⟨config, place, bound, channel, terminal, published, finished⟩ := s
  cases place with
  | active | applying =>
    cases hs
    exact ActiveLocalEnvironment.arrive_fits lanes h
  | activating call point =>
    cases bound with
    | true =>
      cases hs
      refine h.map (fun _ => arrive_fits lanes) fun e hp => ?_
      cases point <;> exact hp
    | false => cases hs
  | _ => cases hs

theorem cancel_orderly (h : s.place.Orderly) (hs : s.cancel = some u) : u.place.Orderly := by
  obtain ⟨config, place, bound, channel, terminal, published, finished⟩ := s
  cases place with
  | prepared => cases hs; exact cancel_fits h
  | active | applying => cases hs; exact ActiveLocalEnvironment.cancel_fits h
  | activating call point =>
    cases hs
    refine h.map (fun _ => cancel_fits) fun e hp => ?_
    cases point with
    | retire => exact hp.imp id fun hc hb => by simp [LocalEnvironment.cancel, hc hb]
    | _ => exact hp
  | _ => cases hs

theorem commit_orderly {a} (h : s.place.Orderly) (hs : s.commit a = some u) :
    u.place.Orderly := by
  obtain ⟨config, place, bound, channel, terminal, published, finished⟩ := s
  unfold commit at hs
  simp only at hs
  split at hs
  · obtain ⟨owner, howner, hs⟩ := bind_eq_some_iff.mp hs
    obtain ⟨c, _, rfl⟩ := map_eq_some_iff.mp hs
    exact ActivateCall.commit_orderly _ a c h (h.environment owner howner).1
  · obtain ⟨c, _, rfl⟩ := map_eq_some_iff.mp hs
    exact ApplyCall.commit_fits _ a c h
  · cases hs

theorem dropTerminal_place (panicking : Bool) : (s.dropTerminal panicking).place = s.place := by
  unfold dropTerminal
  simp only
  split <;> rfl

/-- Every operation keeps the slots in order. -/
theorem step_orderly {op} (h : s.place.Orderly) (hs : s.step op = some u) :
    u.place.Orderly := by
  obtain ⟨config, place, bound, channel, terminal, published, finished⟩ := s
  unfold step at hs
  split at hs
  · cases hs
  · cases op with
    | commit a => exact commit_orderly h hs
    | retire a => exact retire_orderly h hs
    | ended reply => exact ended_orderly h hs
    | arrive lanes => exact arrive_orderly h hs
    | cancel => exact cancel_orderly h hs
    | drive i =>
      simp only [advance] at hs
      split at hs
      · obtain ⟨c, _, rfl⟩ := map_eq_some_iff.mp hs
        exact h
      · cases hs
    | complete =>
      simp only [advance] at hs
      split at hs
      · cases hs
        exact (dropTerminal_place _).symm ▸ h
      · cases hs
    | cut panicking =>
      simp only [advance] at hs
      split at hs
      · cases hs
      · cases hs
        exact (dropTerminal_place _).symm ▸ h
    | activate =>
      simp only [advance, activate] at hs
      split at hs
      · cases hs
        exact ActivateCall.enter_orderly _ h
      · cases hs
    | initialized a =>
      simp only [advance, initialized] at hs
      split at hs
      · obtain ⟨owner, howner, rfl⟩ := map_eq_some_iff.mp hs
        exact ActivateCall.initialized_orderly a h (h.environment owner howner).1
      · cases hs
    | acknowledged r =>
      simp only [advance, acknowledged] at hs
      split at hs
      · obtain ⟨owner, howner, rfl⟩ := map_eq_some_iff.mp hs
        have ho := (h.environment owner howner).1
        exact ActivateCall.bound_orderly h ⟨ho.cancellation, ho.ingress, ho.residual⟩
      · cases hs
    | apply =>
      simp only [advance, apply] at hs
      split at hs
      · cases hs
        exact ApplyCall.enter_fits h
      · cases hs
    | serve read published source unread =>
      simp only [advance] at hs
      split at hs
      · cases hs
        exact ActiveLocalEnvironment.serve_fits read published source unread h
      · cases hs

variable {behavior : P.Behavior} {commitment : Bool}
variable {tr : List (Transition (Execution P) (ExecutionOp P))}

/-- **The slots of an actor's environment are in order in every state of every execution.** -/
theorem orderly_run (hrun : Run step (.start behavior commitment) tr s) : s.place.Orderly :=
  hrun.invariant ⟨fun _ => rfl, nofun, rfl⟩ fun _ _ _ h hs => step_orderly h hs

end Execution

end Local
