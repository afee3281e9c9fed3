import Bombay.Entity.Acts

/-!
# Family admission

`admit`, `passivate`, `retire_entity` and the drop of a pending admission hold the admission mutex
from their first section to the interpretation of the last effect they caused, and `shutdown` closes
admission under the same mutex.  So no such call is under way once admission is closed, and none
begins after: that is `gated_run`.

`Pc.holds` marks the places at which a thread holds the mutex, `Pc.closing` those that only a
shutdown reaches, and `Gate` says what a section does to admission.
-/

set_option autoImplicit false

namespace Entity

open Machine

variable {R : LocalEntityRuntime}

/-! ## Who holds admission -/

def Return.holds : Return R → Bool
  | .release _ => true
  | _ => false

def Purpose.holds : Purpose R → Bool
  | .task ret => ret.holds
  | _ => true

def Cont.holds : Cont R → Bool
  | .interpret _ _ ret => ret.holds
  | .closeSlots .. => false

/-- The places at which a thread holds family admission. -/
def Pc.holds : Pc R → Bool
  | .dispatch .. | .route .. | .currentSlot _ | .currentActivation .. | .retirementSlot _
  | .beginRetirement .. | .release _ => true
  | .submitOrInactive _ _ purpose | .submit _ _ _ purpose => purpose.holds
  | .acquire _ _ ret | .next _ _ ret | .interpretEffect _ _ _ ret | .takeSlot _ _ _ ret
  | .retainRetired _ _ _ ret => ret.holds
  | .begin _ cont | .spawn _ cont | .track _ cont => cont.holds
  | .panicked place => place.holds
  | _ => false

@[simp] theorem After.holds_pc (after : After R) : after.pc.holds = false := by
  cases after <;> rfl

@[simp] theorem Return.holds_pc (ret : Return R) : ret.pc.holds = ret.holds := by
  rcases ret with _ | _ | _ | _ | ⟨_, _, _, _ | _, _⟩ | _ <;> rfl

@[simp] theorem Cont.holds_pc (cont : Cont R) : cont.pc.holds = cont.holds := by
  cases cont <;> rfl

@[simp] theorem Purpose.holds_ret (purpose : Purpose R) (id : R.Id)
    (installed : InstalledSlotEvidence) : (purpose.ret id installed).holds = purpose.holds := by
  cases purpose <;> rfl

/-- A task that submits its fact holds nothing, unless it is to return to a caller that does. -/
theorem holds_submitOwned (id : R.Id) (slot : Option SlotRef) (event : R.Event)
    (ret : SlotRef → Return R) (h : ∀ slot, (ret slot).holds = false) :
    (submitOwned id slot event ret).holds = false := by
  cases slot with
  | none => rfl
  | some slot => exact h slot

@[simp] theorem holds_terminated (id : R.Id) (slot : Option SlotRef) (a : ActivationId)
    (mode : RetirementMode) : (terminated id slot a mode).holds = false :=
  holds_submitOwned id slot _ _ fun _ => rfl

/-! ## Who has closed it -/

def Purpose.closing : Purpose R → Bool
  | .task ret => ret.closed
  | _ => false

def Cont.closing : Cont R → Bool
  | .interpret _ _ ret => ret.closed
  | .closeSlots .. => true

/-- The places that only a shutdown reaches, after it has closed admission. -/
def Pc.closing : Pc R → Bool
  | .claim | .waitIdle .. | .idle .. | .takeTasks .. | .join .. | .recordDrain _ | .takeFamily ..
  | .rows _ | .closeSlots .. | .hasPending .. | .sweep .. | .complete _ | .closeGroup ..
  | .report .. | .dropClaim _ => true
  | .submitOrInactive _ _ purpose | .submit _ _ _ purpose => purpose.closing
  | .acquire _ _ ret | .next _ _ ret | .interpretEffect _ _ _ ret | .takeSlot _ _ _ ret
  | .retainRetired _ _ _ ret => ret.closed
  | .begin _ cont | .spawn _ cont | .track _ cont => cont.closing
  | .panicked place => place.closing
  | _ => false

@[simp] theorem After.closing_pc (after : After R) : after.pc.closing = false := by
  cases after <;> rfl

@[simp] theorem Return.closing_pc (ret : Return R) : ret.pc.closing = ret.closed := by
  rcases ret with _ | _ | _ | _ | ⟨_, _, _, _ | _, _⟩ | _ <;> rfl

@[simp] theorem Cont.closing_pc (cont : Cont R) : cont.pc.closing = cont.closing := by
  cases cont <;> rfl

@[simp] theorem Purpose.closing_ret (purpose : Purpose R) (id : R.Id)
    (installed : InstalledSlotEvidence) :
    (purpose.ret id installed).closed = purpose.closing := by
  cases purpose <;> rfl

theorem closing_submitOwned (id : R.Id) (slot : Option SlotRef) (event : R.Event)
    (ret : SlotRef → Return R) (h : ∀ slot, (ret slot).closed = false) :
    (submitOwned id slot event ret).closing = false := by
  cases slot with
  | none => rfl
  | some slot => exact h slot

@[simp] theorem closing_terminated (id : R.Id) (slot : Option SlotRef) (a : ActivationId)
    (mode : RetirementMode) : (terminated id slot a mode).closing = false :=
  closing_submitOwned id slot _ _ fun _ => rfl

theorem Pc.isCall_gate {p : Pc R} (h : p.isCall) : p.holds = false ∧ p.closing = false := by
  cases p with
  | admitCommand | passivate | retireEntity | shutdown => exact ⟨rfl, rfl⟩
  | _ => cases h

/-! ## What a section does to admission -/

/-- What a section of thread `self`, from `p` to `p'`, does to family admission. -/
inductive Gate (s : Shared R) (self : ℕ) (p : Pc R) (s' : Shared R) (p' : Pc R) : Prop
  /-- Nothing. -/
  | pass (holder : s'.holder = s.holder) (admission : s'.admission = s.admission)
      (holds : p'.holds = p.holds) (closing : p'.closing → p.closing)
  | enter (free : s.holder = none) (opened : s.admission = .opened)
      (holder : s'.holder = some self) (admission : s'.admission = s.admission)
      (closing : p'.closing = false)
  | leave (holds : p.holds) (holder : s'.holder = none) (admission : s'.admission = s.admission)
      (holds' : p'.holds = false) (closing : p'.closing = false)
  | close (free : s.holder = none) (holder : s'.holder = none) (admission : s'.admission = .closed)
      (holds : p'.holds = false)

variable [DecidableEq R.Id] {s s' : Shared R} {self fresh : ℕ} {p p' : Pc R} {q : Option (Pc R)}
  {i : Input R}

theorem Acts.gate (h : Acts s self fresh p i s' p' q) : Gate s self p s' p' := by
  cases h with
  | admitEntered _ _ _ free opened | dropEntered _ _ _ free opened
  | passivateEntered _ free opened | retireEntered _ free opened =>
    exact .enter free opened rfl rfl rfl
  | released => exact .leave rfl rfl rfl (by simp) (by simp)
  | closed free => exact .close free free rfl rfl
  | delivered | fenced =>
    refine .pass rfl rfl (holds_submitOwned _ _ _ _ fun _ => rfl) fun hc => ?_
    rw [closing_submitOwned _ _ _ _ fun _ => rfl] at hc
    cases hc
  -- a continuation is as its caller was
  | absent | submitted | busy | emptied | transientDone | tracked | retired | recorded =>
    exact .pass rfl rfl (by simp [Pc.holds]) (by simp [Pc.closing])
  | _ =>
    refine .pass rfl rfl rfl ?_
    first
    | exact id
    | exact fun hc => by cases hc

theorem Acts.opened (h : Acts s self fresh p i s' p' q) (hopen : s'.admission = .opened) :
    s.admission = .opened := by
  cases h.gate with
  | pass _ admission | leave _ _ admission => exact admission ▸ hopen
  | enter _ opened => exact opened
  | close _ _ admission => cases admission.symm.trans hopen

theorem Acts.started (h : Acts s self fresh p i s' p' q) {r : Pc R} (hr : q = some r) :
    ∃ task cont, p = .spawn task cont ∧ r = .task task := by
  cases h with
  | spawned task cont =>
    obtain rfl := Option.some.inj hr
    exact ⟨task, cont, rfl, rfl⟩
  | _ => cases hr

/-! ## The invariant -/

/-- At most one thread is in family admission, while it is open; and a shutdown has closed it. -/
structure Gated (w : Pool (Shared R) (Pc R)) : Prop where
  held : Each (fun t p => p.holds → w.shared.holder = some t) w.threads
  opened : ∀ t, w.shared.holder = some t → w.shared.admission = .opened
  closed : Each (fun _ p => p.closing → w.shared.admission = .closed) w.threads

theorem Gated.act {w} {t : ℕ} (hw : Gated w)
    (hp : w.threads[t]? = some p) (h : Acts w.shared t w.threads.length p i s' p' q) :
    Gated ⟨s', w.threads.set t p' ++ q.toList⟩ := by
  have hself : p.holds → w.shared.holder = some t := hw.held t p hp
  have hstart {P : Pc R → Prop} (htask : ∀ task, P (.task task)) : ∀ r, q = some r → P r := by
    intro r hr
    obtain ⟨task, _, _, rfl⟩ := h.started hr
    exact htask task
  cases h.gate with
  | pass holder admission holds closing =>
    refine ⟨each_move hw.held hp (fun hpt hp' => ?_) (fun u r _ hr hh => ?_)
      (hstart fun _ hh => by cases hh), fun u hu => ?_,
      each_move hw.closed hp (fun hpt hc => ?_) (fun u r _ hr hc => ?_)
      (hstart fun _ hc => by cases hc)⟩
    · exact holder.trans (hpt (holds ▸ hp'))
    · exact holder.trans (hr hh)
    · exact admission.trans (hw.opened u (holder ▸ hu))
    · exact admission.trans (hpt (closing hc))
    · exact admission.trans (hr hc)
  | enter free opened holder admission closing =>
    refine ⟨each_move hw.held hp (fun _ _ => holder) (fun u r _ hr hh => ?_)
      (hstart fun _ hh => by cases hh), fun _ _ => admission.trans opened,
      each_move hw.closed hp (fun _ hc => ?_) (fun u r _ hr hc => admission.trans (hr hc))
      (hstart fun _ hc => by cases hc)⟩
    · cases free.symm.trans (hr hh)
    · cases closing.symm.trans hc
  | leave holds holder admission holds' closing =>
    refine ⟨each_move hw.held hp (fun _ hh => ?_) (fun u r hu hr hh => ?_)
      (hstart fun _ hh => by cases hh), fun u hu => ?_,
      each_move hw.closed hp (fun _ hc => ?_) (fun u r _ hr hc => admission.trans (hr hc))
      (hstart fun _ hc => by cases hc)⟩
    · cases holds'.symm.trans hh
    · exact absurd (Option.some.inj ((hr hh).symm.trans (hself holds))) hu
    · cases holder.symm.trans hu
    · cases closing.symm.trans hc
  | close free holder admission holds =>
    refine ⟨each_move hw.held hp (fun _ hh => ?_) (fun u r _ hr hh => ?_)
      (hstart fun _ hh => by cases hh), fun u hu => ?_,
      each_move hw.closed hp (fun _ _ => admission) (fun _ _ _ _ _ => admission)
      (hstart fun _ _ => admission)⟩
    · cases holds.symm.trans hh
    · cases free.symm.trans (hr hh)
    · cases holder.symm.trans hu

theorem gated_run {config} {hash : R.Id → ℕ} {tr} {w} (h : Reaches config hash tr w) : Gated w := by
  refine h.invariant ⟨each_nil _, fun _ hh => (by cases hh), each_nil _⟩
    (fun w p hw hp => ?_) fun _ w t i p s p' q _ hw hp hact => hw.act hp hact
  obtain ⟨hholds, hclosing⟩ := Pc.isCall_gate hp
  refine ⟨each_append (q := some p) hw.held ?_, hw.opened, each_append (q := some p) hw.closed ?_⟩
  · rintro _ ⟨⟩ hh
    cases hholds.symm.trans hh
  · rintro _ ⟨⟩ hc
    cases hclosing.symm.trans hc

end Entity
