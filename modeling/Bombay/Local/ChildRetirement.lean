import Bombay.Local.ChildSound

/-!
# The retirement of children can be taken up again

`receive_retirement` may be dropped wherever it waits and called again.  It hands out the result of
every child exactly once, over all these calls together, and the call that is driven to its end
empties the slot of the bindings.

There is one place where this fails.  The entry guard of `receive_retirement` refuses a row whose
task was joined while its notifications are still to come, and the receiver of the notifications may
answer that it is pending when the task's budget is used up, although they were sent.  A future that
is dropped there leaves a row that every later call refuses: `half_received_child_is_refused`.  For
all runs without such a drop the property holds, and that is `retirement_resumes`.
-/

set_option autoImplicit false

namespace Local

open Machine Engine List Option ChildRegistry Occurrence

variable {P : ChildPort} [DecidableEq P.Id]

abbrev ChildHistory (P : ChildPort) := List (Transition (ChildRegistry P) (ChildOp P))

/-- `receive_retirement` is called, polled or dropped. -/
def ChildOp.retires : ChildOp P → Bool
  | .retire | .run _ | .drop => true
  | _ => false

/-- The operation is suspended in a row of the occurrence at `depth`. -/
def Activity.waitsAt : Activity P → ℕ → Bool
  | .retiring (.wait depth), k => depth == k
  | _, _ => false

/-- Nothing works on the registry. -/
def Activity.isIdle : Activity P → Bool
  | .idle => true
  | _ => false

namespace ChildRegistry

variable {s u : ChildRegistry P} {os : List (Occurrence P)} {o : Occurrence P} {depth : ℕ}

/-- The entry guard would refuse none of the rows. -/
def Unguarded (s : ChildRegistry P) : Prop :=
  ∀ os, s.bindings = some os → ∀ o ∈ os, o.guarded = false

/-- The future is not dropped while a row has received its task's result and not its
notifications. -/
def CleanDrop (x : Transition (ChildRegistry P) (ChildOp P)) : Prop :=
  x.input = .drop → x.source.Unguarded

/-! ## What is handed out -/

/-- The results `es` of the first identities have gone to the lanes, and nothing else has. -/
structure HandedOut (s : ChildRegistry P) (es : List (P.Id × Emission P)) (u : ChildRegistry P) :
    Prop where
  pending : s.pending = es.map Prod.fst ++ u.pending
  exact_ : ∀ x ∈ es, x.2.Exact x.1
  retired : u.retired = s.retired ++ es.flatMap (·.2.root.toList)
  failures : u.failures = s.failures ++ es.flatMap (·.2.failure.toList)

omit [DecidableEq P.Id] in
theorem HandedOut.refl : HandedOut s [] s := ⟨rfl, by simp, by simp, by simp⟩

omit [DecidableEq P.Id] in
theorem HandedOut.snoc {es} {t} (h : HandedOut s es t)
    (hm : t.Moved u) : ∃ es', HandedOut s es' u := by
  cases hm with
  | kept hp hr hf => exact ⟨es, by rw [h.pending, hp], h.exact_, hr ▸ h.retired, hf ▸ h.failures⟩
  | emitted id e he hp hr hf =>
    refine ⟨es ++ [(id, e)], ?_, ?_, ?_, ?_⟩
    · rw [h.pending, hp, map_append, append_assoc]
      rfl
    · intro x hx
      rcases mem_append.mp hx with hx | hx
      · exact h.exact_ x hx
      · cases mem_singleton.mp hx
        exact he
    · rw [hr, h.retired, flatMap_append, flatMap_singleton, append_assoc]
    · rw [hf, h.failures, flatMap_append, flatMap_singleton, append_assoc]

theorem moved_of_retires {op : ChildOp P} (h : s.Sound) (hop : op.retires = true)
    (hstep : s.step op = some u) : s.Moved u := by
  cases op with
  | run => exact (run_spec h hstep).2
  | retire | drop =>
    rw [step] at hstep
    split at hstep
    all_goals first
      | cases hstep; exact .kept rfl rfl rfl
      | cases hstep
  | create | started | finish | abandon => cases hop

omit [DecidableEq P.Id] in
theorem standard_of_retires {op : ChildOp P} (h : op.retires = true) : op.Standard := by
  cases op with
  | started | finish => cases h
  | _ => trivial

/-- Over a run of calls, polls and drops the results go out in order, each once. -/
theorem handedOut_run {tr} (h : s.Sound) (hrun : Run step s tr u)
    (hops : ∀ x ∈ tr, x.input.retires = true) : u.Sound ∧ ∃ es, HandedOut s es u := by
  refine hrun.historyOn hops ⟨h, [], .refl⟩ ?_
  rintro _ t i u' _ ⟨ht, es, hes⟩ hop hstep
  exact ⟨ht.step (standard_of_retires hop) hstep, hes.snoc (moved_of_retires ht hop hstep)⟩

/-! ## No row is refused -/

/-- The rows that no suspended future is in. -/
def atRest (s : ChildRegistry P) (k : ℕ) (o : Occurrence P) : List P.Id :=
  if s.activity.waitsAt k then o.creationOrder.tail else o.creationOrder

/-- **The entry guard would refuse none of the rows at rest.** -/
def Calm (s : ChildRegistry P) : Prop :=
  ∀ os, s.bindings = some os → ∀ k o, os[k]? = some o → ∀ id ∈ s.atRest k o, ∀ row,
    o.creations.lookup id = some row → row.guarded = false

theorem calm_of_unguarded (h : s.Unguarded) : s.Calm := by
  intro os hos k o ho id hid row hrow
  refine unguarded_iff.mp (h os hos o (mem_of_getElem? ho)) id ?_ row hrow
  rw [atRest] at hid
  split at hid
  · exact mem_of_mem_tail hid
  · exact hid

theorem Calm.unguarded (h : s.Calm) (hw : ∀ k, s.activity.waitsAt k = false) : s.Unguarded := by
  intro os hos o ho
  obtain ⟨k, hk⟩ := getElem?_of_mem ho
  refine unguarded_iff.mpr fun id hid row hrow => h os hos k o hk id ?_ row hrow
  rw [atRest, hw k]
  exact hid

theorem Calm.put {s' : ChildRegistry P} {o' : Occurrence P} (h : s.Calm)
    (hos : s.bindings = some os)
    (hos' : s'.bindings = some (os.set depth o')) (hlt : depth < os.length)
    (hw : ∀ k, k ≠ depth → s.activity.waitsAt k = false)
    (ho' : ∀ id ∈ s'.atRest depth o', ∀ row, o'.creations.lookup id = some row →
      row.guarded = false) :
    s'.Calm := by
  intro os' hos'' k o hk id hid row hrow
  obtain rfl := some.inj (hos'.symm.trans hos'')
  by_cases hkd : k = depth
  · subst hkd
    rw [getElem?_set_self hlt] at hk
    cases hk
    exact ho' id hid row hrow
  · rw [getElem?_set_ne (Ne.symm hkd)] at hk
    refine h os hos k o hk id ?_ row hrow
    rw [atRest, hw k hkd]
    rw [atRest] at hid
    split at hid
    · exact mem_of_mem_tail hid
    · exact hid

theorem guarded_rest {id : P.Id} {rest : List P.Id} (h : s.Sound) (hc : s.Calm)
    (hos : s.bindings = some os) (ho : os[depth]? = some o) (hid : o.creationOrder = id :: rest) :
    ∀ i ∈ rest, i ≠ id ∧ ∀ row, o.creations.lookup i = some row → row.guarded = false := by
  intro i hi
  have hnodup : (id :: rest).Nodup := hid ▸ (h.ordered hos o (mem_of_getElem? ho)).nodup
  refine ⟨fun e => (nodup_cons.mp hnodup).1 (e ▸ hi), fun row hrow => ?_⟩
  refine hc os hos depth o ho i ?_ row hrow
  rw [atRest, hid]
  split
  · exact hi
  · exact mem_cons_of_mem id hi

theorem settleRow_calm {id : P.Id} {rest : List P.Id} {a : Answer P} {r : RowPoll P} (h : s.Sound)
    (hc : s.Calm) (hos : s.bindings = some os) (ho : os[depth]? = some o)
    (hw : ∀ k, k ≠ depth → s.activity.waitsAt k = false) (hid : o.creationOrder = id :: rest)
    (hr : r.Fine id a) :
    (s.settleRow os depth o id r).Calm ∧ (s.settleRow os depth o id r).activity.isIdle = false := by
  have hlt := (List.getElem?_eq_some_iff.mp ho).1
  have hrest := guarded_rest h hc hos ho hid
  cases r with
  | suspended =>
    refine ⟨hc.put hos rfl hlt hw ?_, rfl⟩
    intro i hi row' hrow'
    have hi' : i ∈ rest := by
      have : i ∈ o.creationOrder.tail := by
        simpa [atRest, settleRow, put, Activity.waitsAt, update] using hi
      rwa [hid] at this
    rw [update, lookup_insert, if_neg (hrest i hi').1] at hrow'
    exact (hrest i hi').2 row' hrow'
  | extracted =>
    obtain ⟨e, hemit, _⟩ := hr
    rw [settleRow, hemit]
    refine ⟨hc.put hos rfl hlt hw ?_, rfl⟩
    intro i hi row' hrow'
    have hi' : i ∈ rest := by
      have : i ∈ o.creationOrder.tail := hi
      rwa [hid] at this
    have hrow'' : (o.creations.erase id).lookup i = some row' := hrow'
    rw [lookup_erase, if_neg (hrest i hi').1] at hrow''
    exact (hrest i hi').2 row' hrow''
  | returned | panicked => exact hr.elim

theorem runRow_calm (entering : Bool) (a : Answer P) (h : s.Sound) (hc : s.Calm)
    (hos : s.bindings = some os) (ho : os[depth]? = some o)
    (hw : ∀ k, k ≠ depth → s.activity.waitsAt k = false)
    (hn : o.creationOrder = [] → s.activity.waitsAt depth = false) (hs : Entered entering o) :
    (s.runRow entering os depth o a).Calm ∧
    (s.runRow entering os depth o a).activity.isIdle = false := by
  rw [runRow]
  cases hid : o.creationOrder with
  | nil =>
    refine ⟨calm_of_unguarded ?_, rfl⟩
    refine hc.unguarded fun k => ?_
    by_cases hk : k = depth
    · exact hk ▸ hn hid
    · exact hw k hk
  | cons id rest =>
    obtain ⟨row, hrow, hheld⟩ := (h.ordered hos o (mem_of_getElem? ho)).held id
      (by rw [hid]; exact mem_cons_self)
    simp only [hrow]
    exact settleRow_calm h hc hos ho hw hid (hheld.receive fun he => hs he id rest row hid hrow)

theorem guarded_of_requested {os os' : List (Occurrence P)}
    (h : List.Forall₂ Occurrence.Requested os os') (hg : ∀ o ∈ os, o.guarded = false) :
    ∀ o ∈ os', o.guarded = false := by
  induction h with
  | nil => simp
  | cons hr _ ih =>
    obtain ⟨ho, hos⟩ := forall_mem_cons.mp hg
    exact forall_mem_cons.mpr ⟨hr.guarded.trans ho, ih hos⟩

/-- Entering an occurrence, the operation is not refused; it returns only at the end of the
chain. -/
theorem enter_calm (h : s.Sound) (hg : s.Unguarded) (hos : s.bindings = some os) :
    (s.enter os depth).Calm ∧
      ((s.enter os depth).activity.isIdle = true → (s.enter os depth).bindings = none) := by
  rw [enter]
  cases ho : os[depth]? with
  | none => exact ⟨calm_of_unguarded (by simp [Unguarded]), fun _ => rfl⟩
  | some o =>
    simp only [hg os hos o (mem_of_getElem? ho)]
    have hdrop : ∀ o ∈ os.drop depth, o.Ordered := fun o ho => h.ordered hos o (mem_of_mem_drop ho)
    obtain ⟨tail, htail, hreq⟩ := requestAll_of_ordered hdrop
    rw [htail]
    refine ⟨calm_of_unguarded ?_, by simp [Activity.isIdle]⟩
    rintro _ ⟨⟩ o' ho'
    rcases mem_append.mp ho' with ho' | ho'
    · exact hg os hos o' (mem_of_mem_take ho')
    · exact guarded_of_requested hreq (fun o ho => hg os hos o (mem_of_mem_drop ho)) o' ho'

/-- **A poll keeps the registry calm**, and the operation returns only with the slot empty. -/
theorem run_calm {a : Answer P} (h : s.Sound) (hc : s.Calm) (hstep : s.step (.run a) = some u) :
    u.Calm ∧ (u.activity.isIdle = true → u.bindings = none) := by
  cases run_cases h hstep with
  | entered _ _ hact hos _ _ hu =>
    rw [hu]
    exact enter_calm h (hc.unguarded fun k => by rw [hact]; rfl) hos
  | looped entering depth _ o hact hos ho _ hnil hs hu =>
    have hw : ∀ k, k ≠ depth → s.activity.waitsAt k = false := by
      intro k hk
      rw [hact]
      cases entering with
      | true => rfl
      | false => exact beq_eq_false_iff_ne.mpr (Ne.symm hk)
    have hn : o.creationOrder = [] → s.activity.waitsAt depth = false := by
      intro hempty
      rw [hact]
      cases entering with
      | true => rfl
      | false => exact absurd hempty (hnil rfl)
    obtain ⟨hc', hi⟩ := runRow_calm entering a h hc hos ho hw hn hs
    rw [hu]
    exact ⟨hc', fun hidle => absurd (hi.symm.trans hidle) nofun⟩

theorem Calm.step {op : ChildOp P} (h : s.Sound) (hc : s.Calm) (hop : op.retires = true)
    (hd : CleanDrop ⟨s, op, u⟩) (hstep : s.step op = some u) : u.Calm := by
  cases op with
  | run => exact (run_calm h hc hstep).1
  | retire =>
    rw [ChildRegistry.step] at hstep
    split at hstep
    · rename_i hidle _
      cases hstep
      exact calm_of_unguarded (hc.unguarded fun k => by rw [hidle]; rfl)
    · cases hstep
      exact hc
    · cases hstep
  | drop =>
    rw [ChildRegistry.step] at hstep
    split at hstep
    · cases hstep
      exact calm_of_unguarded (hd rfl)
    · cases hstep
  | create | started | finish | abandon => cases hop

/-! ## A call that is driven to its end -/

/-- The polls that are needed from the occurrence at `depth` on. -/
def rest (os : List (Occurrence P)) (depth : ℕ) : ℕ :=
  ((os.drop depth).map fun o => 2 + o.creationOrder.length).sum

/-- The polls that a call needs to its end, if all of them are answered. -/
def remaining (s : ChildRegistry P) : ℕ :=
  match s.activity, s.bindings with
  | .retiring (.enter depth), some os => rest os depth + 1
  | .retiring (.row depth), some os | .retiring (.wait depth), some os => rest os depth
  | _, _ => 0

omit [DecidableEq P.Id] in
theorem rest_eq (ho : os[depth]? = some o) :
    rest os depth = 2 + o.creationOrder.length + rest os (depth + 1) := by
  obtain ⟨hlt, rfl⟩ := List.getElem?_eq_some_iff.mp ho
  rw [rest, drop_eq_getElem_cons hlt, map_cons, sum_cons, rest]

omit [DecidableEq P.Id] in
theorem rest_set {o'} (ho : os[depth]? = some o) :
    rest (os.set depth o') depth = 2 + o'.creationOrder.length + rest os (depth + 1) := by
  rw [rest_eq (getElem?_set_some ho), rest, rest, drop_set_of_lt (Nat.lt_succ_self depth)]

theorem rest_requested {tail} (hle : depth ≤ os.length)
    (h : List.Forall₂ Occurrence.Requested (os.drop depth) tail) :
    rest (os.take depth ++ tail) depth = rest os depth := by
  have hlen : (os.take depth).length = depth := length_take_of_le hle
  rw [rest, rest, drop_append_of_le_length (Nat.le_of_eq hlen.symm), drop_take_self, nil_append]
  generalize os.drop depth = front at h
  induction h with
  | nil => rfl
  | cons hr _ ih => rw [map_cons, map_cons, sum_cons, sum_cons, hr.order, ih]

/-- A poll leaves a call at an await or at its end, and not further from the end; an answered one
brings it nearer. -/
structure Nears (a : Answer P) (n : ℕ) (u : ChildRegistry P) : Prop where
  activity : u.activity = .idle ∨ ∃ point, u.activity = .retiring point
  le : u.remaining ≤ n
  lt : a.ready = true → u.remaining < n

theorem runRow_nears {entering : Bool} {a : Answer P} (h : s.Sound) (hos : s.bindings = some os)
    (ho : os[depth]? = some o) (hs : Entered entering o) :
    Nears a (rest os depth) (s.runRow entering os depth o a) := by
  have hrest := rest_eq ho
  rw [runRow]
  cases hid : o.creationOrder with
  | nil =>
    rw [hid, length_nil] at hrest
    refine ⟨.inr ⟨_, rfl⟩, ?_, fun _ => ?_⟩
    all_goals
      simp only [remaining, hos]
      omega
  | cons id ids =>
    obtain ⟨row, hrow, hheld⟩ := (h.ordered hos o (mem_of_getElem? ho)).held id
      (by rw [hid]; exact mem_cons_self)
    have hfine : (row.receive entering a s.descendantReport).Fine id a :=
      hheld.receive fun he => hs he id ids row hid hrow
    simp only [hrow]
    generalize row.receive entering a s.descendantReport = r at hfine
    cases r with
    | suspended row' =>
      have hset : rest (os.set depth (o.update id row')) depth = _ := rest_set ho
      have hlen : (o.update id row').creationOrder.length = o.creationOrder.length := rfl
      refine ⟨.inr ⟨_, rfl⟩, ?_, fun hready => by simp [hfine.2.2] at hready⟩
      show rest (os.set depth (o.update id row')) depth ≤ _
      omega
    | extracted =>
      obtain ⟨e, hemit, _⟩ := hfine
      rw [settleRow, hemit]
      have hlen : o.creationOrder.tail.length + 1 = o.creationOrder.length := by rw [hid]; rfl
      refine ⟨.inr ⟨_, rfl⟩, ?_, fun _ => ?_⟩
      · show rest (os.set depth _) depth ≤ _
        rw [rest_set ho]
        simp only
        omega
      · show rest (os.set depth _) depth < _
        rw [rest_set ho]
        simp only
        omega
    | returned | panicked => exact hfine.elim

theorem run_nears {a : Answer P} (h : s.Sound) (hstep : s.step (.run a) = some u) :
    Nears a s.remaining u := by
  cases run_cases h hstep with
  | entered depth os hact hos _ hle hu =>
    have hs : s.remaining = rest os depth + 1 := by rw [remaining, hact, hos]
    rw [hs, hu, enter]
    cases ho : os[depth]? with
    | none => exact ⟨.inl rfl, Nat.zero_le _, fun _ => Nat.succ_pos _⟩
    | some o =>
      simp only
      split
      · exact ⟨.inl rfl, Nat.zero_le _, fun _ => Nat.succ_pos _⟩
      · have hdrop : ∀ o ∈ os.drop depth, o.Ordered := fun o ho =>
          h.ordered hos o (mem_of_mem_drop ho)
        obtain ⟨tail, htail, hreq⟩ := requestAll_of_ordered hdrop
        have hrest := rest_requested hle hreq
        rw [htail]
        exact ⟨.inr ⟨_, rfl⟩, Nat.le_succ_of_le (Nat.le_of_eq hrest),
          fun _ => Nat.lt_succ_of_le (Nat.le_of_eq hrest)⟩
  | looped entering depth os _ hact hos ho _ _ hs hu =>
    have hs' : s.remaining = rest os depth := by
      rw [remaining, hact, hos]
      cases entering <;> rfl
    rw [hs', hu]
    exact runRow_nears h hos ho hs

theorem run_enabled {point} (h : s.Sound) (hs : s.activity = .retiring point)
    (a : Answer P) : ∃ u, s.step (.run a) = some u := by
  have hfits := h.fits
  rw [hs] at hfits
  obtain ⟨os, hos, _⟩ := hfits
  exact ⟨s.run os a point, by rw [step, hs, hos]⟩

theorem remaining_pos {point} (h : s.Sound) (hs : s.activity = .retiring point) :
    0 < s.remaining := by
  have hfits := h.fits
  rw [hs] at hfits
  obtain ⟨os, hos, hfits⟩ := hfits
  cases point with
  | enter =>
    rw [remaining, hs, hos]
    exact Nat.succ_pos _
  | row depth =>
    have := rest_eq (getElem?_eq_getElem hfits.2)
    rw [remaining, hs, hos]
    show 0 < rest os depth
    omega
  | wait depth =>
    obtain ⟨_, o, _, _, _, ho, _⟩ := hfits
    have := rest_eq ho
    rw [remaining, hs, hos]
    show 0 < rest os depth
    omega

/-- **A call that is driven reaches its end**: it takes no more answered polls than remain, however
many polls in between are pending, and it leaves the slot empty. -/
theorem driven (as : List (Answer P)) : ∀ {s : ChildRegistry P} {point : RetirePoint},
    s.Sound → s.Calm →
    s.activity = .retiring point → s.remaining ≤ as.countP Answer.ready →
    ∃ k tr u, Run step s tr u ∧ tr.map Transition.input = (as.take k).map .run ∧
      u.activity = .idle ∧ u.bindings = none := by
  induction as with
  | nil =>
    intro s point h _ hs hle
    have := remaining_pos h hs
    rw [countP_nil] at hle
    omega
  | cons a as ih =>
    intro s point h hc hs hle
    obtain ⟨u, hstep⟩ := run_enabled h hs a
    obtain ⟨hc', hret⟩ := run_calm h hc hstep
    have hu := (run_spec h hstep).1
    have hrem := run_nears h hstep
    rcases hrem.activity with hidle | ⟨point', hretiring⟩
    · exact ⟨1, [⟨s, .run a, u⟩], u, .single hstep, rfl, hidle, hret (by rw [hidle]; rfl)⟩
    · have hle' : u.remaining ≤ as.countP Answer.ready := by
        rw [countP_cons] at hle
        by_cases hready : a.ready = true
        · have := hrem.lt hready
          rw [if_pos hready] at hle
          omega
        · have := hrem.le
          rw [if_neg hready] at hle
          omega
      obtain ⟨k, tr, w, hrun, htr, hw⟩ := ih hu hc' hretiring hle'
      refine ⟨k + 1, ⟨s, .run a, u⟩ :: tr, w, (Run.single hstep).append hrun, ?_, hw⟩
      rw [map_cons, htr, take_succ_cons, map_cons]

/-! ## All calls together -/

/-- The registry as a call of `receive_retirement` finds it. -/
def called (s : ChildRegistry P) : ChildRegistry P := { s with activity := .retiring (.enter 0) }

theorem step_retire (hidle : s.activity = .idle) (hos : s.bindings = some os) :
    step s .retire = some s.called := by
  obtain ⟨bindings, _, _, _, _, activity⟩ := s
  cases hidle
  cases hos
  rfl

/-- **The retirement of children can be taken up again.**  The registry came from `s₀` to `s` by
calls of `receive_retirement`, their polls and their drops. -/
structure Resumable (s₀ : ChildRegistry P) (tr : ChildHistory P) (s : ChildRegistry P) : Prop where
  /-- A call returns only with the slot of the bindings empty, not with children still owned. -/
  returns : ∀ x ∈ tr, ∀ a, x.input = .run a → x.target.activity = .idle → x.target.bindings = none
  /-- The results of the first children went out, in order, each exactly once. -/
  conserves : ∃ es, HandedOut s₀ es s
  /-- One more call, polled until it returns, empties the slot; by then the results of all children
  went out, each exactly once. -/
  completes : s.activity = .idle → s.bindings.isSome → ∀ as : List (Answer P),
    s.called.remaining ≤ as.countP Answer.ready →
    ∃ k tr' u, Run step s tr' u ∧ tr'.map Transition.input = .retire :: (as.take k).map .run ∧
      u.activity = .idle ∧ u.bindings = none ∧
      ∃ es, s₀.pending = es.map Prod.fst ∧ HandedOut s₀ es u

theorem calm_run {s₀} {tr} (h₀ : s₀.Sound) (hc₀ : s₀.Calm)
    (hrun : Run step s₀ tr s) (hops : ∀ x ∈ tr, x.input.retires = true ∧ CleanDrop x) :
    s.Sound ∧ s.Calm := by
  refine hrun.historyOn hops ⟨h₀, hc₀⟩ ?_
  rintro _ t i u _ ⟨ht, hct⟩ ⟨hop, hd⟩ hstep
  exact ⟨ht.step (standard_of_retires hop) hstep, hct.step ht hop hd hstep⟩

theorem retirement_resumes {s₀ : ChildRegistry P} {tr : ChildHistory P} (h₀ : s₀.Sound)
    (hg : s₀.Unguarded) (hrun : Run step s₀ tr s) (hops : ∀ x ∈ tr, x.input.retires = true)
    (hclean : ∀ x ∈ tr, CleanDrop x) : Resumable s₀ tr s := by
  have hc₀ : s₀.Calm := calm_of_unguarded hg
  have hboth : ∀ x ∈ tr, x.input.retires = true ∧ CleanDrop x :=
    fun x hx => ⟨hops x hx, hclean x hx⟩
  obtain ⟨hs, hc⟩ := calm_run h₀ hc₀ hrun hboth
  obtain ⟨es, hes⟩ := (handedOut_run h₀ hrun hops).2
  refine ⟨?_, ⟨es, hes⟩, ?_⟩
  · intro x hx a hxa hret
    obtain ⟨pre, post, rfl, hpre, hstep⟩ := hrun.of_mem hx
    obtain ⟨ht, hct⟩ := calm_run h₀ hc₀ hpre fun y hy => hboth y (mem_append_left _ hy)
    rw [hxa] at hstep
    exact (run_calm ht hct hstep).2 (by rw [hret]; rfl)
  · intro hsidle hsome as hle
    obtain ⟨os, hos⟩ := isSome_iff_exists.mp hsome
    have hcall := step_retire hsidle hos
    have hcalled : s.called.Sound := hs.step (show ChildOp.Standard .retire from trivial) hcall
    obtain ⟨k, tr', u, hrun', htr', hu, hnone⟩ := driven as hcalled
      (hc.step hs (show ChildOp.retires .retire = true from rfl) nofun hcall) rfl hle
    have hwhole : Run step s (⟨s, .retire, s.called⟩ :: tr') u := (Run.single hcall).append hrun'
    have hops' : ∀ x ∈ (⟨s, .retire, s.called⟩ :: tr' : ChildHistory P),
        x.input.retires = true := by
      intro x hx
      rcases mem_cons.mp hx with rfl | hx
      · rfl
      · have := mem_map_of_mem (f := Transition.input) hx
        rw [htr'] at this
        obtain ⟨a, _, ha⟩ := mem_map.mp this
        rw [← ha]
        rfl
    obtain ⟨es', hes'⟩ := (handedOut_run h₀ (hrun.append hwhole) fun x hx =>
      (mem_append.mp hx).elim (hops x) (hops' x)).2
    refine ⟨k, _, u, hwhole, by rw [map_cons, htr'], hu, hnone, es', ?_, hes'⟩
    have hp := hes'.pending
    rw [pending, pending, hnone] at hp
    rw [pending, hp]
    exact append_nil _

end ChildRegistry

/-! ## A child that is refused -/

/-- One occurrence, in which child `0` was established and child `1` is still starting. -/
def twoChildren : ChildRegistry numberChildren :=
  { new 1 with
    bindings := some [⟨.insert 0 (.established ⟨.birth, 10, 0⟩ 5 (.fresh (some ⟨true, .armed⟩)))
      (.insert 1 (.starting ⟨.birth, 11, 1⟩ (some ⟨true, .armed⟩)) ∅), [0, 1]⟩] }

/-- No poll is answered. -/
def unanswered : Answer numberChildren := ⟨none, none, none, none, none, none⟩

/-- The task of an established child was joined, with the root `7`; its notifications were sent, but
the receiver answers that it is pending. -/
def joinedOnly : Answer numberChildren := { unanswered with projected := some (.ok (.ok 7)) }

/-- Every poll is answered. -/
def answered : Answer numberChildren where
  projected := some (.ok (.ok 7))
  receipts := some (.ok ⟨.ok (), .ok ()⟩)
  published := some .clear
  joined := some (.error 3)
  notification := some (.ok (.ok ()))
  projection := some (.ok 8)

theorem twoChildren_sound : twoChildren.Sound where
  ordered := by
    rintro _ ⟨⟩ o ho
    cases mem_singleton.mp ho
    refine ⟨by decide, ?_, ?_⟩
    · intro i hi
      rcases mem_cons.mp hi with rfl | hi
      · exact ⟨_, rfl, .established _ _ (.running .armed)⟩
      · cases mem_singleton.mp hi
        exact ⟨_, rfl, .starting _ .armed⟩
    · intro i row hrow _
      rcases (AList.mem_insert _).mp (AList.lookup_isSome.mp (isSome_of_eq_some hrow)) with
        rfl | hi
      · exact mem_cons_self
      · rcases (AList.mem_insert _).mp hi with rfl | hi
        · exact mem_cons_of_mem 0 mem_cons_self
        · exact absurd hi (AList.notMem_empty i)
  fits := trivial

theorem twoChildren_unguarded : twoChildren.Unguarded := by
  rintro _ ⟨⟩ o ho
  cases mem_singleton.mp ho
  decide +kernel

/-- The first call is dropped where it waits for child `0`, which nothing was received from. -/
theorem retirement_resumes_dropped :
    ∃ tr s, Run (ChildRegistry.step (P := numberChildren)) twoChildren tr s ∧
    s.activity.isIdle = true ∧ s.pending = [0, 1] ∧ ChildRegistry.Resumable twoChildren tr s := by
  have h : ((exec (ChildRegistry.step (P := numberChildren)) twoChildren
      [.retire, .run unanswered, .run unanswered, .drop]).map fun p =>
        (p.2.activity.isIdle, p.2.pending, p.1.all fun x => x.input.retires,
          p.1.all fun x => x.source.bindings.all fun os => os.all fun o => !o.guarded)) =
      some (true, [0, 1], true, true) := by decide +kernel
  obtain ⟨⟨tr, s⟩, hexec, heq⟩ := map_eq_some_iff.mp h
  obtain ⟨hidle, hpend, hops, hclean⟩ : _ ∧ _ ∧ _ ∧ _ := by simpa only [Prod.mk.injEq] using heq
  refine ⟨tr, s, exec_run hexec, hidle, hpend,
    retirement_resumes twoChildren_sound twoChildren_unguarded (exec_run hexec)
      (all_eq_true.mp hops) ?_⟩
  intro x hx _ os hos o ho
  have hx := all_eq_true.mp hclean x hx
  rw [hos] at hx
  simpa using all_eq_true.mp hx o ho

/-- `run`, with which a call may return. -/
def ChildOp.isRun : ChildOp P → Bool
  | .run _ => true
  | _ => false

/-- **A child whose task was joined and whose notifications are awaited is refused.**  The first
call joins child `0`, the receiver of its notifications answers that it is pending, and the call is
dropped.  The second call finds every poll answered, and returns with both children still owned. -/
theorem half_received_child_is_refused :
    ∃ tr s, Run (ChildRegistry.step (P := numberChildren)) twoChildren tr s ∧
    (∀ x ∈ tr, x.input.retires = true) ∧
      s.activity.isIdle = true ∧ s.pending = [0, 1] ∧
        ¬ ChildRegistry.Resumable twoChildren tr s := by
  have h : ((exec (ChildRegistry.step (P := numberChildren)) twoChildren
      [.retire, .run unanswered, .run joinedOnly, .drop, .retire, .run answered]).map fun p =>
        (p.2.activity.isIdle, p.2.pending, p.1.all fun x => x.input.retires,
          p.1.any fun x => x.input.isRun && x.target.activity.isIdle && x.target.bindings.isSome)) =
      some (true, [0, 1], true, true) := by decide +kernel
  obtain ⟨⟨tr, s⟩, hexec, heq⟩ := map_eq_some_iff.mp h
  obtain ⟨hidle, hpend, hops, hany⟩ : _ ∧ _ ∧ _ ∧ _ := by simpa only [Prod.mk.injEq] using heq
  refine ⟨tr, s, exec_run hexec, all_eq_true.mp hops, hidle, hpend, fun hres => ?_⟩
  obtain ⟨⟨source, input, target⟩, hx, hret⟩ := any_eq_true.mp hany
  simp only [Bool.and_eq_true] at hret
  obtain ⟨⟨hrun, hidle⟩, hsome⟩ := hret
  cases input with
  | run a =>
    have hactivity : target.activity = .idle := by
      cases hact : target.activity with
      | idle => rfl
      | _ => rw [hact] at hidle; cases hidle
    have hnone : target.bindings = none := hres.returns _ hx a rfl hactivity
    rw [hnone] at hsome
    cases hsome
  | _ => cases hrun

/-- **From a new registry on, the order of the children and their rows agree, and no operation comes
to a branch that panics**, however often creations and retirements are dropped where they wait. -/
theorem children_stay_ordered {n : ℕ} {tr : ChildHistory P} {u : ChildRegistry P}
    (hrun : Run ChildRegistry.step (.new n) tr u) (htr : ∀ x ∈ tr, x.input.Standard) :
    (∀ os, u.bindings = some os → ∀ o ∈ os, o.Ordered) ∧ u.activity ≠ .panicked := by
  have h : u.Sound := hrun.historyOn (P := fun _ u => u.Sound) htr (sound_new n)
    fun _ _ _ _ _ ih hop hstep => ih.step hop hstep
  refine ⟨fun os hos => h.ordered hos, fun hpanicked => ?_⟩
  have hfits := h.fits
  rw [hpanicked] at hfits
  exact hfits

/-- What is left of a child whose behavior refused its initialization. -/
def refusedStartup : Answer numberChildren :=
  { unanswered with
    joined := some (.ok (.retired ⟨9, ⟨.prepared, none, none, none, none, ⟨[], []⟩, [], ⟨[], []⟩,
      .noFailuresFound, .clear, [], none, [], none⟩, .error (.behavior 2), []⟩))
    notification := some (.ok (.ok ())) }

/-- The creation of child `4` is dropped as it waits for the commitment, the startup of child `5`
fails, and child `6` is established.  The first retirement is dropped in child `4`, the second has
handed it out. -/
def threeCreations : List (ChildOp numberChildren) :=
  [.create 0 ⟨4, .birth, 0, 9⟩ (.ok 10), .abandon,
    .create 0 ⟨5, .birth, 1, 9⟩ (.ok 11), .started (.error .closed) false, .finish refusedStartup,
    .create 0 ⟨6, .birth, 2, 9⟩ (.ok 12), .started (.ok 3) true,
    .retire, .run unanswered, .run unanswered, .drop, .retire, .run answered, .run answered]

theorem children_stay_ordered_retired :
    ∃ tr u, Run (ChildRegistry.step (P := numberChildren)) (.new 1) tr u ∧
      tr.map Transition.input = threeCreations ∧ (∀ x ∈ tr, x.input.Standard) ∧
      u.pending = [6] ∧ u.failures.length = 1 ∧ u.settled.length = 2 ∧
      (∀ os, u.bindings = some os → ∀ o ∈ os, o.Ordered) ∧ u.activity ≠ .panicked := by
  have h : ((exec (ChildRegistry.step (P := numberChildren)) (.new 1) threeCreations).map fun p =>
      (p.2.pending, p.2.failures.length, p.2.settled.length)) =
      some ([6], 1, 2) := by decide +kernel
  obtain ⟨⟨tr, u⟩, hexec, heq⟩ := map_eq_some_iff.mp h
  simp only [Prod.mk.injEq] at heq
  have hinputs : tr.map Transition.input = threeCreations := (exec_spec hexec).2
  have hall : ∀ op ∈ threeCreations, op.Standard := by
    simp only [threeCreations, forall_mem_cons]
    refine ⟨trivial, trivial, trivial, trivial, ?_, trivial, rfl, ?_⟩
    · rintro _ ⟨⟩ c n
      rfl
    · simp [ChildOp.Standard]
  have htr : ∀ x ∈ tr, x.input.Standard := fun x hx =>
    hall _ (hinputs ▸ mem_map_of_mem hx)
  exact ⟨tr, u, exec_run hexec, hinputs, htr, heq.1, heq.2.1, heq.2.2,
    children_stay_ordered (exec_run hexec) htr⟩

end Local
