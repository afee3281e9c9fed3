import Mathlib.Data.List.Nodup

/-!
# Cold staging of an application

`application/composition.rs` turns the declared members of an application into staged children
before any actor starts.  `stage` goes to the end of the declaration first and issues the
identifiers on the way back; a member is staged by issuing its identifier and then dropping its
role.  It stops for good at the first identifier that is not issued and at the first role whose
destructor panics, and every member before that one is wrapped around the failure untried.

The members of the source are a nested tuple `(Role, Actor, Tail)` of different types; here they are
a list.  The crate that issues the identifiers is not part of the repository: `CreationSequence` is
what it documents.  Destructors are arbitrary, and may depend on everything that was dropped before.

`stage_conserves` is the result: nothing that was declared is lost or doubled, whichever way staging
ends.
-/

set_option autoImplicit false

namespace Application

open Prod

/-- `behavior::CreationSequence`: it may be exhausted at any time, and it never issues an identifier
twice. -/
structure CreationSequence (CreationId : Type) where
  State : Type
  new : State
  issue : State → Option CreationId × State
  /-- The identifiers issued so far. -/
  issued : State → List CreationId
  fresh : ∀ {s s' : State} {id : CreationId}, issue s = (some id, s') →
    id ∉ issued s ∧ issued s' = id :: issued s

/-- Identifiers counted up to a limit. -/
def CreationSequence.counting (limit : ℕ) : CreationSequence ℕ where
  State := ℕ
  new := 0
  issue n := if n < limit then (some n, n + 1) else (none, n)
  issued n := (List.range n).reverse
  fresh {s s' id} h := by
    split at h
    · obtain ⟨⟨⟩, rfl⟩ := Prod.mk.inj h
      simp [List.range_succ]
    · cases h

variable {Role Actor CreationId Cause World Root : Type}

/-- `Children`: the staged children, the last one first. -/
abbrev Children (CreationId Actor : Type) := List (CreationId × Actor)

/-- Where staging stopped, and what it gives back. -/
inductive ApplicationStagingError (Role Actor CreationId Cause : Type) where
  /-- The tail returned a failure; the current role and actor were never attempted. -/
  | tailRejected (role : Role) (actor : Actor)
      (tail : ApplicationStagingError Role Actor CreationId Cause)
  /-- No identifier was issued; the role, the actor and the completed tail survive. -/
  | nonceExhausted (role : Role) (actor : Actor) (children : Children CreationId Actor)
  /-- The role was consumed; the identifier, the actor, the completed tail and the cause survive. -/
  | roleDisposalPanicked (id : CreationId) (actor : Actor) (children : Children CreationId Actor)
      (cause : Cause)
  deriving DecidableEq

namespace ApplicationStagingError

/-- The actors in the custody of a failure. -/
def actors : ApplicationStagingError Role Actor CreationId Cause → List Actor
  | tailRejected _ actor tail => actor :: tail.actors
  | nonceExhausted _ actor children => actor :: children.map snd
  | roleDisposalPanicked _ actor children _ => actor :: children.map snd

/-- The roles in the custody of a failure. -/
def roles : ApplicationStagingError Role Actor CreationId Cause → List Role
  | tailRejected role _ tail => role :: tail.roles
  | nonceExhausted role _ _ => [role]
  | roleDisposalPanicked .. => []

/-- The completed tail that a failure holds. -/
def children : ApplicationStagingError Role Actor CreationId Cause → Children CreationId Actor
  | tailRejected _ _ tail => tail.children
  | nonceExhausted _ _ children => children
  | roleDisposalPanicked _ _ children _ => children

/-- The identifiers in the custody of a failure. -/
def ids : ApplicationStagingError Role Actor CreationId Cause → List CreationId
  | tailRejected _ _ tail => tail.ids
  | nonceExhausted _ _ children => children.map fst
  | roleDisposalPanicked id _ children _ => id :: children.map fst

end ApplicationStagingError

/-- A root with its application. -/
structure ApplicationBehavior (Root Actor CreationId : Type) where
  root : Root
  application : Option (Children CreationId Actor)
  deriving DecidableEq

/-- What staging works on, and what it has done: the roles whose destructors have run and the
children that have been staged, the last one first. -/
structure Stage (sequence : CreationSequence CreationId) (Role Actor World : Type) where
  creations : sequence.State
  world : World
  disposed : List Role
  staged : Children CreationId Actor

variable (sequence : CreationSequence CreationId) (drop : Role → World → Option Cause × World)

/-- `stage`: the tail first, then this member. -/
def stage : List (Role × Actor) → Stage sequence Role Actor World →
    Except (ApplicationStagingError Role Actor CreationId Cause) (Children CreationId Actor) ×
      Stage sequence Role Actor World
  | [], s => (.ok [], s)
  | (role, actor) :: tail, s =>
    match stage tail s with
    | (.error tail, s) => (.error (.tailRejected role actor tail), s)
    | (.ok children, s) =>
      match sequence.issue s.creations with
      | (none, creations) => (.error (.nonceExhausted role actor children), { s with creations })
      | (some id, creations) =>
        -- `catch_unwind` around the drop: the destructor has run, whether it panicked or not
        match drop role s.world with
        | (none, world) =>
          (.ok ((id, actor) :: children),
            ⟨creations, world, role :: s.disposed, (id, actor) :: s.staged⟩)
        | (some cause, world) =>
          (.error (.roleDisposalPanicked id actor children cause),
            ⟨creations, world, role :: s.disposed, s.staged⟩)

/-- `stage_application`. -/
def stageApplication (root : Root) (members : List (Role × Actor)) (world : World) :
    Except (Root × ApplicationStagingError Role Actor CreationId Cause)
        (ApplicationBehavior Root Actor CreationId) × Stage sequence Role Actor World :=
  match stage sequence drop members ⟨sequence.new, world, [], []⟩ with
  | (.ok application, s) => (.ok ⟨root, some application⟩, s)
  | (.error failure, s) => (.error (root, failure), s)

/-! ## Conservation -/

variable {sequence} {drop} {members : List (Role × Actor)} {s s' : Stage sequence Role Actor World}

/-- Every member has been staged. -/
structure Completed (members : List (Role × Actor)) (s s' : Stage sequence Role Actor World)
    (children : Children CreationId Actor) : Prop where
  actors : children.map snd = members.map snd
  disposed : s'.disposed = members.map fst ++ s.disposed
  staged : s'.staged = children ++ s.staged
  issued : sequence.issued s'.creations = children.map fst ++ sequence.issued s.creations
  distinct : (children.map fst).Nodup

/-- Why staging has stopped in `s'`: the sequence issued nothing after the identifiers of the
children, or the destructor of the last role panicked. -/
def ApplicationStagingError.Caused (drop : Role → World → Option Cause × World)
    (s s' : Stage sequence Role Actor World) :
    ApplicationStagingError Role Actor CreationId Cause → Prop
  | tailRejected _ _ tail => tail.Caused drop s s'
  | nonceExhausted _ _ children => ∃ creations, sequence.issue creations = (none, s'.creations) ∧
      sequence.issued creations = children.map fst ++ sequence.issued s.creations
  | roleDisposalPanicked id _ children cause =>
    (∃ role rest world, s'.disposed = role :: rest ∧ drop role world = (some cause, s'.world)) ∧
      sequence.issued s'.creations = id :: children.map fst ++ sequence.issued s.creations

/-- Staging has stopped, and the failure has everything that is left. -/
structure Retained (drop : Role → World → Option Cause × World) (members : List (Role × Actor))
    (s s' : Stage sequence Role Actor World)
    (failure : ApplicationStagingError Role Actor CreationId Cause) : Prop where
  caused : failure.Caused drop s s'
  actors : failure.actors = members.map snd
  roles : failure.roles ++ s'.disposed = members.map fst ++ s.disposed
  staged : s'.staged = failure.children ++ s.staged
  distinct : failure.ids.Nodup

theorem Completed.fresh {children} {id} {creations} (h : Completed members s s' children)
    (hid : sequence.issue s'.creations = (some id, creations)) :
    (id :: children.map fst).Nodup ∧
      sequence.issued creations = id :: children.map fst ++ sequence.issued s.creations := by
  obtain ⟨hnew, hissued⟩ := sequence.fresh hid
  rw [h.issued] at hnew hissued
  exact ⟨List.nodup_cons.mpr ⟨fun hmem => hnew (List.mem_append_left _ hmem), h.distinct⟩, hissued⟩

/-- **The two ways in which staging ends.** -/
theorem stage_ends (members : List (Role × Actor)) (s : Stage sequence Role Actor World) :
    (∃ children s', stage sequence drop members s = (.ok children, s') ∧
      Completed members s s' children) ∨
    ∃ failure s', stage sequence drop members s = (.error failure, s') ∧
      Retained drop members s s' failure := by
  induction members with
  | nil => exact .inl ⟨[], s, rfl, rfl, rfl, rfl, rfl, .nil⟩
  | cons member _ ih =>
    obtain ⟨role, actor⟩ := member
    rw [stage]
    rcases ih with ⟨children, s', heq, h⟩ | ⟨failure, s', heq, h⟩
    · -- the tail is complete: the current member is attempted
      rw [heq]
      rcases hid : sequence.issue s'.creations with ⟨_ | id, creations⟩
      · simp only [hid]
        refine .inr ⟨_, _, rfl, ⟨_, hid, h.issued⟩, ?_, ?_, h.staged, h.distinct⟩
        · exact congrArg (actor :: ·) h.actors
        · exact congrArg (role :: ·) h.disposed
      · obtain ⟨hnodup, hissued⟩ := h.fresh hid
        rcases hdrop : drop role s'.world with ⟨_ | cause, world⟩
        · simp only [hid, hdrop]
          refine .inl ⟨_, _, rfl, ?_, ?_, ?_, hissued, hnodup⟩
          · exact congrArg (actor :: ·) h.actors
          · exact congrArg (role :: ·) h.disposed
          · exact congrArg ((id, actor) :: ·) h.staged
        · simp only [hid, hdrop]
          refine .inr ⟨_, _, rfl, ⟨⟨role, _, _, rfl, hdrop⟩, hissued⟩, ?_, ?_, h.staged, hnodup⟩
          · exact congrArg (actor :: ·) h.actors
          · exact congrArg (role :: ·) h.disposed
    · -- the tail has stopped: the current member is wrapped around its failure
      rw [heq]
      refine .inr ⟨_, _, rfl, h.caused, ?_, ?_, h.staged, h.distinct⟩
      · exact congrArg (actor :: ·) h.actors
      · exact congrArg (role :: ·) h.roles

/-- What staging an application comes to, from the stage `s₀` on. -/
inductive Conserves (drop : Role → World → Option Cause × World)
    (s₀ : Stage sequence Role Actor World) (root : Root) (members : List (Role × Actor)) :
    Except (Root × ApplicationStagingError Role Actor CreationId Cause)
        (ApplicationBehavior Root Actor CreationId) × Stage sequence Role Actor World → Prop
  /-- Every declared actor is a child, under an identifier of its own that was issued for it, and
  every role has been disposed of once. -/
  | staged {children : Children CreationId Actor} {s : Stage sequence Role Actor World}
      (actors : children.map snd = members.map snd) (distinct : (children.map fst).Nodup)
      (issued : sequence.issued s.creations = children.map fst ++ sequence.issued s₀.creations)
      (disposed : s.disposed = members.map fst) :
      Conserves drop s₀ root members (.ok ⟨root, some children⟩, s)
  /-- The root is back, and the failure has its cause.  It has every declared actor once, and the
  identifiers it has are different; the roles it has and those that have been disposed of make up
  the declared ones, each once; and the children it has are those staged so far. -/
  | retained {failure : ApplicationStagingError Role Actor CreationId Cause}
      {s : Stage sequence Role Actor World} (caused : failure.Caused drop s₀ s)
      (actors : failure.actors = members.map snd) (distinct : failure.ids.Nodup)
      (roles : failure.roles ++ s.disposed = members.map fst)
      (children : failure.children = s.staged) :
      Conserves drop s₀ root members (.error (root, failure), s)

/-- **Cold staging conserves declarations**, for every pattern of exhaustion and of panicking
destructors. -/
theorem stage_conserves (root : Root) (members : List (Role × Actor)) (world : World) :
    Conserves drop ⟨sequence.new, world, [], []⟩ root members
      (stageApplication sequence drop root members world) := by
  rw [stageApplication]
  rcases stage_ends members ⟨sequence.new, world, [], []⟩ with ⟨children, s', heq, h⟩ |
    ⟨failure, s', heq, h⟩
  · rw [heq]
    exact .staged h.actors h.distinct h.issued (h.disposed.trans (List.append_nil _))
  · rw [heq]
    refine .retained h.caused h.actors h.distinct (h.roles.trans (List.append_nil _)) ?_
    exact (h.staged.trans (List.append_nil _)).symm

/-- Three members and one identifier: the last one is staged, and the first one never attempted. -/
theorem stage_conserves_exhausted :
    let drop := fun (_ : String) (_ : Unit) => ((none : Option Unit), ())
    let members := [("a", 1), ("b", 2), ("c", 3)]
    let sequence := CreationSequence.counting 1
    let r := stageApplication sequence drop "root" members ()
    r.1 = .error ("root", .tailRejected "a" 1 (.nonceExhausted "b" 2 [(0, 3)])) ∧
      Conserves drop ⟨sequence.new, (), [], []⟩ "root" members r :=
  ⟨rfl, stage_conserves _ _ _⟩

end Application
