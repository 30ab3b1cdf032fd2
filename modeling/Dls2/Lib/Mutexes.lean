import Mathlib.Data.Finset.Max
import Mathlib.Logic.Function.Basic
import Dls2.Lib.Transition

/-!
# Threads that hold at most two mutexes

A thread runs a list of blocks. A block locks one mutex, or an outer one and an inner one while it
holds the outer one. To lock and to unlock a mutex is one step each, and a mutex that is held cannot
be locked, not even by the thread that holds it.

`exists_deadlocked_iff` says which programs can deadlock: those with a knot, a set of threads each
of which has a nested block whose inner mutex is the outer mutex of another one of these blocks.
-/

namespace Dls2.Mutexes

open Dls2.Transition

universe u v

inductive Block (Mutex : Type u) where
  | single (mutex : Mutex)
  | nested (outer inner : Mutex)
deriving DecidableEq, Repr

/-- Where a thread is in its block. -/
inductive Place (Mutex : Type u) where
  | between
  | inSingle (mutex : Mutex)
  /-- The inner mutex is about to be locked. -/
  | inOuter (outer inner : Mutex)
  | inInner (outer inner : Mutex)
  /-- The inner mutex is unlocked again. -/
  | leaving (outer : Mutex)
deriving DecidableEq, Repr

/-- The mutexes that are locked at a place, in the order in which they were. -/
def Place.held {Mutex : Type u} : Place Mutex → List Mutex
  | .between => []
  | .inSingle mutex => [mutex]
  | .inOuter outer _ | .leaving outer => [outer]
  | .inInner outer inner => [outer, inner]

inductive Action (Mutex : Type u) where
  | lock (mutex : Mutex)
  | unlock (mutex : Mutex)
deriving DecidableEq, Repr

structure Thread (Mutex : Type u) where
  place : Place Mutex
  /-- The blocks that it has not begun. -/
  rest : List (Block Mutex)
deriving DecidableEq, Repr

/-- What the thread does next, and where it is after that. -/
def Thread.next {Mutex : Type u} : Thread Mutex → Option (Action Mutex × Thread Mutex)
  | ⟨.between, []⟩ => none
  | ⟨.between, .single mutex :: rest⟩ => some (.lock mutex, ⟨.inSingle mutex, rest⟩)
  | ⟨.between, .nested outer inner :: rest⟩ => some (.lock outer, ⟨.inOuter outer inner, rest⟩)
  | ⟨.inSingle mutex, rest⟩ => some (.unlock mutex, ⟨.between, rest⟩)
  | ⟨.inOuter outer inner, rest⟩ => some (.lock inner, ⟨.inInner outer inner, rest⟩)
  | ⟨.inInner outer inner, rest⟩ => some (.unlock inner, ⟨.leaving outer, rest⟩)
  | ⟨.leaving outer, rest⟩ => some (.unlock outer, ⟨.between, rest⟩)

structure State (ThreadId : Type u) (Mutex : Type v) where
  owner : Mutex → Option ThreadId
  threads : ThreadId → Thread Mutex

variable {ThreadId : Type u} {Mutex : Type v}

section System

variable [eqThread : DecidableEq ThreadId] [eqMutex : DecidableEq Mutex]

/-- No mutex is held. -/
def free (threads : ThreadId → Thread Mutex) : State ThreadId Mutex := ⟨fun _ => none, threads⟩

/-- The next step of a thread; `none` while the mutex that it locks is held. -/
def step (state : State ThreadId Mutex) (thread : ThreadId) : Option (State ThreadId Mutex) :=
  match (state.threads thread).next with
  | none => none
  | some (.lock mutex, later) =>
    if state.owner mutex = none then
      some {
        owner := Function.update state.owner mutex (some thread)
        threads := Function.update state.threads thread later }
    else none
  | some (.unlock mutex, later) =>
    some {
      owner := Function.update state.owner mutex none
      threads := Function.update state.threads thread later }

def lockSystem (programs : ThreadId → List (Block Mutex)) :
    System (State ThreadId Mutex) ThreadId where
  initial := free fun thread => ⟨.between, programs thread⟩
  step := step

end System

/-- The mutex that a thread locks next. -/
def State.wants (state : State ThreadId Mutex) (thread : ThreadId) : Option Mutex :=
  match (state.threads thread).next with
  | some (.lock mutex, _) => some mutex
  | _ => none

/-- Each of the threads waits for a mutex that is held by one of them. -/
structure Deadlocked (state : State ThreadId Mutex) (waiting : Finset ThreadId) : Prop where
  nonempty : waiting.Nonempty
  blocked : ∀ thread ∈ waiting, ∃ mutex, state.wants thread = some mutex ∧
    ∃ holder ∈ waiting, state.owner mutex = some holder

/-- The thread waits for a mutex that it holds. -/
def State.WaitsForItself (state : State ThreadId Mutex) (thread : ThreadId) : Prop :=
  ∃ mutex, state.wants thread = some mutex ∧ state.owner mutex = some thread

/-- Nested blocks, one of each thread of a set: their outer mutexes differ, and each inner mutex is
an outer one. -/
structure Knot (programs : ThreadId → List (Block Mutex)) (threads : Finset ThreadId)
    (outer inner : ThreadId → Mutex) : Prop where
  nonempty : threads.Nonempty
  distinct : Set.InjOn outer threads
  nested : ∀ thread ∈ threads, .nested (outer thread) (inner thread) ∈ programs thread
  closed : ∀ thread ∈ threads, ∃ holder ∈ threads, outer holder = inner thread

/-- A block that locks one mutex twice. -/
def Block.Doubled : Block Mutex → Prop
  | .single _ => False
  | .nested outer inner => outer = inner

instance Block.decidableDoubled [eqMutex : DecidableEq Mutex] :
    (block : Block Mutex) → Decidable block.Doubled
  | .single _ => isFalse id
  | .nested outer inner => inferInstanceAs (Decidable (outer = inner))

/-- The blocks of a thread that it has not finished; one that only has mutexes to unlock is. -/
def Thread.unfinished : Thread Mutex → List (Block Mutex)
  | ⟨.inOuter outer inner, rest⟩ => .nested outer inner :: rest
  | ⟨_, rest⟩ => rest

/-! ### One step -/

section Threads

variable {now later : Thread Mutex} {mutex : Mutex} {action : Action Mutex}

theorem Thread.held_of_lock (ahead : now.next = some (.lock mutex, later)) :
    later.place.held = now.place.held ++ [mutex] := by
  fun_cases Thread.next now with
  | case1 => simp [Thread.next] at ahead
  | case2 | case3 | case5 =>
    simp only [Thread.next, Option.some.injEq, Prod.mk.injEq, Action.lock.injEq] at ahead
    obtain ⟨rfl, rfl⟩ := ahead
    rfl
  | case4 | case6 | case7 => simp [Thread.next] at ahead

theorem Thread.held_of_unlock (ahead : now.next = some (.unlock mutex, later)) :
    now.place.held = later.place.held ++ [mutex] := by
  fun_cases Thread.next now with
  | case1 => simp [Thread.next] at ahead
  | case2 | case3 | case5 => simp [Thread.next] at ahead
  | case4 | case6 | case7 =>
    simp only [Thread.next, Option.some.injEq, Prod.mk.injEq, Action.unlock.injEq] at ahead
    obtain ⟨rfl, rfl⟩ := ahead
    rfl

/-- A thread that holds a mutex and locks another one does so inside a nested block. -/
theorem Thread.inOuter_of_lock (ahead : now.next = some (.lock mutex, later))
    (holds : now.place.held ≠ []) : ∃ outer, now.place = .inOuter outer mutex := by
  fun_cases Thread.next now with
  | case1 | case2 | case3 => exact absurd rfl holds
  | case4 | case6 | case7 => simp [Thread.next] at ahead
  | case5 outer inner =>
    simp only [Thread.next, Option.some.injEq, Prod.mk.injEq, Action.lock.injEq] at ahead
    obtain ⟨rfl, rfl⟩ := ahead
    exact ⟨outer, rfl⟩

theorem Thread.unfinished_of_next (ahead : now.next = some (action, later)) :
    later.unfinished ⊆ now.unfinished := by
  fun_cases Thread.next now with
  | case1 => simp [Thread.next] at ahead
  | case2 | case3 | case4 | case5 | case6 | case7 =>
    simp only [Thread.next, Option.some.injEq, Prod.mk.injEq] at ahead
    obtain ⟨rfl, rfl⟩ := ahead
    simp [Thread.unfinished]

theorem Thread.mem_unfinished_of_inOuter {outer inner : Mutex}
    (inside : now.place = .inOuter outer inner) : .nested outer inner ∈ now.unfinished := by
  obtain ⟨place, rest⟩ := now
  obtain rfl := inside
  exact List.mem_cons_self

theorem wants_eq_some_iff {state : State ThreadId Mutex} {thread : ThreadId} :
    state.wants thread = some mutex ↔
      ∃ later, (state.threads thread).next = some (.lock mutex, later) := by
  unfold State.wants
  split
  · next other later ahead => simp [ahead]
  · next other =>
    constructor
    · intro wanted
      cases wanted
    · rintro ⟨later, ahead⟩
      exact absurd ahead (other mutex later)

theorem wants_of_inOuter {state : State ThreadId Mutex} {thread : ThreadId} {outer : Mutex}
    (inside : (state.threads thread).place = .inOuter outer mutex) :
    state.wants thread = some mutex := by
  apply wants_eq_some_iff.mpr
  generalize state.threads thread = now at inside
  obtain ⟨place, rest⟩ := now
  obtain rfl := inside
  exact ⟨_, rfl⟩

/-- A thread that waits for itself is a deadlock on its own. -/
theorem State.WaitsForItself.deadlocked {state : State ThreadId Mutex} {thread : ThreadId}
    (waits : state.WaitsForItself thread) : Deadlocked state {thread} := by
  refine ⟨Finset.singleton_nonempty thread, ?_⟩
  intro other member
  obtain rfl := Finset.mem_singleton.mp member
  obtain ⟨mutex, wanted, owner⟩ := waits
  exact ⟨mutex, wanted, other, member, owner⟩

end Threads

section Steps

variable [eqThread : DecidableEq ThreadId] [eqMutex : DecidableEq Mutex]
  {state next : State ThreadId Mutex} {thread : ThreadId}

/-- A step locks a mutex that nobody holds, or unlocks one. -/
theorem step_cases (taken : step state thread = some next) :
    (∃ mutex later, (state.threads thread).next = some (.lock mutex, later) ∧
      state.owner mutex = none ∧ next = {
        owner := Function.update state.owner mutex (some thread)
        threads := Function.update state.threads thread later }) ∨
    ∃ mutex later, (state.threads thread).next = some (.unlock mutex, later) ∧ next = {
      owner := Function.update state.owner mutex none
      threads := Function.update state.threads thread later } := by
  unfold step at taken
  split at taken
  · cases taken
  · next mutex later ahead =>
    split at taken
    · next unheld => exact .inl ⟨mutex, later, ahead, unheld, (Option.some.inj taken).symm⟩
    · cases taken
  · next mutex later ahead =>
    exact .inr ⟨mutex, later, ahead, (Option.some.inj taken).symm⟩

end Steps

/-! ### What is held -/

/-- Each mutex is held by the thread that has it locked, and no thread has locked one twice. -/
structure Owned (state : State ThreadId Mutex) : Prop where
  owner_iff : ∀ mutex thread, state.owner mutex = some thread ↔
    mutex ∈ (state.threads thread).place.held
  nodup : ∀ thread, (state.threads thread).place.held.Nodup

/-- The threads have blocks of their programs left. -/
def Within (programs : ThreadId → List (Block Mutex)) (state : State ThreadId Mutex) : Prop :=
  ∀ thread, (state.threads thread).unfinished ⊆ programs thread

section Invariants

variable [eqThread : DecidableEq ThreadId] [eqMutex : DecidableEq Mutex]
  {programs : ThreadId → List (Block Mutex)} {state next : State ThreadId Mutex}
  {thread : ThreadId}

/-- One mutex changes hands, and the thread that steps holds what it did otherwise. -/
theorem Owned.update {mutex : Mutex} {value : Option ThreadId} {later : Thread Mutex}
    (owned : Owned state) (nodup : later.place.held.Nodup)
    (own : value = some thread ↔ mutex ∈ later.place.held)
    (others : ∀ other, other ≠ thread →
      value ≠ some other ∧ mutex ∉ (state.threads other).place.held)
    (same : ∀ another, another ≠ mutex →
      (another ∈ (state.threads thread).place.held ↔ another ∈ later.place.held)) :
    Owned {
      owner := Function.update state.owner mutex value
      threads := Function.update state.threads thread later } := by
  constructor
  · intro another other
    obtain rfl | different := eq_or_ne other thread
    · obtain rfl | changed := eq_or_ne another mutex
      · simpa using own
      · simpa [changed, owned.owner_iff] using same another changed
    · obtain rfl | changed := eq_or_ne another mutex
      · obtain ⟨notOwner, notHeld⟩ := others other different
        simpa [different] using iff_of_false notOwner notHeld
      · simp [different, changed, owned.owner_iff]
  · intro other
    obtain rfl | different := eq_or_ne other thread
    · simpa using nodup
    · simpa [different] using owned.nodup other

theorem Owned.step (owned : Owned state) (taken : step state thread = some next) : Owned next := by
  obtain ⟨mutex, later, ahead, unheld, rfl⟩ | ⟨mutex, later, ahead, rfl⟩ := step_cases taken
  · have held := Thread.held_of_lock ahead
    have notHeld : ∀ other, mutex ∉ (state.threads other).place.held := by
      intro other member
      have owner := (owned.owner_iff mutex other).mpr member
      rw [unheld] at owner
      cases owner
    apply owned.update
    · rw [held]
      exact (owned.nodup thread).append (List.nodup_singleton mutex)
        (List.disjoint_singleton.mpr (notHeld thread))
    · simp [held]
    · intro other different
      exact ⟨fun same => different (Option.some.inj same).symm, notHeld other⟩
    · intro another changed
      simp [held, changed]
  · have held := Thread.held_of_unlock ahead
    have nodup := owned.nodup thread
    rw [held] at nodup
    have owner : state.owner mutex = some thread := by simp [owned.owner_iff, held]
    have dropped : mutex ∉ later.place.held := fun member =>
      List.disjoint_of_nodup_append nodup member (List.mem_singleton_self mutex)
    apply owned.update nodup.of_append_left
    · simp [dropped]
    · intro other different
      rw [← owned.owner_iff, owner]
      exact ⟨(Option.some_ne_none other).symm, fun same => different (Option.some.inj same).symm⟩
    · intro another changed
      simp [held, changed]

theorem Within.step (within : Within programs state) (taken : step state thread = some next) :
    Within programs next := by
  have shrinks : ∃ action later, (state.threads thread).next = some (action, later) ∧
      next.threads = Function.update state.threads thread later := by
    obtain ⟨mutex, later, ahead, _, rfl⟩ | ⟨mutex, later, ahead, rfl⟩ := step_cases taken
    · exact ⟨_, later, ahead, rfl⟩
    · exact ⟨_, later, ahead, rfl⟩
  obtain ⟨action, later, ahead, threads⟩ := shrinks
  intro other
  rw [threads]
  obtain rfl | different := eq_or_ne other thread
  · rw [Function.update_self]
    exact List.Subset.trans (Thread.unfinished_of_next ahead) (within other)
  · rw [Function.update_of_ne different]
    exact within other

theorem owned_of_reachable (reachable : (lockSystem programs).Reachable state) : Owned state := by
  refine reachable.invariant Owned ?_ fun owned _ taken => owned.step taken
  exact ⟨fun mutex thread => by simp [lockSystem, free, Place.held], fun thread => List.nodup_nil⟩

theorem within_of_reachable (reachable : (lockSystem programs).Reachable state) :
    Within programs state := by
  refine reachable.invariant (Within programs) ?_ fun within _ taken => within.step taken
  exact fun thread => List.Subset.refl _

end Invariants

/-! ### From a deadlock to a knot -/

section Knots

variable {programs : ThreadId → List (Block Mutex)} {state : State ThreadId Mutex}
  {waiting : Finset ThreadId}

/-- Threads of a deadlock that hold a mutex are inside a nested block, and the mutex that they wait
for is the outer one of another of them. -/
theorem Deadlocked.inOuter (deadlocked : Deadlocked state waiting)
    {thread : ThreadId} (member : thread ∈ waiting)
    (holds : (state.threads thread).place.held ≠ []) :
    ∃ outer inner, (state.threads thread).place = .inOuter outer inner ∧
      ∃ holder ∈ waiting, state.owner inner = some holder := by
  obtain ⟨mutex, wanted, holder⟩ := deadlocked.blocked thread member
  obtain ⟨later, ahead⟩ := wants_eq_some_iff.mp wanted
  obtain ⟨outer, place⟩ := Thread.inOuter_of_lock ahead holds
  exact ⟨outer, mutex, place, holder⟩

theorem Deadlocked.exists_knot (deadlocked : Deadlocked state waiting) (owned : Owned state)
    (within : Within programs state) :
    ∃ threads outer inner, Knot programs threads outer inner := by
  classical
  let holding := waiting.filter fun thread => (state.threads thread).place.held ≠ []
  have holding_of_owner : ∀ mutex, ∀ holder ∈ waiting, state.owner mutex = some holder →
      holder ∈ holding := by
    intro mutex holder member owner
    have held := (owned.owner_iff mutex holder).mp owner
    exact Finset.mem_filter.mpr ⟨member, List.ne_nil_of_mem held⟩
  obtain ⟨first, firstMember⟩ := deadlocked.nonempty
  obtain ⟨mutex, _, firstHolder, firstHolderMember, firstOwner⟩ :=
    deadlocked.blocked first firstMember
  have nonempty : Nonempty Mutex := ⟨mutex⟩
  have places : ∀ thread ∈ holding, ∃ outer inner,
      (state.threads thread).place = .inOuter outer inner ∧
        ∃ holder ∈ waiting, state.owner inner = some holder := by
    intro thread member
    obtain ⟨waits, holds⟩ := Finset.mem_filter.mp member
    exact deadlocked.inOuter waits holds
  choose! outer inner found using places
  have holds_outer : ∀ thread ∈ holding, ∀ mutex,
      state.owner mutex = some thread ↔ mutex = outer thread := by
    intro thread member mutex
    rw [owned.owner_iff, (found thread member).1, Place.held, List.mem_singleton]
  refine ⟨holding, outer, inner, ?_, ?_, ?_, ?_⟩
  · exact ⟨firstHolder, holding_of_owner _ _ firstHolderMember firstOwner⟩
  · intro thread member other otherMember same
    have owner := (holds_outer thread member _).mpr rfl
    have ownerToo := (holds_outer other otherMember _).mpr same
    exact Option.some.inj (owner.symm.trans ownerToo)
  · intro thread member
    exact within thread (Thread.mem_unfinished_of_inOuter (found thread member).1)
  · intro thread member
    obtain ⟨holder, waits, owner⟩ := (found thread member).2
    have holds := holding_of_owner _ holder waits owner
    exact ⟨holder, holds, ((holds_outer holder holds _).mp owner).symm⟩

/-- In a knot some nested block does not go up, however the mutexes are ordered. -/
theorem Knot.exists_descending {threads : Finset ThreadId} {outer inner : ThreadId → Mutex}
    (knot : Knot programs threads outer inner) {Rank : Type*} [order : LinearOrder Rank]
    (rank : Mutex → Rank) : ∃ thread first second,
      .nested first second ∈ programs thread ∧ rank second ≤ rank first := by
  obtain ⟨thread, member, highest⟩ :=
    threads.exists_max_image (fun thread => rank (outer thread)) knot.nonempty
  obtain ⟨holder, holds, same⟩ := knot.closed thread member
  exact ⟨thread, outer thread, inner thread, knot.nested thread member,
    same ▸ highest holder holds⟩

end Knots

/-! ### From a knot to a deadlock -/

section Runs

variable [eqThread : DecidableEq ThreadId] [eqMutex : DecidableEq Mutex]
  {programs : ThreadId → List (Block Mutex)} {threads : ThreadId → Thread Mutex}
  {thread : ThreadId} {block : Block Mutex} {before rest : List (Block Mutex)}

/-- A thread that runs alone gets through a block that does not lock a mutex twice. -/
theorem reachable_of_block (reachable : (lockSystem programs).Reachable (free threads))
    (here : threads thread = ⟨.between, block :: rest⟩) (proper : ¬ block.Doubled) :
    (lockSystem programs).Reachable (free (Function.update threads thread ⟨.between, rest⟩)) := by
  cases block with
  | single mutex =>
    have replayed : (lockSystem programs).runFrom (free threads) [thread, thread] =
        some (free (Function.update threads thread ⟨.between, rest⟩)) := by
      simp [lockSystem, step, free, here, Thread.next]
    exact reachable.replay replayed
  | nested outer inner =>
    have differ : inner ≠ outer := Ne.symm proper
    have unlocked : Function.update (Function.update
        (Function.update (fun _ => none) outer (some thread)) inner none) outer none =
        fun _ => none := by
      rw [Function.update_comm differ, Function.update_idem, Function.update_eq_self_iff.mpr rfl,
        Function.update_eq_self_iff.mpr rfl]
    have replayed : (lockSystem programs).runFrom (free threads) [thread, thread, thread, thread] =
        some (free (Function.update threads thread ⟨.between, rest⟩)) := by
      simp [lockSystem, step, free, here, Thread.next, differ, unlocked]
    exact reachable.replay replayed

/-- It gets to any place between its blocks that comes before the first one that does. -/
theorem reachable_of_blocks (reachable : (lockSystem programs).Reachable (free threads))
    (here : threads thread = ⟨.between, before ++ rest⟩)
    (proper : ∀ block ∈ before, ¬ block.Doubled) :
    (lockSystem programs).Reachable (free (Function.update threads thread ⟨.between, rest⟩)) := by
  induction before generalizing threads with
  | nil =>
    rw [List.nil_append] at here
    rwa [← here, Function.update_eq_self]
  | cons block before ih =>
    have passed := reachable_of_block reachable here (proper block List.mem_cons_self)
    have later := ih passed (Function.update_self ..)
      fun block member => proper block (List.mem_cons_of_mem _ member)
    rwa [Function.update_idem] at later

theorem step_of_nested {state : State ThreadId Mutex} {outer inner : Mutex}
    (here : state.threads thread = ⟨.between, .nested outer inner :: rest⟩)
    (unheld : state.owner outer = none) : step state thread = some {
      owner := Function.update state.owner outer (some thread)
      threads := Function.update state.threads thread ⟨.inOuter outer inner, rest⟩ } := by
  simp only [step, here, Thread.next, if_pos unheld]

/-- A block that locks one mutex twice ends in a wait for itself. -/
theorem exists_waitsForItself (program : ∃ block ∈ programs thread, block.Doubled) :
    ∃ state, (lockSystem programs).Reachable state ∧ state.WaitsForItself thread := by
  have found : ((programs thread).find? fun block => decide block.Doubled).isSome :=
    List.find?_isSome.mpr (by simpa using program)
  obtain ⟨block, first⟩ := Option.isSome_iff_exists.mp found
  obtain ⟨doubled, before, rest, whole, proper⟩ := List.find?_eq_some_iff_append.mp first
  let start : State ThreadId Mutex :=
    free (Function.update (fun thread => ⟨.between, programs thread⟩) thread
      ⟨.between, block :: rest⟩)
  have passed : (lockSystem programs).Reachable start :=
    reachable_of_blocks .initial (by rw [whole]) (by simpa using proper)
  have here : start.threads thread = ⟨.between, block :: rest⟩ := by simp [start, free]
  have twice : block.Doubled := of_decide_eq_true doubled
  cases block with
  | single mutex => exact twice.elim
  | nested outer inner =>
    obtain rfl : outer = inner := twice
    refine ⟨_, passed.step trivial (step_of_nested here rfl), outer, ?_, Function.update_self ..⟩
    have inside : (Function.update start.threads thread
        ⟨.inOuter outer outer, rest⟩ thread).place = .inOuter outer outer := by
      rw [Function.update_self]
    exact wants_of_inOuter inside

/-- Threads that lock no mutex twice, one after the other, each up to a place in its program. -/
theorem reachable_upTo (proper : ∀ thread, ∀ block ∈ programs thread, ¬ block.Doubled)
    {target : ThreadId → List (Block Mutex)} {group : Finset ThreadId}
    (ahead : ∀ thread ∈ group, target thread <:+ programs thread) :
    (lockSystem programs).Reachable (free fun thread =>
      ⟨.between, if thread ∈ group then target thread else programs thread⟩) := by
  induction group using Finset.induction_on with
  | empty => exact .initial
  | insert thread group fresh ih =>
    obtain ⟨before, whole⟩ := ahead thread (Finset.mem_insert_self thread group)
    have reached := ih fun other member => ahead other (Finset.mem_insert_of_mem member)
    have here : (if thread ∈ group then target thread else programs thread) =
        before ++ target thread := by
      rw [if_neg fresh, whole]
    have moved := reachable_of_blocks reached (congrArg _ here) fun block member =>
      proper thread block (whole ▸ List.mem_append_left _ member)
    convert moved using 2
    funext other
    obtain rfl | different := eq_or_ne other thread
    · simp
    · simp [different]

/-- Threads that are all at nested blocks lock the outer mutexes, if these differ. -/
theorem reachable_inOuter {outer inner : ThreadId → Mutex} {after : ThreadId → List (Block Mutex)}
    {group : Finset ThreadId} (distinct : Set.InjOn outer group)
    (reachable : (lockSystem programs).Reachable (free threads))
    (here : ∀ thread ∈ group,
      threads thread = ⟨.between, .nested (outer thread) (inner thread) :: after thread⟩) :
    ∃ state, (lockSystem programs).Reachable state ∧
      (∀ thread ∈ group, (state.threads thread) = ⟨.inOuter (outer thread) (inner thread),
        after thread⟩) ∧
      (∀ thread ∉ group, state.threads thread = threads thread) ∧
      ∀ mutex, state.owner mutex ≠ none → ∃ thread ∈ group, outer thread = mutex := by
  induction group using Finset.induction_on with
  | empty => exact ⟨_, reachable, by simp, fun _ _ => rfl, fun mutex held => absurd rfl held⟩
  | insert thread group fresh ih =>
    obtain ⟨state, reached, inside, outside, held⟩ :=
      ih (distinct.mono (Finset.coe_subset.mpr (Finset.subset_insert thread group)))
        fun other member => here other (Finset.mem_insert_of_mem member)
    have unheld : state.owner (outer thread) = none := by
      by_contra locked
      obtain ⟨other, member, same⟩ := held _ locked
      have equal := distinct (Finset.mem_insert_of_mem member) (Finset.mem_insert_self thread group)
        same
      exact fresh (equal ▸ member)
    have taken := step_of_nested
      ((outside thread fresh).trans (here thread (Finset.mem_insert_self thread group))) unheld
    refine ⟨_, reached.step trivial taken, ?_, ?_, ?_⟩
    · intro other member
      obtain rfl | different := eq_or_ne other thread
      · simp
      · have among := Finset.mem_of_mem_insert_of_ne member different
        simpa [different] using inside other among
    · intro other absent
      obtain ⟨different, absent⟩ := not_or.mp (Finset.mem_insert.not.mp absent)
      simpa [different] using outside other absent
    · intro mutex locked
      obtain rfl | different := eq_or_ne mutex (outer thread)
      · exact ⟨thread, Finset.mem_insert_self thread group, rfl⟩
      · obtain ⟨other, member, same⟩ := held mutex (by simpa [different] using locked)
        exact ⟨other, Finset.mem_insert_of_mem member, same⟩

/-- Without doubled blocks, the threads of a knot reach a deadlock. -/
theorem Knot.exists_deadlocked {group : Finset ThreadId} {outer inner : ThreadId → Mutex}
    (knot : Knot programs group outer inner)
    (proper : ∀ thread, ∀ block ∈ programs thread, ¬ block.Doubled) :
    ∃ state, (lockSystem programs).Reachable state ∧ Deadlocked state group := by
  classical
  have places : ∀ thread ∈ group, ∃ after,
      .nested (outer thread) (inner thread) :: after <:+ programs thread := by
    intro thread member
    obtain ⟨before, after, whole⟩ := List.append_of_mem (knot.nested thread member)
    exact ⟨after, before, whole.symm⟩
  choose! after ahead using places
  have reached := reachable_upTo proper ahead
  obtain ⟨state, reachable, inside, _, _⟩ := reachable_inOuter knot.distinct reached
    fun thread member => by rw [if_pos member]
  have owned := owned_of_reachable reachable
  refine ⟨state, reachable, knot.nonempty, ?_⟩
  intro thread member
  obtain ⟨holder, among, same⟩ := knot.closed thread member
  refine ⟨inner thread, wants_of_inOuter (by rw [inside thread member]), holder, among, ?_⟩
  rw [owned.owner_iff, inside holder among, ← same]
  exact List.mem_singleton_self _

/-- Some run ends in a deadlock exactly if the programs have a knot. -/
theorem exists_deadlocked_iff :
    (∃ state, (lockSystem programs).Reachable state ∧ ∃ waiting, Deadlocked state waiting) ↔
      ∃ group outer inner, Knot programs group outer inner := by
  constructor
  · rintro ⟨state, reachable, waiting, deadlocked⟩
    exact deadlocked.exists_knot (owned_of_reachable reachable) (within_of_reachable reachable)
  · rintro ⟨group, outer, inner, knot⟩
    by_cases doubled : ∃ thread, ∃ block ∈ programs thread, block.Doubled
    · obtain ⟨thread, program⟩ := doubled
      obtain ⟨state, reachable, waits⟩ := exists_waitsForItself program
      exact ⟨state, reachable, {thread}, waits.deadlocked⟩
    · have proper : ∀ thread, ∀ block ∈ programs thread, ¬ block.Doubled :=
        fun thread block member twice => doubled ⟨thread, block, member, twice⟩
      obtain ⟨state, reachable, deadlocked⟩ := knot.exists_deadlocked proper
      exact ⟨state, reachable, group, deadlocked⟩

end Runs

end Dls2.Mutexes
