import Mathlib.Data.Fintype.Basic
import Mathlib.Order.WithBot
import Dls2.Lib.Mutexes
import Dls2.Utils.Pose

/-!
# The mutexes of poses

Each pose has a mutex. Assignment and subtraction of a pose hold the one of their left-hand side
while they lock the one of their right-hand side; every other call holds one mutex at a time, or
holds the mutex of a local pose that no other thread knows.

`neverDeadlocked_iff` says which programs of calls cannot deadlock.
-/

namespace Dls2.Utils

open Transition (System)
open Mutexes

/-- A mutex of a pose with a name, or of the local pose of a call of `operator-`, which is the
`index`-th call of its thread. -/
inductive PoseMutex (ThreadId Name : Type*) where
  | ofPose (name : Name)
  | ofLocal (thread : ThreadId) (index : ℕ)
deriving DecidableEq, Repr

namespace PoseMutex

variable {ThreadId Name : Type*} (this rhs p : PoseMutex ThreadId Name)

/-! ### The scopes of the lock guards -/

/-- The copy constructor locks the pose that it copies. -/
def copyBlocks : List (Block (PoseMutex ThreadId Name)) := [.single rhs]

/-- `operator=`. -/
def assignBlocks : List (Block (PoseMutex ThreadId Name)) := [.nested this rhs]

/-- `operator-=` with a pose. -/
def subtractBlocks : List (Block (PoseMutex ThreadId Name)) := [.nested this rhs]

/-- `operator-=` with a position or a quaternion, and the setters but the one with arrays. -/
def guardBlocks : List (Block (PoseMutex ThreadId Name)) := [.single this]

/-- `operator-` with a pose; `p` is its local pose. -/
def minusBlocks : List (Block (PoseMutex ThreadId Name)) :=
  this.copyBlocks ++ p.subtractBlocks rhs ++ p.copyBlocks

/-- `operator-` with a position or a quaternion. -/
def minusGuardBlocks : List (Block (PoseMutex ThreadId Name)) :=
  this.copyBlocks ++ p.guardBlocks ++ p.copyBlocks

end PoseMutex

variable {ThreadId Name : Type*}

/-- What a call locks; `p` is the mutex of its local pose, if it has one. -/
def PoseCall.blocks (p : PoseMutex ThreadId Name) :
    PoseCall Name → List (Block (PoseMutex ThreadId Name))
  | .new _ | .ofPosition _ _ | .ofAngleAxis _ _ | .ofPositionQuaternion _ _ _
  | .ofPositionAngleAxis _ _ _ | .setArrays _ _ _ => []
  | .copy _ rhs => PoseMutex.copyBlocks (.ofPose rhs)
  | .assign lhs rhs => PoseMutex.assignBlocks (.ofPose lhs) (.ofPose rhs)
  | .subtract lhs rhs => PoseMutex.subtractBlocks (.ofPose lhs) (.ofPose rhs)
  | .subtractPosition this _ | .subtractQuaternion this _ | .setPosition this _
  | .setQuaternion this _ | .setAngleAxis this _ | .setPositionQuaternion this _ _
  | .setPositionAngleAxis this _ _ => PoseMutex.guardBlocks (.ofPose this)
  | .minus _ lhs rhs => PoseMutex.minusBlocks (.ofPose lhs) (.ofPose rhs) p
  | .minusPosition _ lhs _ | .minusQuaternion _ lhs _ => PoseMutex.minusGuardBlocks (.ofPose lhs) p

/-- What a thread locks that makes the calls one after the other. -/
def programBlocks (thread : ThreadId) (calls : List (PoseCall Name)) :
    List (Block (PoseMutex ThreadId Name)) :=
  calls.zipIdx.flatMap fun call => call.1.blocks (.ofLocal thread call.2)

/-- Threads that make calls on poses they share. -/
def poseLocks [eqThread : DecidableEq ThreadId] [eqName : DecidableEq Name]
    (programs : ThreadId → List (PoseCall Name)) :
    System (State ThreadId (PoseMutex ThreadId Name)) ThreadId :=
  lockSystem fun thread => programBlocks thread (programs thread)

/-- The poses whose mutexes a call holds at once, the first one locked first. -/
def PoseCall.lockedTogether : PoseCall Name → Option (Name × Name)
  | .assign lhs rhs | .subtract lhs rhs => some (lhs, rhs)
  | _ => none

/-- Each thread of a set assigns or subtracts a pose, to different left-hand sides, and each
right-hand side is the left-hand side of a thread of the set. -/
structure Entangled (programs : ThreadId → List (PoseCall Name)) (threads : Finset ThreadId)
    (lhs rhs : ThreadId → Name) : Prop where
  nonempty : threads.Nonempty
  distinct : Set.InjOn lhs threads
  calls : ∀ thread ∈ threads, ∃ call ∈ programs thread,
    call.lockedTogether = some (lhs thread, rhs thread)
  closed : ∀ thread ∈ threads, ∃ holder ∈ threads, lhs holder = rhs thread

/-- An order of the poses, with the local ones below. -/
def PoseMutex.rank {Rank : Type*} (rank : Name → Rank) : PoseMutex ThreadId Name → WithBot Rank
  | .ofPose name => rank name
  | .ofLocal _ _ => ⊥

/-! ### Nested blocks -/

section Blocks

variable {thread : ThreadId} {calls : List (PoseCall Name)} {call : PoseCall Name} {lhs rhs : Name}
  {outer inner p : PoseMutex ThreadId Name}

theorem nested_mem_blocks_iff : .nested outer inner ∈ call.blocks p ↔
    (∃ lhs rhs, call.lockedTogether = some (lhs, rhs) ∧ outer = .ofPose lhs ∧ inner = .ofPose rhs) ∨
      outer = p ∧ ∃ target lhs rhs, call = .minus target lhs rhs ∧ inner = .ofPose rhs := by
  cases call <;> simp [PoseCall.blocks, PoseCall.lockedTogether, PoseMutex.copyBlocks,
    PoseMutex.assignBlocks, PoseMutex.subtractBlocks, PoseMutex.guardBlocks, PoseMutex.minusBlocks,
    PoseMutex.minusGuardBlocks]

/-- A nested block ends in a pose with a name. If it begins with one, some call holds both. -/
theorem exists_call_of_nested (member : .nested outer inner ∈ programBlocks thread calls) :
    ∃ rhs, inner = .ofPose rhs ∧
      ∀ lhs, outer = .ofPose lhs → ∃ call ∈ calls, call.lockedTogether = some (lhs, rhs) := by
  obtain ⟨⟨call, index⟩, numbered, nested⟩ := List.mem_flatMap.mp member
  have among : call ∈ calls := (List.mem_zipIdx' numbered).2 ▸ List.getElem_mem _
  obtain ⟨lhs, rhs, together, rfl, rfl⟩ | ⟨rfl, _, _, rhs, _, rfl⟩ :=
    nested_mem_blocks_iff.mp nested
  · refine ⟨rhs, rfl, ?_⟩
    intro other same
    obtain rfl := PoseMutex.ofPose.inj same
    exact ⟨call, among, together⟩
  · exact ⟨rhs, rfl, fun lhs same => nomatch same⟩

theorem nested_mem_of_call (member : call ∈ calls)
    (together : call.lockedTogether = some (lhs, rhs)) :
    .nested (.ofPose lhs) (.ofPose rhs) ∈ programBlocks thread calls := by
  obtain ⟨index, found⟩ := List.getElem?_of_mem member
  refine List.mem_flatMap.mpr ⟨(call, index), List.mk_mem_zipIdx_iff_getElem?.mpr found, ?_⟩
  exact nested_mem_blocks_iff.mpr (.inl ⟨lhs, rhs, together, rfl, rfl⟩)

end Blocks

/-! ### Knots -/

section Knots

variable {programs : ThreadId → List (PoseCall Name)} {threads : Finset ThreadId}

theorem Entangled.knot {lhs rhs : ThreadId → Name}
    (entangled : Entangled programs threads lhs rhs) :
    Knot (fun thread => programBlocks thread (programs thread)) threads
      (fun thread => .ofPose (lhs thread)) (fun thread => .ofPose (rhs thread)) where
  nonempty := entangled.nonempty
  distinct := fun _ first _ second same =>
    entangled.distinct first second (PoseMutex.ofPose.inj same)
  nested := by
    intro thread member
    obtain ⟨call, among, together⟩ := entangled.calls thread member
    exact nested_mem_of_call among together
  closed := by
    intro thread member
    obtain ⟨holder, holds, same⟩ := entangled.closed thread member
    exact ⟨holder, holds, congrArg _ same⟩

/-- The threads of a knot that hold a pose with a name are entangled: nobody waits for the local
poses of the others. -/
theorem exists_entangled_of_knot {outer inner : ThreadId → PoseMutex ThreadId Name}
    (knot : Knot (fun thread => programBlocks thread (programs thread)) threads outer inner) :
    ∃ threads lhs rhs, Entangled programs threads lhs rhs := by
  classical
  have ends : ∀ thread ∈ threads, ∃ rhs, inner thread = .ofPose rhs ∧
      ∀ lhs, outer thread = .ofPose lhs →
        ∃ call ∈ programs thread, call.lockedTogether = some (lhs, rhs) :=
    fun thread member => exists_call_of_nested (knot.nested thread member)
  obtain ⟨first, firstMember⟩ := knot.nonempty
  obtain ⟨name, _⟩ := ends first firstMember
  have nonempty : Nonempty Name := ⟨name⟩
  let named := threads.filter fun thread => ∃ lhs, outer thread = .ofPose lhs
  have closed : ∀ thread ∈ threads, ∃ holder ∈ named, outer holder = inner thread := by
    intro thread member
    obtain ⟨holder, holds, same⟩ := knot.closed thread member
    obtain ⟨rhs, found, _⟩ := ends thread member
    exact ⟨holder, Finset.mem_filter.mpr ⟨holds, rhs, same.trans found⟩, same⟩
  have operands : ∀ thread ∈ named, ∃ lhs rhs,
      outer thread = .ofPose lhs ∧ inner thread = .ofPose rhs ∧
        ∃ call ∈ programs thread, call.lockedTogether = some (lhs, rhs) := by
    intro thread member
    obtain ⟨among, lhs, begins⟩ := Finset.mem_filter.mp member
    obtain ⟨rhs, found, calls⟩ := ends thread among
    exact ⟨lhs, rhs, begins, found, calls lhs begins⟩
  choose! lhs rhs found using operands
  refine ⟨named, lhs, rhs, ?_, ?_, fun thread member => (found thread member).2.2, ?_⟩
  · obtain ⟨holder, holds, _⟩ := closed first firstMember
    exact ⟨holder, holds⟩
  · intro thread member other otherMember same
    apply knot.distinct (Finset.mem_filter.mp member).1 (Finset.mem_filter.mp otherMember).1
    rw [(found thread member).1, (found other otherMember).1, same]
  · intro thread member
    obtain ⟨holder, holds, same⟩ := closed thread (Finset.mem_filter.mp member).1
    rw [(found holder holds).1, (found thread member).2.1] at same
    exact ⟨holder, holds, PoseMutex.ofPose.inj same⟩

end Knots

section Runs

variable [eqThread : DecidableEq ThreadId] [eqName : DecidableEq Name]
  (programs : ThreadId → List (PoseCall Name))

/-- Calls can deadlock exactly if they are entangled. -/
theorem exists_deadlocked_iff_entangled :
    (∃ state, (poseLocks programs).Reachable state ∧ ∃ waiting, Deadlocked state waiting) ↔
      ∃ threads lhs rhs, Entangled programs threads lhs rhs := by
  rw [poseLocks, exists_deadlocked_iff]
  constructor
  · rintro ⟨threads, outer, inner, knot⟩
    exact exists_entangled_of_knot knot
  · rintro ⟨threads, lhs, rhs, entangled⟩
    exact ⟨threads, _, _, entangled.knot⟩

variable {programs}

/-- Assignments and subtractions that all go up in an order of the poses never deadlock. -/
theorem not_deadlocked_of_ordered {Rank : Type*} [order : LinearOrder Rank] (rank : Name → Rank)
    (upward : ∀ thread, ∀ call ∈ programs thread, ∀ operands ∈ call.lockedTogether,
      rank operands.1 < rank operands.2)
    {state : State ThreadId (PoseMutex ThreadId Name)}
    (reachable : (poseLocks programs).Reachable state) (waiting : Finset ThreadId) :
    ¬ Deadlocked state waiting := by
  intro deadlocked
  obtain ⟨threads, outer, inner, knot⟩ :=
    exists_deadlocked_iff.mp ⟨state, reachable, waiting, deadlocked⟩
  obtain ⟨thread, first, second, nested, down⟩ := knot.exists_descending (PoseMutex.rank rank)
  obtain ⟨rhs, rfl, calls⟩ := exists_call_of_nested nested
  cases first with
  | ofLocal _ _ => exact absurd down (WithBot.not_coe_le_bot _)
  | ofPose lhs =>
    obtain ⟨call, among, together⟩ := calls lhs rfl
    have up := upward thread call among (lhs, rhs) together
    exact absurd (WithBot.coe_le_coe.mp down) up.not_ge

end Runs

/-- No run ever has a set of threads that wait for each other, or a thread that waits for itself,
exactly if no threads of the program are entangled. -/
theorem neverDeadlocked_iff {n : ℕ} {Name : Type*} [eqName : DecidableEq Name]
    (programs : Fin n → List (PoseCall Name)) :
    (∀ state, (poseLocks programs).Reachable state →
      (∀ waiting, ¬ Deadlocked state waiting) ∧ ∀ thread, ¬ state.WaitsForItself thread) ↔
    ∀ threads lhs rhs, ¬ Entangled programs threads lhs rhs := by
  constructor
  · intro never threads lhs rhs entangled
    obtain ⟨state, reachable, waiting, deadlocked⟩ :=
      (exists_deadlocked_iff_entangled programs).mpr ⟨threads, lhs, rhs, entangled⟩
    exact (never state reachable).1 waiting deadlocked
  · intro disjoint state reachable
    have never : ∀ waiting, ¬ Deadlocked state waiting := by
      intro waiting deadlocked
      obtain ⟨threads, lhs, rhs, entangled⟩ :=
        (exists_deadlocked_iff_entangled programs).mp ⟨state, reachable, waiting, deadlocked⟩
      exact disjoint threads lhs rhs entangled
    exact ⟨never, fun thread waits => never {thread} waits.deadlocked⟩

/-- Two threads that assign two poses to each other, and one that assigns a pose to itself. -/
theorem deadlocked_assign :
    (∃ state, (poseLocks ![[.assign false true], [.assign true false]]).Reachable state ∧
      Deadlocked state {0, 1}) ∧
    ∃ state, (poseLocks ![[.assign () ()]]).Reachable state ∧ state.WaitsForItself 0 := by
  constructor
  · have replayed : (poseLocks ![[.assign false true], [.assign true false]]).run [0, 1] =
        some _ := rfl
    refine ⟨_, System.ReachableUnder.initial.replay replayed, Finset.insert_nonempty 0 {1}, ?_⟩
    intro thread _
    fin_cases thread
    · exact ⟨.ofPose true, rfl, 1, by simp, rfl⟩
    · exact ⟨.ofPose false, rfl, 0, by simp, rfl⟩
  · have replayed : (poseLocks ![[.assign () ()]]).run [0] = some _ := rfl
    exact ⟨_, System.ReachableUnder.initial.replay replayed, .ofPose (), rfl, rfl⟩

end Dls2.Utils
