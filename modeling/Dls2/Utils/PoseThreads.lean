import Dls2.Lib.CriticalSections
import Dls2.Utils.PoseLocks

/-!
# Threads that share poses

A call on poses reads and writes positions and quaternions while it holds the mutexes of its lock
guards. Constructors, and the setter with arrays, write a pose without its mutex.

`poses_one_at_a_time` says that calls of several threads come down to calls that are made one at a
time, as long as the poses that are written without their mutexes are used by one thread each. Only
`operator-` with a pose is not one call in this sense: another thread can make calls between its
copy of the left-hand side and its reading of the right-hand side.
-/

namespace Dls2.Utils

open Matrix Quaternion Rotation
open Transition (System)
open CriticalSections (Write Critical Order criticalSystem performAll Disciplined)

universe u

/-- The length of the orientation of a setter with arrays. -/
local instance neZero_four : NeZero 4 := ⟨four_ne_zero⟩

/-! ### Writes to a pose -/

section Writes

variable {Cell : Type u}

/-- `this->position = value`. -/
def positionOf (this : Cell) (value : (Cell → Pose) → Fin 3 → ℝ) : Write Cell Pose :=
  ⟨this, fun poses => { poses this with position := value poses }⟩

/-- `this->quaternion = value`. -/
def quaternionOf (this : Cell) (value : (Cell → Pose) → ℍ[ℝ]) : Write Cell Pose :=
  ⟨this, fun poses => { poses this with quaternion := value poses }⟩

/-- The members of a pose that is constructed. -/
def construct (this : Cell) (pose : Pose) : Write Cell Pose := ⟨this, fun _ => pose⟩

end Writes

namespace PoseCall

/-- Not one of the differences, which are made of other calls. -/
def Simple {Cell : Type u} : PoseCall Cell → Prop
  | .minus _ _ _ | .minusPosition _ _ _ | .minusQuaternion _ _ _ => False
  | _ => True

end PoseCall

/-- A call with one critical section. -/
abbrev PoseStep (Cell : Type u) := {call : PoseCall Cell // call.Simple}

namespace PoseStep

variable {Cell : Type u}

/-- A critical section, which touches the poses that it locks and its own. -/
def holding (locks own : List Cell) (body : List (Write Cell Pose))
    (within : ∀ write ∈ body, write.Within (locks ++ own) := by
      simp +contextual [CriticalSections.Write.within_iff, construct, positionOf, quaternionOf]) :
    Critical Cell Pose :=
  ⟨locks, own, body, within⟩

noncomputable section

/-- What a step locks, what it writes without a mutex, and the order of its writes. -/
def critical : PoseStep Cell → Critical Cell Pose
  | ⟨.new target, _⟩ => holding [] [target] [construct target .new]
  | ⟨.ofPosition target vec, _⟩ => holding [] [target] [construct target (.ofPosition vec)]
  | ⟨.ofAngleAxis target aa, _⟩ => holding [] [target] [construct target (.ofAngleAxis aa)]
  | ⟨.ofPositionQuaternion target vec q, _⟩ =>
    holding [] [target] [construct target (.ofPositionQuaternion vec q)]
  | ⟨.ofPositionAngleAxis target vec aa, _⟩ =>
    holding [] [target] [construct target (.ofPositionAngleAxis vec aa)]
  | ⟨.copy target rhs, _⟩ => holding [rhs] [target]
    [positionOf target fun poses => (poses rhs).position,
      quaternionOf target fun poses => (poses rhs).quaternion]
  | ⟨.assign lhs rhs, _⟩ => holding [lhs, rhs] []
    [positionOf lhs fun poses => (poses rhs).position,
      quaternionOf lhs fun poses => (poses rhs).quaternion]
  | ⟨.subtract lhs rhs, _⟩ => holding [lhs, rhs] []
    [positionOf lhs fun poses => (poses lhs).position - (poses rhs).position,
      quaternionOf lhs fun poses => (poses rhs).quaternion * (poses lhs).quaternion⁻¹]
  | ⟨.subtractPosition lhs rhs, _⟩ => holding [lhs] []
    [positionOf lhs fun poses => (poses lhs).position - rhs]
  | ⟨.subtractQuaternion lhs rhs, _⟩ => holding [lhs] []
    [quaternionOf lhs fun poses => rhs * (poses lhs).quaternion⁻¹]
  | ⟨.setPosition target vec, _⟩ => holding [target] [] [positionOf target fun _ => vec]
  | ⟨.setQuaternion target q, _⟩ =>
    holding [target] [] [quaternionOf target fun _ => normalized q]
  | ⟨.setAngleAxis target aa, _⟩ =>
    holding [target] [] [quaternionOf target fun _ => normalized aa.toQuaternion]
  | ⟨.setPositionQuaternion target vec q, _⟩ => holding [target] []
    [positionOf target fun _ => vec, quaternionOf target fun _ => normalized q]
  | ⟨.setPositionAngleAxis target vec aa, _⟩ => holding [target] []
    [positionOf target fun _ => vec, quaternionOf target fun _ => normalized aa.toQuaternion]
  -- This setter has no lock guard.
  | ⟨.setArrays target pos ori, _⟩ => holding [] [target]
    [positionOf target fun _ => pos,
      quaternionOf target fun _ => ofParts (ori.1 3) ![ori.1 0, ori.1 1, ori.1 2],
      quaternionOf target fun poses => normalized (poses target).quaternion]

end

section Perform

variable [eqCell : DecidableEq Cell] {poses : Cell → Pose} {this cell : Cell}
  {position : (Cell → Pose) → Fin 3 → ℝ} {quaternion : (Cell → Pose) → ℍ[ℝ]}

@[simp] theorem quaternion_perform_positionOf :
    ((positionOf this position).perform poses cell).quaternion = (poses cell).quaternion := by
  unfold CriticalSections.Write.perform positionOf
  by_cases same : cell = this
  · subst same
    rw [Function.update_self]
  · rw [Function.update_of_ne same]

/-- A position and then a quaternion that does not depend on it. -/
theorem performAll_both
    (steady : quaternion ((positionOf this position).perform poses) = quaternion poses) :
    performAll poses [positionOf this position, quaternionOf this quaternion] =
      Function.update poses this ⟨position poses, quaternion poses⟩ := by
  change (quaternionOf this quaternion).perform ((positionOf this position).perform poses) = _
  rw [CriticalSections.Write.perform]
  simp only [quaternionOf, steady]
  simp [CriticalSections.Write.perform, positionOf]

/-- The writes of a step come down to the call. -/
theorem performAll_critical (step : PoseStep Cell) (poses : Cell → Pose) :
    performAll poses step.critical.body =
      Function.update poses step.1.target (step.1.stored poses) := by
  obtain ⟨call, simple⟩ := step
  cases call with
  | minus | minusPosition | minusQuaternion => exact simple.elim
  | new | ofPosition | ofAngleAxis | ofPositionQuaternion | ofPositionAngleAxis
  | subtractPosition | subtractQuaternion | setPosition | setQuaternion | setAngleAxis => rfl
  | copy | assign | subtract | setPositionQuaternion | setPositionAngleAxis =>
    exact performAll_both (by simp)
  | setArrays target pos ori =>
    simp [critical, holding, performAll, CriticalSections.Write.perform, positionOf, quaternionOf,
      PoseCall.target, PoseCall.stored, Pose.setArrays]

end Perform

end PoseStep

/-! ### The steps of a call -/

namespace PoseMutex

variable {ThreadId Name : Type u} (this lhs rhs p : PoseMutex ThreadId Name)

/-- The copy constructor constructs a pose at the origin before it locks the pose it copies. -/
def copySteps : List (PoseStep (PoseMutex ThreadId Name)) :=
  [⟨.new this, trivial⟩, ⟨.copy this rhs, trivial⟩]

end PoseMutex

variable {ThreadId Name : Type u}

/-- The steps of a call; `p` is its local pose, if it has one. -/
def PoseCall.steps (p : PoseMutex ThreadId Name) :
    PoseCall Name → List (PoseStep (PoseMutex ThreadId Name))
  | .new target => [⟨.new (.ofPose target), trivial⟩]
  | .ofPosition target vec => [⟨.ofPosition (.ofPose target) vec, trivial⟩]
  | .ofAngleAxis target aa => [⟨.ofAngleAxis (.ofPose target) aa, trivial⟩]
  | .ofPositionQuaternion target vec q => [⟨.ofPositionQuaternion (.ofPose target) vec q, trivial⟩]
  | .ofPositionAngleAxis target vec aa => [⟨.ofPositionAngleAxis (.ofPose target) vec aa, trivial⟩]
  | .copy target rhs => PoseMutex.copySteps (.ofPose target) (.ofPose rhs)
  | .assign lhs rhs => [⟨.assign (.ofPose lhs) (.ofPose rhs), trivial⟩]
  | .subtract lhs rhs => [⟨.subtract (.ofPose lhs) (.ofPose rhs), trivial⟩]
  | .subtractPosition lhs rhs => [⟨.subtractPosition (.ofPose lhs) rhs, trivial⟩]
  | .subtractQuaternion lhs rhs => [⟨.subtractQuaternion (.ofPose lhs) rhs, trivial⟩]
  | .minus target lhs rhs => PoseMutex.copySteps p (.ofPose lhs) ++
    [⟨.subtract p (.ofPose rhs), trivial⟩] ++ PoseMutex.copySteps (.ofPose target) p
  | .minusPosition target lhs rhs => PoseMutex.copySteps p (.ofPose lhs) ++
    [⟨.subtractPosition p rhs, trivial⟩] ++ PoseMutex.copySteps (.ofPose target) p
  | .minusQuaternion target lhs rhs => PoseMutex.copySteps p (.ofPose lhs) ++
    [⟨.subtractQuaternion p rhs, trivial⟩] ++ PoseMutex.copySteps (.ofPose target) p
  | .setPosition target vec => [⟨.setPosition (.ofPose target) vec, trivial⟩]
  | .setQuaternion target q => [⟨.setQuaternion (.ofPose target) q, trivial⟩]
  | .setAngleAxis target aa => [⟨.setAngleAxis (.ofPose target) aa, trivial⟩]
  | .setPositionQuaternion target vec q =>
    [⟨.setPositionQuaternion (.ofPose target) vec q, trivial⟩]
  | .setPositionAngleAxis target vec aa =>
    [⟨.setPositionAngleAxis (.ofPose target) vec aa, trivial⟩]
  | .setArrays target pos ori => [⟨.setArrays (.ofPose target) pos ori, trivial⟩]

/-- The steps of a thread that makes the calls one after the other. -/
def programSteps (thread : ThreadId) (calls : List (PoseCall Name)) :
    List (PoseStep (PoseMutex ThreadId Name)) :=
  calls.zipIdx.flatMap fun call => call.1.steps (.ofLocal thread call.2)

/-- Threads that make calls on poses they share. -/
noncomputable def poseThreads [eqThread : DecidableEq ThreadId] [eqName : DecidableEq Name]
    (poses : PoseMutex ThreadId Name → Pose) (programs : ThreadId → List (PoseCall Name)) :
    System (CriticalSections.State ThreadId (PoseStep (PoseMutex ThreadId Name))
      (PoseMutex ThreadId Name) Pose) ThreadId :=
  criticalSystem PoseStep.critical poses fun thread => programSteps thread (programs thread)

namespace PoseCall

/-- The pose that a call writes without its mutex. -/
def unguarded : PoseCall Name → List Name
  | .new target | .ofPosition target _ | .ofAngleAxis target _ | .ofPositionQuaternion target _ _
  | .ofPositionAngleAxis target _ _ | .copy target _ | .minus target _ _
  | .minusPosition target _ _ | .minusQuaternion target _ _ | .setArrays target _ _ => [target]
  | _ => []

/-- The poses that a call uses. -/
def names : PoseCall Name → List Name
  | .copy target rhs | .assign target rhs | .subtract target rhs => [target, rhs]
  | .minus target lhs rhs => [target, lhs, rhs]
  | .minusPosition target lhs _ | .minusQuaternion target lhs _ => [target, lhs]
  | call => [call.target]

end PoseCall

/-- A pose that a thread writes without its mutex is used by no other thread. -/
def Confined (programs : ThreadId → List (PoseCall Name)) : Prop :=
  ∀ thread other, thread ≠ other → ∀ mine ∈ programs thread, ∀ theirs ∈ programs other,
    ∀ name ∈ mine.unguarded, name ∉ theirs.names

/-! ### What a call locks and touches -/

section Steps

variable {call : PoseCall Name} {p cell : PoseMutex ThreadId Name}
  {step : PoseStep (PoseMutex ThreadId Name)}

/-- The lock guards of a step. -/
noncomputable def PoseStep.blocks (step : PoseStep (PoseMutex ThreadId Name)) :
    List (Mutexes.Block (PoseMutex ThreadId Name)) :=
  match step.critical.locks with
  | [outer, inner] => [.nested outer inner]
  | locks => locks.map .single

/-- A pose that a step writes without a mutex is local, or the call does so. -/
theorem own_of_mem_steps (call : PoseCall Name) (p : PoseMutex ThreadId Name) :
    ∀ step ∈ call.steps p, ∀ cell ∈ step.critical.own,
      cell = p ∨ ∃ name ∈ call.unguarded, cell = .ofPose name := by
  cases call <;> simp [PoseCall.steps, PoseMutex.copySteps, PoseStep.critical, PoseStep.holding,
    PoseCall.unguarded]

/-- A pose that a step touches is local, or the call uses it. -/
theorem touched_of_mem_steps (call : PoseCall Name) (p : PoseMutex ThreadId Name) :
    ∀ step ∈ call.steps p, ∀ cell ∈ step.critical.touched,
      cell = p ∨ ∃ name ∈ call.names, cell = .ofPose name := by
  cases call <;> simp [PoseCall.steps, PoseMutex.copySteps, PoseStep.critical, PoseStep.holding,
    Critical.touched, PoseCall.names, PoseCall.target]

/-- Quaternions that the steps of a call keep as they are passed have been passed to the call. -/
theorem unitOperand_of_mem_steps (call : PoseCall Name) (p : PoseMutex ThreadId Name)
    (operand : call.UnitOperand) : ∀ step ∈ call.steps p, step.1.UnitOperand := by
  cases call with
  | ofPositionQuaternion | subtractQuaternion | minusQuaternion =>
    simpa [PoseCall.steps, PoseMutex.copySteps, PoseCall.UnitOperand] using operand
  | _ => simp [PoseCall.steps, PoseMutex.copySteps, PoseCall.UnitOperand]

theorem exists_call_of_mem_programSteps {thread : ThreadId} {calls : List (PoseCall Name)}
    {step : PoseStep (PoseMutex ThreadId Name)} (member : step ∈ programSteps thread calls) :
    ∃ call ∈ calls, ∃ index, step ∈ call.steps (.ofLocal thread index) := by
  obtain ⟨⟨call, index⟩, numbered, among⟩ := List.mem_flatMap.mp member
  exact ⟨call, (List.mem_zipIdx' numbered).2 ▸ List.getElem_mem _, index, among⟩

/-- Local poses are known to their threads only. -/
theorem Confined.disciplined {programs : ThreadId → List (PoseCall Name)}
    (confined : Confined programs) :
    Disciplined PoseStep.critical fun thread => programSteps thread (programs thread) := by
  intro thread other different mine member theirs otherMember cell own touched
  obtain ⟨call, among, index, step⟩ := exists_call_of_mem_programSteps member
  obtain ⟨otherCall, otherAmong, otherIndex, otherStep⟩ :=
    exists_call_of_mem_programSteps otherMember
  obtain rfl | ⟨name, unguarded, rfl⟩ := own_of_mem_steps call _ mine step cell own
  · obtain same | ⟨name, _, same⟩ := touched_of_mem_steps otherCall _ theirs otherStep _ touched
    · exact different (PoseMutex.ofLocal.inj same).1
    · cases same
  · obtain same | ⟨other, used, same⟩ :=
      touched_of_mem_steps otherCall _ theirs otherStep _ touched
    · cases same
    · obtain rfl := PoseMutex.ofPose.inj same
      exact confined thread _ different call among otherCall otherAmong name unguarded used

end Steps

/-! ### Runs -/

section Runs

/-- Steps that are performed one at a time are calls that are made one at a time. -/
theorem runFrom_serial {Cell : Type u} [eqCell : DecidableEq Cell]
    (order : Order ThreadId (PoseStep Cell)) (poses : Cell → Pose) :
    (poseSystem Cell).runFrom poses (order.map fun entry => entry.2.1) =
      some (CriticalSections.serial PoseStep.critical poses order) := by
  induction order generalizing poses with
  | nil => rfl
  | cons entry rest ih =>
    have later := ih (performAll poses entry.2.critical.body)
    change _ = some (CriticalSections.serial _ (performAll poses entry.2.critical.body) rest)
    rw [← later, PoseStep.performAll_critical]
    rfl

/-- Calls with unit operands keep the length of all quaternions. -/
theorem allUnit_of_runFrom {Cell : Type u} [eqCell : DecidableEq Cell]
    {calls : List (PoseCall Cell)} {poses made : Cell → Pose} (unit : AllUnit poses)
    (operands : ∀ call ∈ calls, call.UnitOperand)
    (replayed : (poseSystem Cell).runFrom poses calls = some made) : AllUnit made := by
  induction calls generalizing poses with
  | nil => exact Option.some.inj replayed ▸ unit
  | cons call rest ih =>
    obtain ⟨now, later⟩ := List.forall_mem_cons.mp operands
    obtain ⟨next, taken, replayed⟩ := System.runFrom_cons_iff.mp replayed
    exact ih ((allUnit_step_iff unit call).mp now next taken) later replayed

variable [eqThread : DecidableEq ThreadId] [eqName : DecidableEq Name]
  {poses : PoseMutex ThreadId Name → Pose} {programs : ThreadId → List (PoseCall Name)}
  {state : CriticalSections.State ThreadId (PoseStep (PoseMutex ThreadId Name))
    (PoseMutex ThreadId Name) Pose}

/-- Whatever calls threads make on poses they share, the poses are always those of the completed
steps, made one at a time, each thread's in its own order. A step that is under way finds all that
it touches like this, with what it has written itself on top. -/
theorem poses_one_at_a_time (confined : Confined programs)
    (reachable : (poseThreads poses programs).Reachable state) :
    ∃ (order : Order ThreadId (PoseStep (PoseMutex ThreadId Name)))
      (made : PoseMutex ThreadId Name → Pose),
      (∀ thread, order.of thread ++ (state.threads thread).stage.current ++
        (state.threads thread).rest = programSteps thread (programs thread)) ∧
      (poseSystem _).runFrom poses (order.map fun entry => entry.2.1) = some made ∧
      (∀ {thread step performed left},
        (state.threads thread).stage = .inside step performed left →
          ∀ pose ∈ step.critical.touched, state.data pose = performAll made performed pose) ∧
      ∀ pose, state.Quiet PoseStep.critical pose → state.data pose = made pose := by
  obtain ⟨order, accounted, serialized⟩ :=
    CriticalSections.serializable confined.disciplined reachable
  exact ⟨order, _, accounted, runFrom_serial order poses, serialized.inside, serialized.outside⟩

/-- If the operands have unit length, a step never begins with a quaternion of another length, and
none is left behind. -/
theorem poses_stay_unit (confined : Confined programs) (unit : AllUnit poses)
    (operands : ∀ thread, ∀ call ∈ programs thread, call.UnitOperand)
    (reachable : (poseThreads poses programs).Reachable state) :
    (∀ thread step left, (state.threads thread).stage = .inside step [] left →
      ∀ pose ∈ step.critical.touched, normSq (state.data pose).quaternion = 1) ∧
    ∀ pose, state.Quiet PoseStep.critical pose → normSq (state.data pose).quaternion = 1 := by
  obtain ⟨order, accounted, serialized⟩ :=
    CriticalSections.serializable confined.disciplined reachable
  have kept : AllUnit (CriticalSections.serial PoseStep.critical poses order) := by
    refine allUnit_of_runFrom unit ?_ (runFrom_serial order poses)
    intro call member
    obtain ⟨⟨thread, step⟩, among, rfl⟩ := List.mem_map.mp member
    have mine : step ∈ programSteps thread (programs thread) := by
      have whole : _ = programSteps thread (programs thread) := accounted thread
      rw [← whole]
      simp [Order.of, among]
    obtain ⟨call, listed, index, made⟩ := exists_call_of_mem_programSteps mine
    exact unitOperand_of_mem_steps call _ (operands thread call listed) step made
  constructor
  · intro thread step left inside pose touched
    rw [serialized.inside inside pose touched]
    exact kept pose
  · intro pose quiet
    rw [serialized.outside pose quiet]
    exact kept pose

end Runs

/-! ### Two threads -/

section Pair

/-- A thread that assigns a pose, and one that moves it. -/
def assignAndMove : Fin 2 → List (PoseCall Bool) :=
  ![[.assign false true], [.setPosition true 1]]

theorem confined_assignAndMove : Confined assignAndMove := by
  intro thread _ _ mine member _ _ name unguarded
  fin_cases thread <;> simp_all [assignAndMove, PoseCall.unguarded]

/-- The position is set between the two locks of the assignment. -/
theorem assign_one_at_a_time :
    ∃ state, ∃ order : Order (Fin 2) (PoseStep (PoseMutex (Fin 2) Bool)), ∃ made,
    (poseThreads (fun _ => .new) assignAndMove).run
      [0, 0, 1, 1, 1, 1, 1, 1, 1, 0, 0, 0, 0, 0, 0, 0, 0] = some state ∧
    (poseSystem _).runFrom (fun _ => .new) (order.map fun entry => entry.2.1) =
      some made ∧
    state.data (.ofPose false) = made (.ofPose false) := by
  have replayed : (poseThreads (fun _ => .new) assignAndMove).run
      [0, 0, 1, 1, 1, 1, 1, 1, 1, 0, 0, 0, 0, 0, 0, 0, 0] = some _ := rfl
  obtain ⟨order, made, _, run, _, quiet⟩ :=
    poses_one_at_a_time confined_assignAndMove (System.ReachableUnder.initial.replay replayed)
  refine ⟨_, order, made, replayed, run, quiet _ ?_⟩
  intro thread step performed left inside
  fin_cases thread <;> cases inside

theorem assign_stays_unit : ∃ state,
    (poseThreads (fun _ => .new) assignAndMove).run
      [0, 0, 1, 1, 1, 1, 1, 1, 1, 0, 0, 0, 0, 0, 0, 0, 0] = some state ∧
    normSq (state.data (.ofPose false)).quaternion = 1 := by
  have replayed : (poseThreads (fun _ => .new) assignAndMove).run
      [0, 0, 1, 1, 1, 1, 1, 1, 1, 0, 0, 0, 0, 0, 0, 0, 0] = some _ := rfl
  refine ⟨_, replayed, (poses_stay_unit confined_assignAndMove (fun _ => map_one _) ?_
    (System.ReachableUnder.initial.replay replayed)).2 _ ?_⟩
  · intro thread call member
    fin_cases thread <;> simp_all [assignAndMove, PoseCall.UnitOperand]
  · intro thread step performed left inside
    fin_cases thread <;> cases inside

end Pair

end Dls2.Utils
