import Mathlib.Logic.Function.Basic
import Dls2.Lib.Transition
import Dls2.Math.EulerAngles

/-!
# Poses

A pose is a position and a quaternion. The setters normalise the quaternion they are given. One
constructor and the subtraction of a quaternion keep it as it is.

Poses have names, under which calls store them one after the other. Numbers are exact here. The
calls `a = a` and `a -= a` lock the mutex of `a` twice and hang in the source; here, where there
are no mutexes, they are let pass.
-/

namespace Dls2.Utils

open Matrix Quaternion Rotation
open Math (quatToRotMat quatToRotMat_mem turn normSq_turn)
open Transition (System)

noncomputable section

/-- A quaternion that a caller passes. -/
abbrev QuaternionOperand := {q : ℍ[ℝ] // q ≠ 0}

/-- `Eigen::AngleAxisd`, with an axis of unit length. -/
structure AngleAxis where
  axis : Fin 3 → ℝ
  angle : ℝ
  unit : axis ⬝ᵥ axis = 1

/-- The conversion to a quaternion. -/
def AngleAxis.toQuaternion (aa : AngleAxis) : ℍ[ℝ] := turn aa.axis aa.angle

/-- `normalized` of a quaternion. -/
def normalized (q : ℍ[ℝ]) : ℍ[ℝ] := if normSq q > 0 then (√(normSq q))⁻¹ • q else q

structure Pose where
  position : Fin 3 → ℝ
  quaternion : ℍ[ℝ]

namespace Pose

/-! ### Constructors -/

def new : Pose := ⟨0, 1⟩

def ofPosition (vec : Fin 3 → ℝ) : Pose := ⟨vec, 1⟩

def ofAngleAxis (aa : AngleAxis) : Pose := ⟨0, aa.toQuaternion⟩

def ofPositionQuaternion (vec : Fin 3 → ℝ) (q : ℍ[ℝ]) : Pose := ⟨vec, q⟩

def ofPositionAngleAxis (vec : Fin 3 → ℝ) (aa : AngleAxis) : Pose := ⟨vec, aa.toQuaternion⟩

def copy (rhs : Pose) : Pose :=
  { new with
    position := rhs.position
    quaternion := rhs.quaternion }

/-! ### Arithmetic -/

/-- `operator=`. -/
def assign (pose rhs : Pose) : Pose :=
  { pose with
    position := rhs.position
    quaternion := rhs.quaternion }

/-- `operator-=`. -/
def subtract (pose rhs : Pose) : Pose :=
  { pose with
    position := pose.position - rhs.position
    quaternion := rhs.quaternion * pose.quaternion⁻¹ }

def subtractPosition (pose : Pose) (rhs : Fin 3 → ℝ) : Pose :=
  { pose with position := pose.position - rhs }

def subtractQuaternion (pose : Pose) (rhs : ℍ[ℝ]) : Pose :=
  { pose with quaternion := rhs * pose.quaternion⁻¹ }

/-- `operator-`, which returns a copy of its local pose. -/
def minus (pose rhs : Pose) : Pose := (pose.copy.subtract rhs).copy

def minusPosition (pose : Pose) (rhs : Fin 3 → ℝ) : Pose := (pose.copy.subtractPosition rhs).copy

def minusQuaternion (pose : Pose) (rhs : ℍ[ℝ]) : Pose := (pose.copy.subtractQuaternion rhs).copy

/-! ### Setters -/

def setPosition (pose : Pose) (vec : Fin 3 → ℝ) : Pose := { pose with position := vec }

def setQuaternion (pose : Pose) (q : ℍ[ℝ]) : Pose := { pose with quaternion := normalized q }

def setAngleAxis (pose : Pose) (aa : AngleAxis) : Pose :=
  { pose with quaternion := normalized aa.toQuaternion }

def setPositionQuaternion (pose : Pose) (vec : Fin 3 → ℝ) (q : ℍ[ℝ]) : Pose :=
  { pose with
    position := vec
    quaternion := normalized q }

def setPositionAngleAxis (pose : Pose) (vec : Fin 3 → ℝ) (aa : AngleAxis) : Pose :=
  { pose with
    position := vec
    quaternion := normalized aa.toQuaternion }

/-- The setter with arrays; the scalar part is the last entry of `ori`. -/
def setArrays (pose : Pose) (pos : Fin 3 → ℝ) (ori : Fin 4 → ℝ) : Pose :=
  { pose with
    position := pos
    quaternion := normalized (ofParts (ori 3) ![ori 0, ori 1, ori 2]) }

/-! ### The transformation matrix -/

/-- `T.block<m, n>(row, col) = values`. -/
def writeBlock {m n : ℕ} (T : Matrix (Fin 4) (Fin 4) ℝ) (row col : ℕ)
    (values : Matrix (Fin m) (Fin n) ℝ) : Matrix (Fin 4) (Fin 4) ℝ := fun i j =>
  if inside : (row ≤ i ∧ i - row < m) ∧ col ≤ j ∧ j - col < n then
    values ⟨i - row, inside.1.2⟩ ⟨j - col, inside.2.2⟩
  else T i j

/-- `memory` is what the matrix holds when it is constructed. -/
def toTransformationMatrix (pose : Pose) (memory : Matrix (Fin 4) (Fin 4) ℝ) :
    Matrix (Fin 4) (Fin 4) ℝ :=
  let T := writeBlock memory 0 0 (quatToRotMat pose.quaternion)
  let T := writeBlock T 0 3 (replicateCol (Fin 1) pose.position)
  let T := writeBlock T 3 1 (0 : Matrix (Fin 1) (Fin 3) ℝ)
  writeBlock T 3 3 (1 : Matrix (Fin 1) (Fin 1) ℝ)

end Pose

/-! ### Calls -/

/-- A call that stores a pose under a name. -/
inductive PoseCall (Name : Type*) where
  | new (target : Name)
  | ofPosition (target : Name) (vec : Fin 3 → ℝ)
  | ofAngleAxis (target : Name) (aa : AngleAxis)
  | ofPositionQuaternion (target : Name) (vec : Fin 3 → ℝ) (q : QuaternionOperand)
  | ofPositionAngleAxis (target : Name) (vec : Fin 3 → ℝ) (aa : AngleAxis)
  | copy (target rhs : Name)
  | assign (lhs rhs : Name)
  | subtract (lhs rhs : Name)
  | subtractPosition (lhs : Name) (rhs : Fin 3 → ℝ)
  | subtractQuaternion (lhs : Name) (rhs : QuaternionOperand)
  /-- The difference is stored under the target. -/
  | minus (target lhs rhs : Name)
  | minusPosition (target lhs : Name) (rhs : Fin 3 → ℝ)
  | minusQuaternion (target lhs : Name) (rhs : QuaternionOperand)
  | setPosition (target : Name) (vec : Fin 3 → ℝ)
  | setQuaternion (target : Name) (q : QuaternionOperand)
  | setAngleAxis (target : Name) (aa : AngleAxis)
  | setPositionQuaternion (target : Name) (vec : Fin 3 → ℝ) (q : QuaternionOperand)
  | setPositionAngleAxis (target : Name) (vec : Fin 3 → ℝ) (aa : AngleAxis)
  | setArrays (target : Name) (pos : Fin 3 → ℝ) (ori : {ori : Fin 4 → ℝ // ori ≠ 0})

namespace PoseCall

variable {Name : Type*}

/-- The name whose pose the call stores. -/
def target : PoseCall Name → Name
  | .new target | .ofPosition target _ | .ofAngleAxis target _ | .ofPositionQuaternion target _ _
  | .ofPositionAngleAxis target _ _ | .copy target _ | .assign target _ | .subtract target _
  | .subtractPosition target _ | .subtractQuaternion target _ | .minus target _ _
  | .minusPosition target _ _ | .minusQuaternion target _ _ | .setPosition target _
  | .setQuaternion target _ | .setAngleAxis target _ | .setPositionQuaternion target _ _
  | .setPositionAngleAxis target _ _ | .setArrays target _ _ => target

/-- The pose that it stores. -/
def stored (poses : Name → Pose) : PoseCall Name → Pose
  | .new _ => .new
  | .ofPosition _ vec => .ofPosition vec
  | .ofAngleAxis _ aa => .ofAngleAxis aa
  | .ofPositionQuaternion _ vec q => .ofPositionQuaternion vec q
  | .ofPositionAngleAxis _ vec aa => .ofPositionAngleAxis vec aa
  | .copy _ rhs => (poses rhs).copy
  | .assign lhs rhs => (poses lhs).assign (poses rhs)
  | .subtract lhs rhs => (poses lhs).subtract (poses rhs)
  | .subtractPosition lhs rhs => (poses lhs).subtractPosition rhs
  | .subtractQuaternion lhs rhs => (poses lhs).subtractQuaternion rhs
  | .minus _ lhs rhs => (poses lhs).minus (poses rhs)
  | .minusPosition _ lhs rhs => (poses lhs).minusPosition rhs
  | .minusQuaternion _ lhs rhs => (poses lhs).minusQuaternion rhs
  | .setPosition target vec => (poses target).setPosition vec
  | .setQuaternion target q => (poses target).setQuaternion q
  | .setAngleAxis target aa => (poses target).setAngleAxis aa
  | .setPositionQuaternion target vec q => (poses target).setPositionQuaternion vec q
  | .setPositionAngleAxis target vec aa => (poses target).setPositionAngleAxis vec aa
  | .setArrays target pos ori => (poses target).setArrays pos ori

/-- A quaternion that is stored as it was passed has unit length. -/
def UnitOperand : PoseCall Name → Prop
  | .ofPositionQuaternion _ _ q | .subtractQuaternion _ q | .minusQuaternion _ _ q =>
    normSq q.1 = 1
  | _ => True

end PoseCall

/-- Poses under names; at first all of them are at the origin. -/
def poseSystem (Name : Type*) [DecidableEq Name] : System (Name → Pose) (PoseCall Name) where
  initial := fun _ => .new
  step poses call := some (Function.update poses call.target (call.stored poses))

/-- A transformation that turns and moves to the position of the pose. -/
structure RigidTransform (pose : Pose) (T : Matrix (Fin 4) (Fin 4) ℝ) : Prop where
  rotation : T.submatrix Fin.castSucc Fin.castSucc ∈ specialOrthogonalGroup (Fin 3) ℝ
  position : (fun i : Fin 3 => T i.castSucc (Fin.last 3)) = pose.position
  bottom : T (Fin.last 3) = ![0, 0, 0, 1]

end

/-! ### Lengths -/

section Lengths

theorem normSq_normalized {q : ℍ[ℝ]} (nonzero : q ≠ 0) : normSq (normalized q) = 1 := by
  have positive : 0 < normSq q := normSq_nonneg.lt_of_ne' (normSq_ne_zero.mpr nonzero)
  rw [normalized, if_pos positive, normSq_smul, inv_pow, Real.sq_sqrt positive.le,
    inv_mul_cancel₀ positive.ne']

theorem normSq_toQuaternion (aa : AngleAxis) : normSq aa.toQuaternion = 1 :=
  normSq_turn aa.unit aa.angle

theorem toQuaternion_ne_zero (aa : AngleAxis) : aa.toQuaternion ≠ 0 := by
  intro zero
  have unit := normSq_toQuaternion aa
  rw [zero, map_zero] at unit
  exact zero_ne_one unit

/-- Subtracting from a unit quaternion keeps the length of the other one. -/
theorem normSq_mul_inv {p : ℍ[ℝ]} (unit : normSq p = 1) (q : ℍ[ℝ]) :
    normSq (q * p⁻¹) = normSq q := by
  rw [map_mul, map_inv₀, unit, inv_one, mul_one]

theorem ofArray_ne_zero {ori : Fin 4 → ℝ} (nonzero : ori ≠ 0) :
    ofParts (ori 3) ![ori 0, ori 1, ori 2] ≠ 0 := by
  intro zero
  apply nonzero
  ext i
  fin_cases i
  · exact congrArg QuaternionAlgebra.imI zero
  · exact congrArg QuaternionAlgebra.imJ zero
  · exact congrArg QuaternionAlgebra.imK zero
  · exact congrArg QuaternionAlgebra.re zero

end Lengths

/-! ### The matrix -/

section TransformationMatrix

variable (pose : Pose) (memory : Matrix (Fin 4) (Fin 4) ℝ)

theorem toTransformationMatrix_rotation :
    (pose.toTransformationMatrix memory).submatrix Fin.castSucc Fin.castSucc =
      quatToRotMat pose.quaternion := by
  ext i j
  fin_cases i <;> fin_cases j <;> rfl

theorem toTransformationMatrix_position (i : Fin 3) :
    pose.toTransformationMatrix memory i.castSucc (Fin.last 3) = pose.position i := by
  fin_cases i <;> rfl

/-- The blocks leave one entry of the last row to the memory. -/
theorem toTransformationMatrix_bottom :
    pose.toTransformationMatrix memory (Fin.last 3) = ![memory (Fin.last 3) 0, 0, 0, 1] := by
  ext j
  fin_cases j <;> rfl

variable {pose}

theorem rigidTransform_iff (unit : normSq pose.quaternion = 1) :
    RigidTransform pose (pose.toTransformationMatrix memory) ↔ memory (Fin.last 3) 0 = 0 := by
  constructor
  · intro rigid
    have bottom := rigid.bottom
    rw [toTransformationMatrix_bottom] at bottom
    exact congrFun bottom 0
  · intro zero
    exact {
      rotation := by
        rw [toTransformationMatrix_rotation]
        exact quatToRotMat_mem unit
      position := funext (toTransformationMatrix_position pose memory)
      bottom := by rw [toTransformationMatrix_bottom, zero] }

end TransformationMatrix

/-! ### Runs -/

section Runs

variable {Name : Type*} [DecidableEq Name]

/-- Every stored quaternion has unit length. -/
def AllUnit (poses : Name → Pose) : Prop := ∀ name, normSq (poses name).quaternion = 1

omit [DecidableEq Name] in
/-- What a call stores. -/
theorem normSq_stored_iff {poses : Name → Pose} (unit : AllUnit poses) (call : PoseCall Name) :
    normSq (call.stored poses).quaternion = 1 ↔ call.UnitOperand := by
  cases call with
  | new | ofPosition => exact iff_of_true (map_one _) trivial
  | ofAngleAxis _ aa | ofPositionAngleAxis _ _ aa =>
    exact iff_of_true (normSq_toQuaternion aa) trivial
  | ofPositionQuaternion => exact Iff.rfl
  | copy _ rhs | assign _ rhs => exact iff_of_true (unit rhs) trivial
  | subtract lhs rhs | minus _ lhs rhs =>
    exact iff_of_true ((normSq_mul_inv (unit lhs) _).trans (unit rhs)) trivial
  | subtractPosition lhs | minusPosition _ lhs | setPosition lhs =>
    exact iff_of_true (unit lhs) trivial
  | subtractQuaternion lhs rhs | minusQuaternion _ lhs rhs =>
    exact Eq.congr_left (normSq_mul_inv (unit lhs) rhs.1)
  | setQuaternion _ q | setPositionQuaternion _ _ q =>
    exact iff_of_true (normSq_normalized q.2) trivial
  | setAngleAxis _ aa | setPositionAngleAxis _ _ aa =>
    exact iff_of_true (normSq_normalized (toQuaternion_ne_zero aa)) trivial
  | setArrays _ _ ori => exact iff_of_true (normSq_normalized (ofArray_ne_zero ori.2)) trivial

/-- A call keeps all lengths exactly if its operand has unit length, where that matters. -/
theorem allUnit_step_iff {poses : Name → Pose} (unit : AllUnit poses) (call : PoseCall Name) :
    call.UnitOperand ↔ ∀ next ∈ (poseSystem Name).step poses call, AllUnit next := by
  rw [← normSq_stored_iff unit]
  constructor
  · intro stored next taken name
    obtain rfl := Option.some.inj taken
    by_cases same : name = call.target
    · subst same
      rwa [Function.update_self]
    · rw [Function.update_of_ne same]
      exact unit name
  · intro kept
    have target := kept _ rfl call.target
    rwa [Function.update_self] at target

theorem admitsFrom_unitOperand_iff (poses : Name → Pose) (calls : List (PoseCall Name)) :
    (poseSystem Name).AdmitsFrom (fun _ call => call.UnitOperand) poses calls ↔
      ∀ call ∈ calls, call.UnitOperand := by
  induction calls generalizing poses with
  | nil => simp [System.AdmitsFrom]
  | cons call rest ih =>
    rw [System.AdmitsFrom, List.forall_mem_cons]
    exact and_congr_right fun _ => ⟨fun later => (ih _).mp (later _ rfl),
      fun operands next _ => (ih next).mpr operands⟩

theorem alwaysFrom_allUnit_iff (calls : List (PoseCall Name)) :
    (poseSystem Name).AlwaysFrom AllUnit (poseSystem Name).initial calls ↔
      ∀ call ∈ calls, call.UnitOperand := by
  have initial : AllUnit (poseSystem Name).initial := fun _ => map_one _
  rw [System.alwaysFrom_iff_admitsFrom (fun _ => True) (fun _ _ => trivial)
    (fun _ unit => allUnit_step_iff unit _) trivial, admitsFrom_unitOperand_iff,
    and_iff_right initial]

end Runs

/-- After every call of a run, all poses are of unit length and give rigid transformations, exactly
if the quaternions that are stored as they were passed have unit length and the memory of the matrix
holds a zero where the last row begins. -/
theorem alwaysRigid_iff {Name : Type*} [DecidableEq Name] [Inhabited Name]
    (calls : List (PoseCall Name)) (memory : Matrix (Fin 4) (Fin 4) ℝ) :
    (poseSystem Name).AlwaysFrom
      (fun poses => ∀ name, normSq (poses name).quaternion = 1 ∧
        RigidTransform (poses name) ((poses name).toTransformationMatrix memory))
      (poseSystem Name).initial calls ↔
    (∀ call ∈ calls, call.UnitOperand) ∧ memory (Fin.last 3) 0 = 0 := by
  rw [← alwaysFrom_allUnit_iff]
  constructor
  · intro always
    refine ⟨fun before ahead later replayed name => (always before ahead later replayed name).1, ?_⟩
    obtain ⟨unit, rigid⟩ := always [] List.nil_prefix _ rfl default
    exact (rigidTransform_iff memory unit).mp rigid
  · rintro ⟨always, zero⟩ before ahead later replayed name
    have unit := always before ahead later replayed name
    exact ⟨unit, (rigidTransform_iff memory unit).mpr zero⟩

/-- A constructor that keeps the quaternion 2, and a subtraction that does. And over a memory full
of ones the matrix of a new pose has a one where its last row begins. -/
theorem not_alwaysRigid_doubled :
    let two : QuaternionOperand := ⟨((2 : ℝ) : ℍ[ℝ]), coe_injective.ne two_ne_zero⟩
    let ones : Matrix (Fin 4) (Fin 4) ℝ := Matrix.of fun _ _ => 1
    (∃ poses, (poseSystem Unit).run [.ofPositionQuaternion () 0 two] = some poses ∧
      normSq (poses ()).quaternion = 4) ∧
    (∃ poses, (poseSystem Unit).run [.new (), .subtractQuaternion () two] = some poses ∧
      normSq (poses ()).quaternion = 4) ∧
    Pose.new.toTransformationMatrix ones (Fin.last 3) = ![1, 0, 0, 1] ∧
    ¬ RigidTransform Pose.new (Pose.new.toTransformationMatrix ones) := by
  intro two ones
  have four : normSq two.1 = 4 := by
    rw [normSq_coe]
    norm_num
  have unit : normSq Pose.new.quaternion = 1 := map_one _
  refine ⟨⟨_, rfl, four⟩, ⟨_, rfl, ?_⟩, toTransformationMatrix_bottom _ _, ?_⟩
  · exact (normSq_mul_inv unit two.1).trans four
  · rw [rigidTransform_iff ones unit]
    exact one_ne_zero

end Dls2.Utils
