import Dls2.Math.Quaternions

/-!
# Roll, pitch and yaw

The rotation of a set of Euler angles once as a product of three matrices and once as a quaternion
in the half angles. Both are three turns about the axes, one after the other.
-/

namespace Dls2.Math

open Matrix Quaternion Rotation Real

noncomputable def Rx (roll : ℝ) : Matrix (Fin 3) (Fin 3) ℝ :=
  !![1, 0, 0;
    0, cos roll, sin roll;
    0, -sin roll, cos roll]

noncomputable def Ry (pitch : ℝ) : Matrix (Fin 3) (Fin 3) ℝ :=
  !![cos pitch, 0, -sin pitch;
    0, 1, 0;
    sin pitch, 0, cos pitch]

noncomputable def Rz (yaw : ℝ) : Matrix (Fin 3) (Fin 3) ℝ :=
  !![cos yaw, sin yaw, 0;
    -sin yaw, cos yaw, 0;
    0, 0, 1]

noncomputable def rpyToRot (rpy : Fin 3 → ℝ) : Matrix (Fin 3) (Fin 3) ℝ :=
  Rx (rpy 0) * Ry (rpy 1) * Rz (rpy 2)

noncomputable def rpyToquat (rpy : Fin 3 → ℝ) : ℍ[ℝ] :=
  let roll := rpy 0
  let pitch := rpy 1
  let yaw := rpy 2
  ofParts
    (cos (roll / 2) * cos (pitch / 2) * cos (yaw / 2) +
      sin (roll / 2) * sin (pitch / 2) * sin (yaw / 2))
    ![sin (roll / 2) * cos (pitch / 2) * cos (yaw / 2) -
        cos (roll / 2) * sin (pitch / 2) * sin (yaw / 2),
      cos (roll / 2) * sin (pitch / 2) * cos (yaw / 2) +
        sin (roll / 2) * cos (pitch / 2) * sin (yaw / 2),
      cos (roll / 2) * cos (pitch / 2) * sin (yaw / 2) -
        sin (roll / 2) * sin (pitch / 2) * cos (yaw / 2)]

/-- The quaternion of a turn about an axis. -/
noncomputable def turn (axis : Fin 3 → ℝ) (angle : ℝ) : ℍ[ℝ] :=
  ofParts (cos (angle / 2)) (sin (angle / 2) • axis)

section Turn

variable {axis : Fin 3 → ℝ}

theorem normSq_turn (unit : axis ⬝ᵥ axis = 1) (angle : ℝ) : normSq (turn axis angle) = 1 :=
  normSq_half unit (angle / 2)

theorem ofQuaternion_turn (unit : axis ⬝ᵥ axis = 1) (angle : ℝ) :
    ofQuaternion (turn axis angle) = axisAngle axis angle := by
  have half := ofQuaternion_half unit (angle / 2)
  rwa [mul_div_cancel₀ angle two_ne_zero] at half

theorem quatToRotMat_turn (unit : axis ⬝ᵥ axis = 1) (angle : ℝ) :
    quatToRotMat (turn axis angle) = (axisAngle axis angle)ᵀ := by
  rw [quatToRotMat_of_unit (normSq_turn unit angle), ofQuaternion_turn unit]

end Turn

/-- The axes of roll, pitch and yaw. -/
def axisX : Fin 3 → ℝ := ![1, 0, 0]

def axisY : Fin 3 → ℝ := ![0, 1, 0]

def axisZ : Fin 3 → ℝ := ![0, 0, 1]

theorem Rx_eq (roll : ℝ) : Rx roll = (axisAngle axisX roll)ᵀ := by
  ext i j
  fin_cases i <;> fin_cases j <;> simp [Rx, axisX, axisAngle, skew]

theorem Ry_eq (pitch : ℝ) : Ry pitch = (axisAngle axisY pitch)ᵀ := by
  ext i j
  fin_cases i <;> fin_cases j <;> simp [Ry, axisY, axisAngle, skew]

theorem Rz_eq (yaw : ℝ) : Rz yaw = (axisAngle axisZ yaw)ᵀ := by
  ext i j
  fin_cases i <;> fin_cases j <;> simp [Rz, axisZ, axisAngle, skew]

/-- The table of `rpyToquat` is a product of three turns. -/
theorem rpyToquat_eq (rpy : Fin 3 → ℝ) :
    rpyToquat rpy =
      quatMult (quatMult (turn axisX (rpy 0)) (turn axisY (rpy 1))) (turn axisZ (rpy 2)) := by
  rw [quatMult_eq, quatMult_eq]
  ext <;> simp [rpyToquat, turn, axisX, axisY, axisZ] <;> ring

/-- Both ways from the angles lead to the same rotation. -/
theorem rpyToquat_rpyToRot (rpy : Fin 3 → ℝ) :
    normSq (rpyToquat rpy) = 1 ∧ quatToRotMat (rpyToquat rpy) = rpyToRot rpy := by
  have unitX : axisX ⬝ᵥ axisX = 1 := by simp [axisX]
  have unitY : axisY ⬝ᵥ axisY = 1 := by simp [axisY]
  have unitZ : axisZ ⬝ᵥ axisZ = 1 := by simp [axisZ]
  have roll := normSq_turn unitX (rpy 0)
  have pitch := normSq_turn unitY (rpy 1)
  have yaw := normSq_turn unitZ (rpy 2)
  have both := normSq_quatMult roll pitch
  rw [rpyToquat_eq]
  refine ⟨normSq_quatMult both yaw, ?_⟩
  rw [quatToRotMat_quatMult both yaw, quatToRotMat_quatMult roll pitch, quatToRotMat_turn unitX,
    quatToRotMat_turn unitY, quatToRotMat_turn unitZ, ← Rx_eq, ← Ry_eq, ← Rz_eq, rpyToRot]

end Dls2.Math
