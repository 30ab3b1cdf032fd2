import Dls2.Lib.RotationRates
import Dls2.Math.EulerAngles

/-!
# Angular velocities

The angular velocity from the rates of the Euler angles, in base and in world coordinates, and from
the derivative of a quaternion. `TurnsWith` says what an angular velocity is.
-/

namespace Dls2.Math

open Matrix Quaternion Rotation Real

noncomputable section

def rpyToEarInv (rpy : Fin 3 → ℝ) : Matrix (Fin 3) (Fin 3) ℝ :=
  let pitch := rpy 1
  let yaw := rpy 2
  !![cos pitch * cos yaw, -sin yaw, 0;
    cos pitch * sin yaw, cos yaw, 0;
    -sin pitch, 0, 1]

def rpyToEar (rpy : Fin 3 → ℝ) : Matrix (Fin 3) (Fin 3) ℝ :=
  let roll := rpy 0
  let pitch := rpy 1
  !![1, 0, -sin pitch;
    0, cos roll, cos pitch * sin roll;
    0, -sin roll, cos pitch * cos roll]

def rpyToEarInvDot (rpy rpyd : Fin 3 → ℝ) : Matrix (Fin 3) (Fin 3) ℝ :=
  let pitch := rpy 1
  let yaw := rpy 2
  let pitchd := rpyd 1
  let yawd := rpyd 2
  !![-cos yaw * sin pitch * pitchd - cos pitch * sin yaw * yawd, -cos yaw * yawd, 0;
    cos yaw * cos pitch * yawd - sin yaw * sin pitch * pitchd, -sin yaw * yawd, 0;
    -cos pitch * pitchd, 0, 0]

end

def quatToOmega {K : Type*} [CommRing K] (q qd : ℍ[K]) : Fin 3 → K :=
  let W : Matrix (Fin 3) (Fin 4) K :=
    !![-q.imI, q.re, q.imK, -q.imJ;
      -q.imJ, -q.imK, q.re, q.imI;
      -q.imK, q.imJ, -q.imI, q.re]
  (2 • W) *ᵥ castQuatToVector qd

section Rotations

theorem unit_axisX : axisX ⬝ᵥ axisX = 1 := by simp [axisX]

theorem unit_axisY : axisY ⬝ᵥ axisY = 1 := by simp [axisY]

theorem unit_axisZ : axisZ ⬝ᵥ axisZ = 1 := by simp [axisZ]

theorem rpyToRot_eq_axisAngle (rpy : Fin 3 → ℝ) :
    rpyToRot rpy = (axisAngle axisX (rpy 0))ᵀ * (axisAngle axisY (rpy 1))ᵀ *
      (axisAngle axisZ (rpy 2))ᵀ := by
  rw [rpyToRot, Rx_eq, Ry_eq, Rz_eq]

theorem rpyToRot_mem (rpy : Fin 3 → ℝ) : rpyToRot rpy ∈ specialOrthogonalGroup (Fin 3) ℝ := by
  rw [rpyToRot_eq_axisAngle]
  have rotates {axis : Fin 3 → ℝ} (unit : axis ⬝ᵥ axis = 1) (angle : ℝ) :=
    transpose_mem (axisAngle_mem unit angle)
  exact mul_mem (mul_mem (rotates unit_axisX _) (rotates unit_axisY _)) (rotates unit_axisZ _)

theorem normSq_rpyToquat (rpy : Fin 3 → ℝ) : normSq (rpyToquat rpy) = 1 := by
  rw [rpyToquat_eq]
  exact normSq_quatMult (normSq_quatMult (normSq_turn unit_axisX _) (normSq_turn unit_axisY _))
    (normSq_turn unit_axisZ _)

theorem rpyToRot_eq_ofQuaternion (rpy : Fin 3 → ℝ) :
    rpyToRot rpy = (ofQuaternion (rpyToquat rpy))ᵀ := by
  rw [rpyToquat_eq, quatMult_eq, quatMult_eq, ofQuaternion_mul, ofQuaternion_mul, transpose_mul,
    transpose_mul, ofQuaternion_turn unit_axisX, ofQuaternion_turn unit_axisY,
    ofQuaternion_turn unit_axisZ, rpyToRot_eq_axisAngle]

/-- In base coordinates instead of world coordinates. -/
theorem rpyToEar_eq (rpy : Fin 3 → ℝ) : rpyToEar rpy = rpyToRot rpy * rpyToEarInv rpy := by
  have pitch := sin_sq_add_cos_sq (rpy 1)
  have yaw := sin_sq_add_cos_sq (rpy 2)
  ext i j
  fin_cases i <;> fin_cases j <;>
    simp [rpyToEar, rpyToRot, rpyToEarInv, Rx, Ry, Rz] <;> grind

end Rotations

section Rates

variable {rpy : ℝ → Fin 3 → ℝ} {rpyd : Fin 3 → ℝ} {t : ℝ}

theorem Rx_mulVec_axisY (roll : ℝ) : Rx roll *ᵥ axisY = ![0, cos roll, -sin roll] := by
  ext i
  fin_cases i <;> simp [Rx, axisY, mulVec, dotProduct, Fin.sum_univ_three]

theorem Rx_mul_Ry_mulVec_axisZ (roll pitch : ℝ) : (Rx roll * Ry pitch) *ᵥ axisZ =
    ![-sin pitch, cos pitch * sin roll, cos pitch * cos roll] := by
  ext i
  fin_cases i <;> simp [Rx, Ry, axisZ, mulVec, dotProduct, Fin.sum_univ_three] <;> ring

/-- The turns about the three axes, one after the other. -/
theorem turnsWith_rpyToRot (moves : ∀ i, HasDerivAt (fun s => rpy s i) (rpyd i) t) :
    TurnsWith (fun s => rpyToRot (rpy s)) (rpyToEar (rpy t) *ᵥ rpyd) t := by
  have turned := ((turnsWith_axisAngle unit_axisX (moves 0)).mul
    (turnsWith_axisAngle unit_axisY (moves 1)) (transpose_mem (axisAngle_mem unit_axisX _))).mul
    (turnsWith_axisAngle unit_axisZ (moves 2))
    (mul_mem (transpose_mem (axisAngle_mem unit_axisX _))
      (transpose_mem (axisAngle_mem unit_axisY _)))
  have sum : rpyd 0 • axisX + (axisAngle axisX (rpy t 0))ᵀ *ᵥ rpyd 1 • axisY +
      ((axisAngle axisX (rpy t 0))ᵀ * (axisAngle axisY (rpy t 1))ᵀ) *ᵥ rpyd 2 • axisZ =
      rpyToEar (rpy t) *ᵥ rpyd := by
    rw [← Rx_eq, ← Ry_eq, mulVec_smul, mulVec_smul, Rx_mulVec_axisY, Rx_mul_Ry_mulVec_axisZ]
    ext i
    fin_cases i <;> simp [axisX, rpyToEar, mulVec, dotProduct, Fin.sum_univ_three] <;> ring
  rw [sum] at turned
  simpa only [rpyToRot_eq_axisAngle] using turned

theorem hasEntryDerivs_rpyToEarInv (moves : ∀ i, HasDerivAt (fun s => rpy s i) (rpyd i) t) :
    HasEntryDerivs (fun s => rpyToEarInv (rpy s)) (rpyToEarInvDot (rpy t) rpyd) t := by
  have pitch := moves 1
  have yaw := moves 2
  intro i j
  fin_cases i <;> fin_cases j
  · exact (pitch.cos.mul yaw.cos).congr_deriv (by simp [rpyToEarInvDot]; ring)
  · exact yaw.sin.neg.congr_deriv (by simp [rpyToEarInvDot])
  · exact hasDerivAt_const ..
  · exact (pitch.cos.mul yaw.sin).congr_deriv (by simp [rpyToEarInvDot]; ring)
  · exact yaw.cos.congr_deriv (by simp [rpyToEarInvDot])
  · exact hasDerivAt_const ..
  · exact pitch.sin.neg.congr_deriv (by simp [rpyToEarInvDot])
  · exact hasDerivAt_const ..
  · exact hasDerivAt_const ..

/-- The rates of the Euler angles give the angular velocity, which `rpyToEar` has in the coordinates
of the base and `rpyToEarInv` in those of the world; and `rpyToEarInvDot` is the derivative of the
latter. -/
theorem rpy_rates (moves : ∀ i, HasDerivAt (fun s => rpy s i) (rpyd i) t) :
    TurnsWith (fun s => rpyToRot (rpy s)) (rpyToEar (rpy t) *ᵥ rpyd) t ∧
    HasEntryDerivs (fun s => rpyToRot (rpy s))
      (-(rpyToRot (rpy t) * skew (rpyToEarInv (rpy t) *ᵥ rpyd))) t ∧
    HasEntryDerivs (fun s => rpyToEarInv (rpy s)) (rpyToEarInvDot (rpy t) rpyd) t := by
  have turned := turnsWith_rpyToRot moves
  refine ⟨turned, ?_, hasEntryDerivs_rpyToEarInv moves⟩
  rwa [mul_skew (rpyToRot_mem _), mulVec_mulVec, ← rpyToEar_eq]

/-- A yaw rate of one. -/
theorem rpy_rates_yaw :
    TurnsWith (fun s => rpyToRot ![0, 0, s]) (rpyToEar ![0, 0, 0] *ᵥ ![0, 0, 1]) 0 := by
  refine (rpy_rates fun i => ?_).1
  fin_cases i
  · exact hasDerivAt_const ..
  · exact hasDerivAt_const ..
  · exact hasDerivAt_id 0

end Rates

section Omega

variable {q : ℝ → ℍ[ℝ]} {qd : ℍ[ℝ]} {t : ℝ}

theorem quatToOmega_eq (q qd : ℍ[ℝ]) : quatToOmega q qd = velocity q qd := by
  ext i
  fin_cases i <;>
    simp [quatToOmega, velocity, castQuatToVector] <;> ring

/-- The derivative of a unit quaternion gives the angular velocity. -/
theorem quatToOmega_turns (moves : HasPartDerivs q qd t) (unit : ∀ s, normSq (q s) = 1) :
    TurnsWith (fun s => quatToRotMat (q s)) (quatToOmega (q t) qd) t := by
  have same : (fun s => quatToRotMat (q s)) = fun s => (ofQuaternion (q s))ᵀ :=
    funext fun s => quatToRotMat_of_unit (unit s)
  rw [same, quatToOmega_eq]
  exact turnsWith_ofQuaternion moves unit

/-- A turn about the third axis, at its start. -/
theorem hasPartDerivs_turn : HasPartDerivs (turn axisZ) (ofParts 0 ![0, 0, 1 / 2]) 0 := by
  have half : HasDerivAt (fun s : ℝ => s / 2) (1 / 2) 0 := (hasDerivAt_id 0).div_const 2
  refine ⟨?_, ?_, ?_, ?_⟩
  · exact half.cos.congr_deriv (by simp)
  · exact (half.sin.mul_const 0).congr_deriv (by simp)
  · exact (half.sin.mul_const 0).congr_deriv (by simp)
  · exact (half.sin.mul_const 1).congr_deriv (by simp)

theorem quatToOmega_turns_axisZ :
    TurnsWith (fun s => quatToRotMat (turn axisZ s))
      (quatToOmega (turn axisZ 0) (ofParts 0 ![0, 0, 1 / 2])) 0 :=
  quatToOmega_turns hasPartDerivs_turn (normSq_turn unit_axisZ)

/-- On every path of the Euler angles, the angular velocity is the same from the derivative of their
quaternion and from their rates. -/
theorem quatToOmega_rpyToquat {rpy : ℝ → Fin 3 → ℝ} {rpyd : Fin 3 → ℝ}
    (moves : ∀ i, HasDerivAt (fun s => rpy s i) (rpyd i) t)
    (turns : HasPartDerivs (fun s => rpyToquat (rpy s)) qd t) :
    quatToOmega (rpyToquat (rpy t)) qd = rpyToEar (rpy t) *ᵥ rpyd := by
  have first := turnsWith_ofQuaternion turns fun s => normSq_rpyToquat (rpy s)
  simp only [← rpyToRot_eq_ofQuaternion] at first
  rw [quatToOmega_eq]
  exact first.unique (turnsWith_rpyToRot moves) (rpyToRot_mem _)

theorem quatToOmega_rpyToquat_yaw :
    quatToOmega (rpyToquat ![0, 0, 0]) (ofParts 0 ![0, 0, 1 / 2]) =
      rpyToEar ![0, 0, 0] *ᵥ ![0, 0, 1] := by
  have path : (fun s => rpyToquat ![0, 0, s]) = turn axisZ := by
    funext s
    ext <;> simp [rpyToquat, turn, axisZ]
  have turns : HasPartDerivs (fun s => rpyToquat ![0, 0, s]) (ofParts 0 ![0, 0, 1 / 2]) 0 := by
    rw [path]
    exact hasPartDerivs_turn
  have moves : ∀ i, HasDerivAt (fun s => (![0, 0, s] : Fin 3 → ℝ) i) ((![0, 0, 1] : Fin 3 → ℝ) i)
      0 := by
    intro i
    fin_cases i
    · exact hasDerivAt_const ..
    · exact hasDerivAt_const ..
    · exact hasDerivAt_id 0
  exact @quatToOmega_rpyToquat _ 0 (fun s => ![0, 0, s]) ![0, 0, 1] moves turns

end Omega

end Dls2.Math
