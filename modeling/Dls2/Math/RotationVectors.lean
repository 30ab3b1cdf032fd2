import Mathlib.Analysis.SpecialFunctions.Complex.Arg
import Mathlib.Analysis.SpecialFunctions.Trigonometric.Bounds
import Dls2.Lib.Rotation

/-!
# The orientation error of two matrices

The error is the rotation vector of the relative rotation. Its axis is read off the antisymmetric
part of the matrix, whose length is the sine of the angle, and a short one counts as no rotation.
The sine is short near half a turn as well.
-/

namespace Dls2.Math

open Matrix Rotation Real

noncomputable section

def skewSim {K : Type*} [CommRing K] (v : Fin 3 → K) : Matrix (Fin 3) (Fin 3) K :=
  !![0, -v 2, v 1;
    v 2, 0, -v 0;
    -v 1, v 0, 0]

def skewSimToVec (R : Matrix (Fin 3) (Fin 3) ℝ) : Fin 3 → ℝ :=
  ![1 / 2 * (R 2 1 - R 1 2), 1 / 2 * (R 0 2 - R 2 0), 1 / 2 * (R 1 0 - R 0 1)]

/-- `atan2`. -/
def atan2 (y x : ℝ) : ℝ := Complex.arg ⟨x, y⟩

/-- The length up to which a vector counts as zero. -/
def tolerance : ℝ := 1 / 10 ^ 10

def rotMatToRotVec (R : Matrix (Fin 3) (Fin 3) ℝ) : Fin 3 → ℝ :=
  let c := 1 / 2 * (R 0 0 + R 1 1 + R 2 2 - 1)
  let w := -skewSimToVec R
  let s := length w
  if |s| ≤ tolerance then 0
  else
    let angle := atan2 s c
    let axis := s⁻¹ • w
    angle • axis

def rotVecToRotMat (v : Fin 3 → ℝ) : Matrix (Fin 3) (Fin 3) ℝ :=
  let angle := length v
  if |angle| ≥ tolerance then
    let axis := (length v)⁻¹ • v
    cos angle • 1 + vecMulVec ((1 - cos angle) • axis) axis - sin angle • skewSim axis
  else 1

/-- `computeOrientError` of two matrices. -/
def computeOrientErrorRot (Rdes Ract : Matrix (Fin 3) (Fin 3) ℝ) : Fin 3 → ℝ :=
  rotMatToRotVec (Rdes * Ractᵀ)

end

/-! ### What the functions read off a rotation -/

section Read

variable {axis : Fin 3 → ℝ} {angle : ℝ}

theorem skewSimToVec_axisAngle (axis : Fin 3 → ℝ) (angle : ℝ) :
    skewSimToVec (axisAngle axis angle) = sin angle • axis := by
  ext i
  fin_cases i <;> simp [skewSimToVec, axisAngle, vecMulVec_apply, skew] <;> ring

theorem length_of_unit (unit : axis ⬝ᵥ axis = 1) : length axis = 1 := by
  rw [length, unit, sqrt_one]

theorem atan2_sin_cos (nonneg : 0 ≤ angle) (half : angle ≤ π) :
    atan2 (sin angle) (cos angle) = angle := by
  have shape : (⟨cos angle, sin angle⟩ : ℂ) =
      Complex.cos angle + Complex.sin angle * Complex.I := by
    apply Complex.ext <;> simp [Complex.cos_ofReal_re, Complex.sin_ofReal_re]
  rw [atan2, shape, Complex.arg_cos_add_sin_mul_I ⟨by linarith [pi_pos], half⟩]

/-- The vector of a rotation: angle times axis, unless the sine of the angle is small. -/
theorem rotMatToRotVec_axisAngle (unit : axis ⬝ᵥ axis = 1) (nonneg : 0 ≤ angle)
    (half : angle ≤ π) :
    rotMatToRotVec (axisAngle axis angle) =
      if sin angle ≤ tolerance then 0 else angle • -axis := by
  have positive : 0 ≤ sin angle := sin_nonneg_of_nonneg_of_le_pi nonneg half
  have sine : length (-skewSimToVec (axisAngle axis angle)) = sin angle := by
    rw [length_neg, skewSimToVec_axisAngle, length_smul, length_of_unit unit, mul_one,
      abs_of_nonneg positive]
  have cosine : 1 / 2 * (axisAngle axis angle 0 0 + axisAngle axis angle 1 1 +
      axisAngle axis angle 2 2 - 1) = cos angle := by
    rw [← trace_fin_three, trace_axisAngle unit]
    ring
  simp only [rotMatToRotVec, sine, cosine, abs_of_nonneg positive, atan2_sin_cos nonneg half]
  split_ifs with small
  · rfl
  · have nonzero : sin angle ≠ 0 := by
      unfold tolerance at small
      intro zero
      rw [zero] at small
      norm_num at small
    rw [skewSimToVec_axisAngle, ← smul_neg, smul_smul (sin angle)⁻¹, inv_mul_cancel₀ nonzero,
      one_smul]

/-- A vector that is not too short gives its rotation back. -/
theorem rotVecToRotMat_smul (unit : axis ⬝ᵥ axis = 1) (long : tolerance ≤ angle) :
    rotVecToRotMat (angle • -axis) = axisAngle axis angle := by
  have positive : 0 < angle := by
    unfold tolerance at long
    linarith [show (0 : ℝ) < 1 / 10 ^ 10 by norm_num]
  have size : length (angle • -axis) = angle := by
    rw [length_smul, length_neg, length_of_unit unit, mul_one, abs_of_pos positive]
  have normalized : angle⁻¹ • angle • -axis = -axis := by
    rw [smul_smul, inv_mul_cancel₀ positive.ne', one_smul]
  have product : vecMulVec ((1 - cos angle) • -axis) (-axis) =
      (1 - cos angle) • vecMulVec axis axis := by
    rw [smul_vecMulVec, neg_vecMulVec, vecMulVec_neg, neg_neg]
  have reversed : skewSim (-axis) = -skew axis := by
    ext i j
    fin_cases i <;> fin_cases j <;> simp [skewSim, skew]
  simp only [rotVecToRotMat, size, normalized, abs_of_pos positive, product, reversed]
  rw [if_pos long, smul_neg, sub_neg_eq_add, axisAngle]

/-- Vectors that are angle times axis have the angle as their length. -/
theorem length_smul_axis (unit : axis ⬝ᵥ axis = 1) (nonneg : 0 ≤ angle) :
    length (angle • -axis) = angle := by
  rw [length_smul, length_neg, length_of_unit unit, mul_one, abs_of_nonneg nonneg]

end Read

/-! ### Angles near zero and near half a turn -/

section Angles

variable {angle : ℝ}

theorem tolerance_pos : 0 < tolerance := by norm_num [tolerance]

theorem tolerance_lt_one : tolerance < 1 := by norm_num [tolerance]

/-- The angles at which the error is trusted. -/
theorem lt_pi_sub_arcsin_iff (half : angle ≤ π) :
    angle < π - arcsin tolerance ↔ angle < π / 2 ∨ tolerance < sin angle := by
  have quarter : arcsin tolerance < π / 2 := arcsin_lt_pi_div_two.mpr tolerance_lt_one
  by_cases acute : angle < π / 2
  · exact iff_of_true (by linarith) (.inl acute)
  · have range : π - angle ∈ Set.Icc (-(π / 2)) (π / 2) := ⟨by linarith [pi_pos], by linarith⟩
    have sine := arcsin_lt_iff_lt_sin ⟨by linarith [tolerance_pos], tolerance_lt_one.le⟩ range
    rw [sin_pi_sub] at sine
    rw [or_iff_right acute, ← sine]
    constructor <;> intro bound <;> linarith

/-- A small sine of an acute angle means a small angle. -/
theorem lt_of_sin_le (nonneg : 0 ≤ angle) (acute : angle < π / 2) (small : sin angle ≤ tolerance) :
    angle < 1 / 10 ^ 9 := by
  have jordan := mul_le_sin nonneg acute.le
  have slope : 1 / 2 ≤ 2 / π := by
    rw [div_le_div_iff₀ two_pos pi_pos]
    linarith [pi_le_four]
  have line := mul_le_mul_of_nonneg_right slope nonneg
  unfold tolerance at small
  linarith

/-- The cosine of its angle belongs to the rotation. -/
theorem cos_eq_of_isRotationBy {R : Matrix (Fin 3) (Fin 3) ℝ} {angle' : ℝ}
    (rotates : IsRotationBy angle R) (rotates' : IsRotationBy angle' R) :
    cos angle = cos angle' := by
  obtain ⟨axis, unit, rfl⟩ := rotates
  obtain ⟨axis', unit', same⟩ := rotates'
  have traces := congrArg trace same
  rw [trace_axisAngle unit, trace_axisAngle unit'] at traces
  linarith

end Angles

/-! ### The error -/

/-- What the error should be: zero only for aligned orientations, and otherwise a vector for the
rotation that is left. -/
structure RightRotError (Rdes Ract : Matrix (Fin 3) (Fin 3) ℝ) : Prop where
  aligned : computeOrientErrorRot Rdes Ract = 0 →
    ∃ angle, 0 ≤ angle ∧ angle < 1 / 10 ^ 9 ∧ IsRotationBy angle (Rdes * Ractᵀ)
  vector : computeOrientErrorRot Rdes Ract ≠ 0 →
    0 < length (computeOrientErrorRot Rdes Ract) ∧
      length (computeOrientErrorRot Rdes Ract) ≤ π ∧
      (tolerance ≤ length (computeOrientErrorRot Rdes Ract) →
        rotVecToRotMat (computeOrientErrorRot Rdes Ract) = Rdes * Ractᵀ)

section Relative

variable {Rdes Ract : Matrix (Fin 3) (Fin 3) ℝ} {axis : Fin 3 → ℝ} {angle : ℝ}

/-- The error is right as long as the angle keeps away from half a turn. -/
theorem rightRotError_iff_lt (unit : axis ⬝ᵥ axis = 1) (nonneg : 0 ≤ angle) (half : angle ≤ π)
    (relative : Rdes * Ractᵀ = axisAngle axis angle) :
    RightRotError Rdes Ract ↔ angle < π - arcsin tolerance := by
  have error := rotMatToRotVec_axisAngle unit nonneg half
  rw [← relative] at error
  rw [lt_pi_sub_arcsin_iff half]
  by_cases small : sin angle ≤ tolerance
  · rw [if_pos small] at error
    rw [or_iff_left (not_lt.mpr small)]
    constructor
    · intro right
      obtain ⟨tiny, tinyNonneg, tinyBound, rotates⟩ := right.aligned error
      have cosines := cos_eq_of_isRotationBy rotates ⟨axis, unit, relative⟩
      have positive : 0 < cos tiny :=
        cos_pos_of_mem_Ioo ⟨by linarith [pi_pos], by linarith [two_le_pi]⟩
      by_contra obtuse
      have nonpos := cos_nonpos_of_pi_div_two_le_of_le (not_lt.mp obtuse) (by linarith [pi_pos])
      linarith
    · intro acute
      exact {
        aligned := fun _ => ⟨angle, nonneg, lt_of_sin_le nonneg acute small, axis, unit, relative⟩
        vector := fun nonzero => absurd error nonzero }
  · rw [if_neg small] at error
    refine iff_of_true ?_ (.inr (not_le.mp small))
    have long : tolerance < angle := (not_le.mp small).trans_le (sin_le nonneg)
    have size : length (computeOrientErrorRot Rdes Ract) = angle := by
      rw [computeOrientErrorRot, error, length_smul_axis unit nonneg]
    have positive : 0 < angle := tolerance_pos.trans long
    exact {
      aligned := fun zero => by
        rw [length_eq_zero_iff.mpr zero] at size
        exact absurd size positive.ne
      vector := fun _ => by
        refine ⟨by rwa [size], by rwa [size], fun _ => ?_⟩
        rw [computeOrientErrorRot, error, rotVecToRotMat_smul unit long.le, relative] }

end Relative

/-- For two rotation matrices the error is right exactly if one of them is turned against the other
by an angle that is less than half a turn by more than the arc sine of the tolerance. -/
theorem computeOrientErrorRot_iff (Rdes Ract : Matrix (Fin 3) (Fin 3) ℝ)
    (rotationDes : Rdes ∈ specialOrthogonalGroup (Fin 3) ℝ)
    (rotationAct : Ract ∈ specialOrthogonalGroup (Fin 3) ℝ) :
    RightRotError Rdes Ract ↔
      ∃ angle, 0 ≤ angle ∧ angle < π - arcsin (1 / 10 ^ 10) ∧
        IsRotationBy angle (Rdes * Ractᵀ) := by
  have relative : Rdes * Ractᵀ ∈ specialOrthogonalGroup (Fin 3) ℝ :=
    mul_mem rotationDes (transpose_mem rotationAct)
  obtain ⟨angle, nonneg, half, axis, unit, turned⟩ := exists_isRotationBy relative
  rw [rightRotError_iff_lt unit nonneg half turned]
  constructor
  · intro below
    exact ⟨angle, nonneg, below, axis, unit, turned⟩
  · rintro ⟨angle', nonneg', below, rotates⟩
    have arc : 0 ≤ arcsin tolerance := arcsin_nonneg.mpr tolerance_pos.le
    have cosines := cos_eq_of_isRotationBy rotates ⟨axis, unit, turned⟩
    have bound : angle' ≤ π := by
      unfold tolerance at arc
      linarith
    obtain rfl := injOn_cos ⟨nonneg', bound⟩ ⟨nonneg, half⟩ cosines
    exact below

/-- Two orientations, one turned against the other by a sixth of a turn. -/
theorem computeOrientErrorRot_iff_sixth :
    RightRotError (axisAngle ![1, 0, 0] (π / 3) * axisAngle ![0, 1, 0] 1)
      (axisAngle ![0, 1, 0] 1) := by
  have first : ![(1 : ℝ), 0, 0] ⬝ᵥ ![1, 0, 0] = 1 := by simp
  have second : ![(0 : ℝ), 1, 0] ⬝ᵥ ![0, 1, 0] = 1 := by simp
  have turn := axisAngle_mem first (π / 3)
  have frame := axisAngle_mem second 1
  refine (computeOrientErrorRot_iff _ _ (mul_mem turn frame) frame).mpr
    ⟨π / 3, by positivity, ?_, ![1, 0, 0], first, ?_⟩
  · have small : arcsin (1 / 10 ^ 10) < π / 2 := arcsin_lt_pi_div_two.mpr (by norm_num)
    linarith [pi_pos]
  · obtain ⟨orthogonal, -⟩ := mem_specialOrthogonalGroup_iff.mp frame
    rw [Matrix.mul_assoc, (mem_orthogonalGroup_iff (Fin 3) ℝ).mp orthogonal, Matrix.mul_one]

/-- Half a turn about the first axis: the largest misalignment counts as none. -/
theorem computeOrientErrorRot_halfTurn :
    let Rdes : Matrix (Fin 3) (Fin 3) ℝ := !![1, 0, 0; 0, -1, 0; 0, 0, -1]
    Rdes ∈ specialOrthogonalGroup (Fin 3) ℝ ∧ computeOrientErrorRot Rdes 1 = 0 ∧
      IsRotationBy π (Rdes * 1ᵀ) ∧ ¬ RightRotError Rdes 1 := by
  intro Rdes
  have unit : ![(1 : ℝ), 0, 0] ⬝ᵥ ![1, 0, 0] = 1 := by simp
  have turned : Rdes * 1ᵀ = axisAngle ![1, 0, 0] π := by
    rw [transpose_one, mul_one]
    ext i j
    fin_cases i <;> fin_cases j <;> simp [Rdes, axisAngle, skew]
  have rotation : Rdes ∈ specialOrthogonalGroup (Fin 3) ℝ := by
    rw [mem_specialOrthogonalGroup_iff, mem_orthogonalGroup_iff]
    refine ⟨?_, by simp [Rdes, det_fin_three]⟩
    ext i j
    fin_cases i <;> fin_cases j <;> simp [Rdes, mul_apply, Fin.sum_univ_three]
  have error : computeOrientErrorRot Rdes 1 = 0 := by
    rw [computeOrientErrorRot, turned, rotMatToRotVec_axisAngle unit pi_pos.le le_rfl, sin_pi,
      if_pos tolerance_pos.le]
  have wrong : ¬ RightRotError Rdes 1 := by
    rw [rightRotError_iff_lt unit pi_pos.le le_rfl turned, not_lt]
    linarith [arcsin_nonneg.mpr tolerance_pos.le]
  exact ⟨rotation, error, ⟨_, unit, turned⟩, wrong⟩

end Dls2.Math
