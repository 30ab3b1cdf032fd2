import Mathlib.LinearAlgebra.CrossProduct
import Dls2.Lib.Rotation

/-!
# Quaternions as rotations

The rotation matrix of a quaternion here maps the global coordinates of a vector to its local ones,
so it is the transpose of the matrix of the action `v ↦ q v q*`, and the product that `quatMult`
computes has its factors the other way round. The components `w`, `x`, `y`, `z` of a quaternion are
`re`, `imI`, `imJ` and `imK`. Numbers are exact here.
-/

namespace Dls2.Math

open Matrix Quaternion Rotation

section Tables

variable {K : Type*} [CommRing K]

/-- `q.vec()`. -/
def vec (q : ℍ[K]) : Fin 3 → K := ![q.imI, q.imJ, q.imK]

def castQuatToVector (q : ℍ[K]) : Fin 4 → K := ![q.re, q.imI, q.imJ, q.imK]

def quatToRotMat (q : ℍ[K]) : Matrix (Fin 3) (Fin 3) K :=
  !![-1 + 2 * (q.re * q.re) + 2 * (q.imI * q.imI), 2 * (q.imI * q.imJ + q.re * q.imK),
      2 * (q.imI * q.imK - q.re * q.imJ);
    2 * (q.imI * q.imJ - q.re * q.imK), -1 + 2 * (q.re * q.re) + 2 * (q.imJ * q.imJ),
      2 * (q.imJ * q.imK + q.re * q.imI);
    2 * (q.imI * q.imK + q.re * q.imJ), 2 * (q.imJ * q.imK - q.re * q.imI),
      -1 + 2 * (q.re * q.re) + 2 * (q.imK * q.imK)]

/-- The matrix of the multiplication by a quaternion from the right. -/
def quatR (q : ℍ[K]) : Matrix (Fin 4) (Fin 4) K :=
  !![q.re, -q.imI, -q.imJ, -q.imK;
    q.imI, q.re, -q.imK, q.imJ;
    q.imJ, q.imK, q.re, -q.imI;
    q.imK, -q.imJ, q.imI, q.re]

/-- The matrix of the multiplication by a quaternion from the left. -/
def quatL (q : ℍ[K]) : Matrix (Fin 4) (Fin 4) K :=
  !![q.re, -q.imI, -q.imJ, -q.imK;
    q.imI, q.re, q.imK, -q.imJ;
    q.imJ, -q.imK, q.re, q.imI;
    q.imK, q.imJ, -q.imI, q.re]

def quatInverse (q : ℍ[K]) : ℍ[K] := ofParts q.re (-vec q)

def quatMult (q2 q1 : ℍ[K]) : ℍ[K] :=
  ofParts (q1.re * q2.re - vec q1 ⬝ᵥ vec q2)
    (q1.re • vec q2 + q2.re • vec q1 + crossProduct (vec q1) (vec q2))

/-! ### The product -/

/-- The factors change places. -/
theorem quatMult_eq (q2 q1 : ℍ[K]) : quatMult q2 q1 = q1 * q2 := by
  ext <;> simp [quatMult, vec, dotProduct, Fin.sum_univ_three, cross_apply] <;> ring

theorem quatInverse_eq (q : ℍ[K]) : quatInverse q = star q := by
  ext <;> simp [quatInverse, vec]

theorem quatL_mulVec (q2 q1 : ℍ[K]) :
    quatL q2 *ᵥ castQuatToVector q1 = castQuatToVector (quatMult q2 q1) := by
  rw [quatMult_eq]
  ext i
  fin_cases i <;> simp [quatL, castQuatToVector] <;> ring

theorem quatR_mulVec (q2 q1 : ℍ[K]) :
    quatR q1 *ᵥ castQuatToVector q2 = castQuatToVector (quatMult q2 q1) := by
  rw [quatMult_eq]
  ext i
  fin_cases i <;> simp [quatR, castQuatToVector] <;> ring

/-! ### The matrix -/

/-- Apart from the length, the table is that of the transposed action. -/
theorem quatToRotMat_eq (q : ℍ[K]) :
    quatToRotMat q = (ofQuaternion q)ᵀ + (normSq q - 1) • 1 := by
  ext i j
  fin_cases i <;> fin_cases j <;> simp [quatToRotMat, ofQuaternion, normSq_def'] <;> ring

theorem quatToRotMat_of_unit {q : ℍ[K]} (unit : normSq q = 1) :
    quatToRotMat q = (ofQuaternion q)ᵀ := by
  rw [quatToRotMat_eq, unit, sub_self, zero_smul, add_zero]

theorem normSq_quatMult {q2 q1 : ℍ[K]} (unit2 : normSq q2 = 1) (unit1 : normSq q1 = 1) :
    normSq (quatMult q2 q1) = 1 := by
  rw [quatMult_eq, map_mul, unit1, unit2, mul_one]

theorem quatToRotMat_quatMult {q2 q1 : ℍ[K]} (unit2 : normSq q2 = 1) (unit1 : normSq q1 = 1) :
    quatToRotMat (quatMult q2 q1) = quatToRotMat q2 * quatToRotMat q1 := by
  rw [quatToRotMat_of_unit (normSq_quatMult unit2 unit1), quatToRotMat_of_unit unit2,
    quatToRotMat_of_unit unit1, quatMult_eq, ofQuaternion_mul, transpose_mul]

theorem quatToRotMat_mem {q : ℍ[K]} (unit : normSq q = 1) :
    quatToRotMat q ∈ specialOrthogonalGroup (Fin 3) K := by
  rw [quatToRotMat_of_unit unit, ← ofQuaternion_star]
  exact ofQuaternion_mem (by rw [normSq_star, unit])

theorem quatToRotMat_quatInverse {q : ℍ[K]} (unit : normSq q = 1) :
    quatToRotMat (quatInverse q) = (quatToRotMat q)ᵀ := by
  have inverse : normSq (star q) = 1 := by rw [normSq_star, unit]
  rw [quatInverse_eq, quatToRotMat_of_unit inverse, quatToRotMat_of_unit unit, ofQuaternion_star]

end Tables

/-- The four tables agree. -/
theorem quaternion_tables :
    (∀ q2 q1 : ℍ[ℝ],
      castQuatToVector (quatMult q2 q1) = quatL q2 *ᵥ castQuatToVector q1 ∧
      castQuatToVector (quatMult q2 q1) = quatR q1 *ᵥ castQuatToVector q2) ∧
    (∀ q2 q1 : ℍ[ℝ], normSq q2 = 1 → normSq q1 = 1 →
      quatToRotMat (quatMult q2 q1) = quatToRotMat q2 * quatToRotMat q1) ∧
    ∀ q : ℍ[ℝ], normSq q = 1 →
      quatToRotMat q * (quatToRotMat q)ᵀ = 1 ∧ (quatToRotMat q)ᵀ * quatToRotMat q = 1 ∧
      (quatToRotMat q).det = 1 ∧ quatToRotMat (quatInverse q) = (quatToRotMat q)ᵀ := by
  refine ⟨fun q2 q1 => ⟨(quatL_mulVec q2 q1).symm, (quatR_mulVec q2 q1).symm⟩,
    fun q2 q1 unit2 unit1 => quatToRotMat_quatMult unit2 unit1, fun q unit => ?_⟩
  obtain ⟨orthogonal, det⟩ := mem_specialOrthogonalGroup_iff.mp (quatToRotMat_mem unit)
  exact ⟨(mem_orthogonalGroup_iff (Fin 3) ℝ).mp orthogonal,
    (mem_orthogonalGroup_iff' (Fin 3) ℝ).mp orthogonal, det, quatToRotMat_quatInverse unit⟩

/-- Two half turns about different axes. -/
theorem quaternion_tables_half_turns :
    quatToRotMat (quatMult (ofParts 0 ![1, 0, 0]) (ofParts (0 : ℝ) ![0, 1, 0])) =
      quatToRotMat (ofParts 0 ![1, 0, 0]) * quatToRotMat (ofParts 0 ![0, 1, 0]) ∧
    (quatToRotMat (ofParts (0 : ℝ) ![1, 0, 0])).det = 1 := by
  have unitX : normSq (ofParts (0 : ℝ) ![1, 0, 0]) = 1 := by simp [normSq_ofParts]
  have unitY : normSq (ofParts (0 : ℝ) ![0, 1, 0]) = 1 := by simp [normSq_ofParts]
  exact ⟨quaternion_tables.2.1 _ _ unitX unitY, (quaternion_tables.2.2 _ unitX).2.2.1⟩

/-! ### The orientation error -/

section OrientError

variable {K : Type*} [Field K] [LinearOrder K] {qDes q : ℍ[K]}

/-- `q.dot(q_des)`. -/
def dot (q qDes : ℍ[K]) : K := castQuatToVector q ⬝ᵥ castQuatToVector qDes

/-- The sign that takes the shorter path. -/
def signFlip (q qDes : ℍ[K]) : K := if dot q qDes < 0 then -1 else 1

/-- `computeOrientError` of two quaternions. The sign is missing in the second term of the axis. -/
def computeOrientError (qDes q : ℍ[K]) : ℍ[K] :=
  let sign := signFlip q qDes
  ofParts (sign * q.re * qDes.re + (sign • vec q) ⬝ᵥ vec qDes)
    ((sign * q.re) • vec qDes - qDes.re • vec q - crossProduct (sign • vec q) (vec qDes))

/-- The rotation that is left, from the formula for the product. -/
def orientError (qDes q : ℍ[K]) : ℍ[K] := quatMult qDes (quatInverse (signFlip q qDes • q))

/-- What the missing sign does. -/
theorem computeOrientError_eq (qDes q : ℍ[K]) :
    computeOrientError qDes q =
      orientError qDes q - ofParts 0 (((1 - signFlip q qDes) * qDes.re) • vec q) := by
  rw [orientError, quatMult_eq, quatInverse_eq]
  ext <;> simp [computeOrientError, vec, dotProduct, Fin.sum_univ_three, cross_apply] <;> ring

omit [LinearOrder K] in
theorem dot_neg (q qDes : ℍ[K]) : dot (-q) qDes = -dot q qDes := by
  simp [dot, castQuatToVector]
  ring

theorem normSq_orientError (unitDes : normSq qDes = 1) (unit : normSq q = 1) :
    normSq (orientError qDes q) = 1 := by
  have sign : signFlip q qDes ^ 2 = 1 := by
    unfold signFlip
    split_ifs <;> norm_num
  refine normSq_quatMult unitDes ?_
  rw [quatInverse_eq, normSq_star, normSq_smul, sign, unit, mul_one]

theorem signFlip_of_neg (negative : dot q qDes < 0) : signFlip q qDes = -1 := if_pos negative

theorem signFlip_of_nonneg (nonneg : 0 ≤ dot q qDes) : signFlip q qDes = 1 :=
  if_neg (not_lt.mpr nonneg)

variable [IsStrictOrderedRing K]

theorem signFlip_neg (separate : dot q qDes ≠ 0) : signFlip (-q) qDes = -signFlip q qDes := by
  rcases lt_or_gt_of_ne separate with negative | positive
  · have nonneg : 0 ≤ dot (-q) qDes := by
      rw [dot_neg]
      exact (neg_pos.mpr negative).le
    rw [signFlip_of_nonneg nonneg, signFlip_of_neg negative, neg_neg]
  · have negative : dot (-q) qDes < 0 := by
      rw [dot_neg]
      exact neg_neg_of_pos positive
    rw [signFlip_of_neg negative, signFlip_of_nonneg positive.le]

/-- Both quaternions of an orientation take the same path. -/
theorem orientError_neg (separate : dot q qDes ≠ 0) :
    orientError qDes (-q) = orientError qDes q := by
  rw [orientError, signFlip_neg separate, orientError, neg_smul_neg]

theorem orientError_re (qDes q : ℍ[K]) : (orientError qDes q).re = |dot q qDes| := by
  have scalar : (orientError qDes q).re = signFlip q qDes * dot q qDes := by
    rw [orientError, quatMult_eq, quatInverse_eq]
    simp [dot, castQuatToVector, -mul_eq_mul_left_iff]
    ring
  rw [scalar]
  rcases lt_or_ge (dot q qDes) 0 with negative | nonneg
  · rw [signFlip_of_neg negative, abs_of_neg negative, neg_one_mul]
  · rw [signFlip_of_nonneg nonneg, abs_of_nonneg nonneg, one_mul]

/-- What the error should be: the same for both quaternions of an orientation, the product, and of
unit length on the upper half. -/
structure RightOrientError (qDes q : ℍ[K]) : Prop where
  even : computeOrientError qDes q = computeOrientError qDes (-q)
  product : computeOrientError qDes q = quatMult qDes (quatInverse (signFlip q qDes • q))
  unit : normSq (computeOrientError qDes q) = 1
  upper : 0 ≤ (computeOrientError qDes q).re

omit [IsStrictOrderedRing K] in
theorem computeOrientError_of_free (free : qDes.re = 0 ∨ vec q = 0) :
    computeOrientError qDes q = orientError qDes q := by
  have nothing : ((1 - signFlip q qDes) * qDes.re) • vec q = 0 := by
    rcases free with noScalar | noVector
    · rw [noScalar, mul_zero, zero_smul]
    · rw [noVector, smul_zero]
  rw [computeOrientError_eq, nothing]
  ext <;> simp

/-- The term without the sign counts unless one of its factors is zero. -/
theorem computeOrientError_eq_iff (negative : dot q qDes < 0) :
    computeOrientError qDes q = orientError qDes q ↔ qDes.re = 0 ∨ vec q = 0 := by
  refine ⟨fun same => ?_, computeOrientError_of_free⟩
  rw [computeOrientError_eq, sub_eq_self, signFlip_of_neg negative] at same
  have zero : ((1 - (-1 : K)) * qDes.re) • vec q = 0 := ofParts_injective 0 same
  rw [smul_eq_zero, mul_eq_zero] at zero
  simpa [one_add_one_eq_two] using zero

omit [IsStrictOrderedRing K] [LinearOrder K] in
theorem vec_neg_eq_zero_iff : vec (-q) = 0 ↔ vec q = 0 := by
  have negated : vec (-q) = -vec q := by
    ext i
    fin_cases i <;> rfl
  rw [negated, neg_eq_zero]

theorem rightOrientError_iff (unitDes : normSq qDes = 1) (unit : normSq q = 1)
    (separate : dot q qDes ≠ 0) :
    RightOrientError qDes q ↔ qDes.re = 0 ∨ vec q = 0 := by
  constructor
  · intro right
    rcases lt_or_gt_of_ne separate with negative | positive
    · exact (computeOrientError_eq_iff negative).mp right.product
    · -- then the other quaternion of the orientation needs the sign
      have negative : dot (-q) qDes < 0 := by
        rw [dot_neg]
        exact neg_neg_of_pos positive
      have other : computeOrientError qDes (-q) = orientError qDes (-q) := by
        rw [orientError_neg separate, ← right.even]
        exact right.product
      rw [← vec_neg_eq_zero_iff]
      exact (computeOrientError_eq_iff negative).mp other
  · intro free
    have product := computeOrientError_of_free free
    have other := computeOrientError_of_free (free.imp_right vec_neg_eq_zero_iff.mpr)
    exact {
      even := by rw [product, other, orientError_neg separate]
      product := product
      unit := by rw [product, normSq_orientError unitDes unit]
      upper := by
        rw [product, orientError_re]
        exact abs_nonneg _ }

end OrientError

/-- With unit quaternions that are not at right angles the error is right, for both quaternions of
the orientation, exactly if the desired one has no scalar part or the other no vector part. -/
theorem computeOrientError_iff (qDes q : ℍ[ℝ]) (unitDes : normSq qDes = 1) (unit : normSq q = 1)
    (separate : dot q qDes ≠ 0) :
    RightOrientError qDes q ↔ qDes.re = 0 ∨ vec q = 0 :=
  rightOrientError_iff unitDes unit separate

/-- The desired orientation is half a turn away from the frame, and the other a smaller one. -/
theorem computeOrientError_iff_halfTurn :
    RightOrientError (ofParts (0 : ℝ) ![3 / 5, 4 / 5, 0]) (ofParts (4 / 5) ![3 / 5, 0, 0]) := by
  refine (computeOrientError_iff _ _ ?_ ?_ ?_).mpr (.inl rfl)
  · simp [normSq_ofParts, dotProduct, Fin.sum_univ_three]
    norm_num
  · simp [normSq_ofParts, dotProduct, Fin.sum_univ_three]
    norm_num
  · simp [dot, castQuatToVector, ofParts]

/-- The desired orientation, once as itself and once as its negative: the error has no vector part,
and then one of 24/25, which is not of unit length. -/
theorem computeOrientError_negated :
    let qDes : ℍ[ℝ] := ofParts (4 / 5) ![3 / 5, 0, 0]
    computeOrientError qDes qDes = 1 ∧
      computeOrientError qDes (-qDes) = ofParts 1 ![24 / 25, 0, 0] ∧
      normSq (computeOrientError qDes (-qDes)) ≠ 1 ∧ ¬ RightOrientError qDes (-qDes) := by
  intro qDes
  have same : dot qDes qDes = 1 := by
    simp [qDes, dot, castQuatToVector]
    norm_num
  have opposite : dot (-qDes) qDes < 0 := by
    rw [dot_neg, same]
    norm_num
  have aligned : computeOrientError qDes qDes = 1 := by
    rw [computeOrientError, signFlip_of_nonneg (by rw [same]; norm_num)]
    ext <;> simp [qDes, vec, dotProduct, Fin.sum_univ_three]
    norm_num
  have flipped : computeOrientError qDes (-qDes) = ofParts 1 ![24 / 25, 0, 0] := by
    rw [computeOrientError, signFlip_of_neg opposite]
    ext <;> simp [qDes, vec, dotProduct, Fin.sum_univ_three] <;> norm_num
  have long : normSq (computeOrientError qDes (-qDes)) ≠ 1 := by
    rw [flipped, normSq_ofParts]
    simp
  exact ⟨aligned, flipped, long, fun right => long right.unit⟩

end Dls2.Math
