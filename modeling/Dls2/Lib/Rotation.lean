import Mathlib.Algebra.Quaternion
import Mathlib.Analysis.SpecialFunctions.Trigonometric.Inverse
import Mathlib.LinearAlgebra.Matrix.DotProduct
import Mathlib.LinearAlgebra.UnitaryGroup
import Mathlib.Tactic.FinCases
import Mathlib.Tactic.LinearCombination

/-!
# Rotations of space

A quaternion `q` acts on vectors by `v ↦ q v q*`, and `ofQuaternion q` is the matrix of this map.
Products go to products and conjugates to transposes, so a unit quaternion gives a rotation matrix,
an element of `specialOrthogonalGroup (Fin 3)`.

Every rotation matrix comes from a unit quaternion `q`. A column of the matrix of the products
`4 qᵢ qⱼ` is linear in the rotation matrix, and it is `q` up to a factor unless its pivot `4 qᵢ²` is
zero. From the quaternion one reads off an axis and an angle.
-/

namespace Dls2.Rotation

open Matrix Quaternion

/-! ### Numerals

Indices and entries are written with these numerals. The facts have names, so that the definitions
of every module rest on the same ones. -/

scoped instance neZero_three : NeZero 3 := ⟨three_ne_zero⟩

scoped instance atLeastTwo_two : Nat.AtLeastTwo 2 := ⟨le_rfl⟩

scoped instance atLeastTwo_ten : Nat.AtLeastTwo 10 := ⟨Nat.le_add_left 2 8⟩

section Quaternions

variable {K : Type*} [CommRing K]

/-- A quaternion from its scalar and its vector part. -/
def ofParts (scalar : K) (vector : Fin 3 → K) : ℍ[K] := ⟨scalar, vector 0, vector 1, vector 2⟩

section

variable (scalar : K) (vector : Fin 3 → K)

@[simp] theorem ofParts_re : (ofParts scalar vector).re = scalar := rfl

@[simp] theorem ofParts_imI : (ofParts scalar vector).imI = vector 0 := rfl

@[simp] theorem ofParts_imJ : (ofParts scalar vector).imJ = vector 1 := rfl

@[simp] theorem ofParts_imK : (ofParts scalar vector).imK = vector 2 := rfl

theorem normSq_ofParts : normSq (ofParts scalar vector) = scalar ^ 2 + vector ⬝ᵥ vector := by
  simp [normSq_def', dotProduct, Fin.sum_univ_three]
  ring

end

theorem ofParts_injective (scalar : K) : Function.Injective (ofParts scalar) := by
  intro vector vector' same
  funext i
  fin_cases i
  · exact congrArg QuaternionAlgebra.imI same
  · exact congrArg QuaternionAlgebra.imJ same
  · exact congrArg QuaternionAlgebra.imK same

/-- The matrix of the action of a quaternion. -/
def ofQuaternion (q : ℍ[K]) : Matrix (Fin 3) (Fin 3) K :=
  !![q.re ^ 2 + q.imI ^ 2 - q.imJ ^ 2 - q.imK ^ 2, 2 * (q.imI * q.imJ - q.re * q.imK),
      2 * (q.imI * q.imK + q.re * q.imJ);
    2 * (q.imI * q.imJ + q.re * q.imK), q.re ^ 2 - q.imI ^ 2 + q.imJ ^ 2 - q.imK ^ 2,
      2 * (q.imJ * q.imK - q.re * q.imI);
    2 * (q.imI * q.imK - q.re * q.imJ), 2 * (q.imJ * q.imK + q.re * q.imI),
      q.re ^ 2 - q.imI ^ 2 - q.imJ ^ 2 + q.imK ^ 2]

theorem ofParts_mulVec (q : ℍ[K]) (v : Fin 3 → K) :
    ofParts 0 (ofQuaternion q *ᵥ v) = q * ofParts 0 v * star q := by
  ext <;> simp [ofQuaternion, dotProduct, Fin.sum_univ_three] <;> ring

theorem ofQuaternion_mul (p q : ℍ[K]) :
    ofQuaternion (p * q) = ofQuaternion p * ofQuaternion q := by
  refine Matrix.ext_iff_mulVec.mpr fun v => ofParts_injective 0 ?_
  rw [← Matrix.mulVec_mulVec, ofParts_mulVec, ofParts_mulVec, ofParts_mulVec, star_mul]
  simp only [mul_assoc]

theorem ofQuaternion_star (q : ℍ[K]) : ofQuaternion (star q) = (ofQuaternion q)ᵀ := by
  ext i j
  fin_cases i <;> fin_cases j <;> simp [ofQuaternion] <;> ring

theorem ofQuaternion_neg (q : ℍ[K]) : ofQuaternion (-q) = ofQuaternion q := by
  ext i j
  fin_cases i <;> fin_cases j <;> simp [ofQuaternion]

theorem ofQuaternion_smul (r : K) (q : ℍ[K]) : ofQuaternion (r • q) = r ^ 2 • ofQuaternion q := by
  ext i j
  fin_cases i <;> fin_cases j <;> simp [ofQuaternion] <;> ring

theorem ofQuaternion_coe (r : K) : ofQuaternion (r : ℍ[K]) = r ^ 2 • 1 := by
  ext i j
  fin_cases i <;> fin_cases j <;> simp [ofQuaternion]

theorem ofQuaternion_mul_transpose (q : ℍ[K]) :
    ofQuaternion q * (ofQuaternion q)ᵀ = normSq q ^ 2 • 1 := by
  rw [← ofQuaternion_star, ← ofQuaternion_mul, self_mul_star, ofQuaternion_coe]

theorem det_ofQuaternion (q : ℍ[K]) : (ofQuaternion q).det = normSq q ^ 3 := by
  rw [Matrix.det_fin_three, normSq_def']
  simp [ofQuaternion]
  ring

/-- Unit quaternions give rotations. -/
theorem ofQuaternion_mem {q : ℍ[K]} (unit : normSq q = 1) :
    ofQuaternion q ∈ specialOrthogonalGroup (Fin 3) K := by
  rw [mem_specialOrthogonalGroup_iff, mem_orthogonalGroup_iff, ofQuaternion_mul_transpose,
    det_ofQuaternion, unit]
  simp

theorem transpose_mem {R : Matrix (Fin 3) (Fin 3) K}
    (rotation : R ∈ specialOrthogonalGroup (Fin 3) K) :
    Rᵀ ∈ specialOrthogonalGroup (Fin 3) K := by
  obtain ⟨orthogonal, det⟩ := mem_specialOrthogonalGroup_iff.mp rotation
  rw [mem_specialOrthogonalGroup_iff, mem_orthogonalGroup_iff, transpose_transpose, det_transpose]
  exact ⟨(mem_orthogonalGroup_iff' (Fin 3) K).mp orthogonal, det⟩

/-! ### The columns of the quadratic form -/

/-- The inverse of a rotation in two ways. -/
theorem transpose_eq_adjugate {R : Matrix (Fin 3) (Fin 3) K}
    (rotation : R ∈ specialOrthogonalGroup (Fin 3) K) : Rᵀ = R.adjugate := by
  obtain ⟨orthogonal, det⟩ := mem_specialOrthogonalGroup_iff.mp rotation
  have inverse := (mem_orthogonalGroup_iff' (Fin 3) K).mp orthogonal
  calc Rᵀ = Rᵀ * (R * R.adjugate) := by rw [mul_adjugate, det, one_smul, mul_one]
    _ = R.adjugate := by rw [← mul_assoc, inverse, one_mul]

/-- The column for the scalar part. -/
def scalarColumn (R : Matrix (Fin 3) (Fin 3) K) : ℍ[K] :=
  ofParts (1 + R.trace) ![R 2 1 - R 1 2, R 0 2 - R 2 0, R 1 0 - R 0 1]

/-- The column for the component along a unit quaternion. -/
def column (R : Matrix (Fin 3) (Fin 3) K) (e : ℍ[K]) : ℍ[K] :=
  scalarColumn (R * ofQuaternion (star e)) * e

def pivot (R : Matrix (Fin 3) (Fin 3) K) (e : ℍ[K]) : K :=
  1 + (R * ofQuaternion (star e)).trace

variable {R : Matrix (Fin 3) (Fin 3) K}

/-- The equations of a rotation matrix, entry by entry, decide the quadratic form of its column. -/
theorem scalarColumn_spec (rotation : R ∈ specialOrthogonalGroup (Fin 3) K) :
    ofQuaternion (scalarColumn R) = (4 * (1 + R.trace)) • R ∧
      normSq (scalarColumn R) = 4 * (1 + R.trace) := by
  have cofactors := transpose_eq_adjugate rotation
  have rows := (mem_orthogonalGroup_iff (Fin 3) K).mp (mem_specialOrthogonalGroup_iff.mp rotation).1
  rw [← Matrix.ext_iff] at cofactors rows
  simp only [Fin.forall_fin_succ, adjugate_fin_three, mul_apply, Fin.sum_univ_three]
    at cofactors rows
  simp at cofactors rows
  rw [Matrix.trace_fin_three]
  constructor
  · ext i j
    fin_cases i <;> fin_cases j <;> simp [ofQuaternion, scalarColumn, trace_fin_three] <;> grind
  · rw [scalarColumn, normSq_ofParts]
    simp [trace_fin_three]
    grind

/-- Turning by the conjugate of a unit quaternion first turns the column for it into the scalar
one. -/
theorem column_spec (rotation : R ∈ specialOrthogonalGroup (Fin 3) K) {e : ℍ[K]}
    (unit : normSq e = 1) :
    ofQuaternion (column R e) = (4 * pivot R e) • R ∧ normSq (column R e) = 4 * pivot R e := by
  have turned : R * ofQuaternion (star e) ∈ specialOrthogonalGroup (Fin 3) K :=
    mul_mem rotation (ofQuaternion_mem (by rw [normSq_star, unit]))
  obtain ⟨matrix, norm⟩ := scalarColumn_spec turned
  constructor
  · have back : ofQuaternion (star e) * ofQuaternion e = 1 := by
      rw [← ofQuaternion_mul, star_mul_self, unit, ofQuaternion_coe]
      simp
    rw [column, ofQuaternion_mul, matrix, smul_mul_assoc, mul_assoc, back, mul_one, pivot]
  · rw [column, map_mul, norm, unit, mul_one, pivot]

/-- The sum of the squares of the components. -/
theorem sum_pivot (R : Matrix (Fin 3) (Fin 3) K) :
    pivot R 1 + pivot R (ofParts 0 ![1, 0, 0]) + pivot R (ofParts 0 ![0, 1, 0]) +
      pivot R (ofParts 0 ![0, 0, 1]) = 4 := by
  simp [pivot, ofQuaternion, trace_fin_three, mul_apply, Fin.sum_univ_three]
  ring

end Quaternions

section Reals

variable {R : Matrix (Fin 3) (Fin 3) ℝ}

/-- A column with a positive pivot, scaled to unit length. -/
noncomputable def fromColumn (R : Matrix (Fin 3) (Fin 3) ℝ) (e : ℍ[ℝ]) : ℍ[ℝ] :=
  (2 * √(pivot R e))⁻¹ • column R e

theorem fromColumn_spec (rotation : R ∈ specialOrthogonalGroup (Fin 3) ℝ) {e : ℍ[ℝ]}
    (unit : normSq e = 1) (positive : 0 < pivot R e) :
    normSq (fromColumn R e) = 1 ∧ ofQuaternion (fromColumn R e) = R := by
  obtain ⟨matrix, norm⟩ := column_spec rotation unit
  have scale : (2 * √(pivot R e))⁻¹ ^ 2 * (4 * pivot R e) = 1 := by
    rw [inv_pow, mul_pow, Real.sq_sqrt positive.le]
    field_simp
    norm_num
  unfold fromColumn
  constructor
  · rw [normSq_smul, norm, scale]
  · rw [ofQuaternion_smul, matrix, smul_smul, scale, one_smul]

/-- Every rotation comes from a unit quaternion, which can be chosen with a scalar part that is not
negative. -/
theorem exists_quaternion (rotation : R ∈ specialOrthogonalGroup (Fin 3) ℝ) :
    ∃ q : ℍ[ℝ], normSq q = 1 ∧ 0 ≤ q.re ∧ ofQuaternion q = R := by
  have some : ∃ e : ℍ[ℝ], normSq e = 1 ∧ 0 < pivot R e := by
    by_contra none
    push Not at none
    have sum := sum_pivot R
    have w := none 1 (map_one _)
    have x := none (ofParts 0 ![1, 0, 0]) (by simp [normSq_ofParts])
    have y := none (ofParts 0 ![0, 1, 0]) (by simp [normSq_ofParts])
    have z := none (ofParts 0 ![0, 0, 1]) (by simp [normSq_ofParts])
    linarith
  obtain ⟨e, unit, positive⟩ := some
  obtain ⟨norm, matrix⟩ := fromColumn_spec rotation unit positive
  rcases le_total 0 (fromColumn R e).re with nonneg | nonpos
  · exact ⟨_, norm, nonneg, matrix⟩
  · refine ⟨-fromColumn R e, ?_, ?_, ?_⟩
    · rw [normSq_neg, norm]
    · simpa using nonpos
    · rw [ofQuaternion_neg, matrix]

/-! ### Axis and angle -/

/-- The matrix of `u ↦ v × u`. -/
def skew {K : Type*} [CommRing K] (v : Fin 3 → K) : Matrix (Fin 3) (Fin 3) K :=
  !![0, -v 2, v 1; v 2, 0, -v 0; -v 1, v 0, 0]

/-- Rodrigues' formula. -/
noncomputable def axisAngle (axis : Fin 3 → ℝ) (angle : ℝ) : Matrix (Fin 3) (Fin 3) ℝ :=
  Real.cos angle • 1 + (1 - Real.cos angle) • vecMulVec axis axis + Real.sin angle • skew axis

/-- A rotation by an angle. -/
def IsRotationBy (angle : ℝ) (R : Matrix (Fin 3) (Fin 3) ℝ) : Prop :=
  ∃ axis, axis ⬝ᵥ axis = 1 ∧ R = axisAngle axis angle

theorem trace_axisAngle {axis : Fin 3 → ℝ} (unit : axis ⬝ᵥ axis = 1) (angle : ℝ) :
    (axisAngle axis angle).trace = 1 + 2 * Real.cos angle := by
  simp [axisAngle, trace_fin_three, skew, unit]
  ring

/-- Half the angle is in the quaternion. -/
theorem ofQuaternion_half {axis : Fin 3 → ℝ} (unit : axis ⬝ᵥ axis = 1) (half : ℝ) :
    ofQuaternion (ofParts (Real.cos half) (Real.sin half • axis)) = axisAngle axis (2 * half) := by
  simp only [dotProduct, Fin.sum_univ_three] at unit
  have pythagoras := Real.sin_sq_add_cos_sq half
  ext i j
  fin_cases i <;> fin_cases j <;>
    simp [ofQuaternion, axisAngle, vecMulVec_apply, skew, Real.cos_two_mul, Real.sin_two_mul] <;>
    grind

theorem normSq_half {axis : Fin 3 → ℝ} (unit : axis ⬝ᵥ axis = 1) (half : ℝ) :
    normSq (ofParts (Real.cos half) (Real.sin half • axis)) = 1 := by
  rw [normSq_ofParts, smul_dotProduct, dotProduct_smul, unit, smul_eq_mul, smul_eq_mul, mul_one,
    ← sq, Real.cos_sq_add_sin_sq]

/-- Rodrigues' formula gives rotations. -/
theorem axisAngle_mem {axis : Fin 3 → ℝ} (unit : axis ⬝ᵥ axis = 1) (angle : ℝ) :
    axisAngle axis angle ∈ specialOrthogonalGroup (Fin 3) ℝ := by
  have half := ofQuaternion_half unit (angle / 2)
  rw [mul_div_cancel₀ angle two_ne_zero] at half
  rw [← half]
  exact ofQuaternion_mem (normSq_half unit _)

/-- Unit quaternions have the same matrix only if they are opposite or the same. -/
theorem ofQuaternion_eq_iff {p q : ℍ[ℝ]} (unitP : normSq p = 1) (unitQ : normSq q = 1) :
    ofQuaternion p = ofQuaternion q ↔ p = q ∨ p = -q := by
  constructor
  · intro same
    have relative : ofQuaternion (star q * p) = 1 := by
      rw [ofQuaternion_mul, same, ← ofQuaternion_mul, star_mul_self, unitQ, ofQuaternion_coe,
        one_pow, one_smul]
    have norm : normSq (star q * p) = 1 := by rw [map_mul, normSq_star, unitP, unitQ, one_mul]
    have back : p = q * (star q * p) := by
      rw [← mul_assoc, self_mul_star, unitQ, coe_one, one_mul]
    generalize star q * p = u at relative norm back
    have first := congrFun₂ relative 0 0
    have second := congrFun₂ relative 1 1
    have third := congrFun₂ relative 2 2
    simp [ofQuaternion] at first second third
    rw [normSq_def'] at norm
    have imI : u.imI = 0 := pow_eq_zero_iff two_ne_zero |>.mp (by linarith)
    have imJ : u.imJ = 0 := pow_eq_zero_iff two_ne_zero |>.mp (by linarith)
    have imK : u.imK = 0 := pow_eq_zero_iff two_ne_zero |>.mp (by linarith)
    have re : u.re = 1 ∨ u.re = -1 := mul_self_eq_one_iff.mp (by linarith)
    rw [back]
    refine re.imp (fun one => ?_) fun one => ?_
    · ext <;> simp [one, imI, imJ, imK]
    · ext <;> simp [one, imI, imJ, imK]
  · rintro (rfl | rfl)
    · rfl
    · exact ofQuaternion_neg q

theorem dotProduct_self_nonneg (v : Fin 3 → ℝ) : 0 ≤ v ⬝ᵥ v :=
  Finset.sum_nonneg fun i _ => mul_self_nonneg (v i)

/-- The Euclidean length. -/
noncomputable def length (v : Fin 3 → ℝ) : ℝ := √(v ⬝ᵥ v)

theorem length_sq (v : Fin 3 → ℝ) : length v ^ 2 = v ⬝ᵥ v := Real.sq_sqrt (dotProduct_self_nonneg v)

theorem length_nonneg (v : Fin 3 → ℝ) : 0 ≤ length v := Real.sqrt_nonneg _

theorem length_eq_zero_iff {v : Fin 3 → ℝ} : length v = 0 ↔ v = 0 := by
  rw [length, Real.sqrt_eq_zero (dotProduct_self_nonneg v), dotProduct_self_eq_zero]

theorem length_pos {v : Fin 3 → ℝ} (nonzero : v ≠ 0) : 0 < length v :=
  lt_of_le_of_ne (length_nonneg v) fun zero => nonzero (length_eq_zero_iff.mp zero.symm)

theorem length_smul (r : ℝ) (v : Fin 3 → ℝ) : length (r • v) = |r| * length v := by
  rw [length, smul_dotProduct, dotProduct_smul, smul_eq_mul, smul_eq_mul, ← mul_assoc,
    Real.sqrt_mul (mul_self_nonneg r), Real.sqrt_mul_self_eq_abs, length]

theorem length_neg (v : Fin 3 → ℝ) : length (-v) = length v := by
  rw [length, neg_dotProduct_neg, length]

/-- A vector has a direction, and the zero vector has any. -/
theorem exists_axis {v : Fin 3 → ℝ} {length : ℝ} (square : v ⬝ᵥ v = length ^ 2) :
    ∃ axis, axis ⬝ᵥ axis = 1 ∧ v = length • axis := by
  by_cases zero : length = 0
  · have none : v = 0 := dotProduct_self_eq_zero.mp (by rw [square, zero, zero_pow two_ne_zero])
    refine ⟨![1, 0, 0], by simp [dotProduct, Fin.sum_univ_three], ?_⟩
    rw [none, zero, zero_smul]
  · refine ⟨length⁻¹ • v, ?_, ?_⟩
    · rw [smul_dotProduct, dotProduct_smul, square, smul_eq_mul, smul_eq_mul]
      field_simp
    · rw [smul_smul, mul_inv_cancel₀ zero, one_smul]

/-- Every rotation turns about an axis by at most half a turn. -/
theorem exists_isRotationBy (rotation : R ∈ specialOrthogonalGroup (Fin 3) ℝ) :
    ∃ angle, 0 ≤ angle ∧ angle ≤ Real.pi ∧ IsRotationBy angle R := by
  obtain ⟨q, norm, nonneg, rfl⟩ := exists_quaternion rotation
  obtain ⟨scalar, v, rfl⟩ : ∃ scalar v, q = ofParts scalar v :=
    ⟨q.re, ![q.imI, q.imJ, q.imK], rfl⟩
  rw [ofParts_re] at nonneg
  rw [normSq_ofParts] at norm
  have length : 0 ≤ v ⬝ᵥ v := dotProduct_self_nonneg v
  have square : v ⬝ᵥ v = Real.sin (Real.arccos scalar) ^ 2 := by
    rw [Real.sin_arccos, Real.sq_sqrt (by linarith)]
    linarith
  have cosine : Real.cos (Real.arccos scalar) = scalar :=
    Real.cos_arccos (by linarith) (by nlinarith)
  have quarter : Real.arccos scalar ≤ Real.pi / 2 := Real.arccos_le_pi_div_two.mpr nonneg
  obtain ⟨axis, unit, rfl⟩ := exists_axis square
  have positive := Real.arccos_nonneg scalar
  refine ⟨2 * Real.arccos scalar, by linarith, by linarith, axis, unit, ?_⟩
  rw [← ofQuaternion_half unit, cosine]

end Reals

end Dls2.Rotation
