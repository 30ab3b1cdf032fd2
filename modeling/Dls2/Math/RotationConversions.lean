import Dls2.Math.AngularVelocity
import Dls2.Math.RotationVectors
import Dls2.Utils.Pose

/-!
# Rotation vectors, quaternions and matrices

The conversions between the three. A vector shorter than the tolerance counts as no rotation when it
becomes a matrix, and as its first order approximation when it becomes a quaternion or comes from
one, so the ways through the diagram agree only away from these.
-/

namespace Dls2.Math

open Matrix Quaternion Rotation Real
open Utils (normalized normSq_normalized)

noncomputable section

def quatToRotVec (q : ℍ[ℝ]) : Fin 3 → ℝ :=
  let c := q.re
  let v := vec q
  let s := length v
  if |s| ≥ tolerance then
    let a := 2 * atan2 s c
    s⁻¹ • a • v
  else (2 : ℝ) • v

def rotVecToQuat (v : Fin 3 → ℝ) : ℍ[ℝ] :=
  let a := length v
  normalized (ofParts (cos (a / 2))
    (if a ≥ tolerance then (sin (a / 2) / a) • v else (2 : ℝ)⁻¹ • v))

def rangePi (v : Fin 3 → ℝ) : Fin 3 → ℝ :=
  let a := length v
  if a ≤ π then v
  else
    let a2 := -2 * π * ⌊(a + π) / (2 * π)⌋ + a
    a2 • a⁻¹ • v

end

/-! ### Along an axis -/

section Axis

variable {axis : Fin 3 → ℝ} {angle : ℝ}

theorem axisAngle_transpose (axis : Fin 3 → ℝ) (angle : ℝ) :
    (axisAngle axis angle)ᵀ = axisAngle axis (-angle) := by
  rw [axisAngle, axisAngle, cos_neg, sin_neg]
  simp only [transpose_add, transpose_smul, transpose_one, transpose_vecMulVec, skew_transpose,
    smul_neg, neg_smul]

theorem axisAngle_neg_axis (axis : Fin 3 → ℝ) (angle : ℝ) :
    axisAngle (-axis) angle = axisAngle axis (-angle) := by
  ext i j
  fin_cases i <;> fin_cases j <;> simp [axisAngle, vecMulVec_apply, skew]

theorem axisAngle_add_int (axis : Fin 3 → ℝ) (angle : ℝ) (turns : ℤ) :
    axisAngle axis (angle + turns * (2 * π)) = axisAngle axis angle := by
  rw [axisAngle, axisAngle, cos_add_int_mul_two_pi, sin_add_int_mul_two_pi]

theorem length_smul_of_unit (unit : axis ⬝ᵥ axis = 1) (r : ℝ) : length (r • axis) = |r| := by
  rw [length_smul, length_of_unit unit, mul_one]

theorem smul_axis_injective (unit : axis ⬝ᵥ axis = 1) {r r' : ℝ} :
    r • axis = r' • axis ↔ r = r' := by
  constructor
  · intro same
    have products := congrArg (· ⬝ᵥ axis) same
    simpa [smul_dotProduct, unit] using products
  · rintro rfl
    rfl

theorem smul_axis_eq_zero (unit : axis ⬝ᵥ axis = 1) {r : ℝ} : r • axis = 0 ↔ r = 0 := by
  rw [← zero_smul ℝ axis, smul_axis_injective unit]

/-- The vectors that become the right matrix. -/
theorem rotVecToRotMat_smul_axis (unit : axis ⬝ᵥ axis = 1)
    (long : angle = 0 ∨ tolerance ≤ |angle|) :
    rotVecToRotMat (angle • axis) = (axisAngle axis angle)ᵀ := by
  rw [axisAngle_transpose]
  rcases long with rfl | long
  · have short : ¬ |length ((0 : ℝ) • axis)| ≥ tolerance := by
      rw [length_smul_of_unit unit, abs_zero, abs_zero]
      exact not_le.mpr tolerance_pos
    rw [rotVecToRotMat, if_neg short]
    simp [axisAngle]
  · rcases le_total 0 angle with nonneg | nonpos
    · have unit' : -axis ⬝ᵥ -axis = 1 := by rw [neg_dotProduct_neg, unit]
      rw [abs_of_nonneg nonneg] at long
      rw [← axisAngle_neg_axis, ← rotVecToRotMat_smul unit' long, neg_neg]
    · rw [abs_of_nonpos nonpos] at long
      rw [← rotVecToRotMat_smul unit long, smul_neg, neg_smul, neg_neg]

theorem rotVecToRotMat_of_short {v : Fin 3 → ℝ} (short : length v < tolerance) :
    rotVecToRotMat v = 1 := by
  rw [rotVecToRotMat, if_neg]
  rwa [abs_of_nonneg (length_nonneg v), not_le]

/-- Only whole turns leave everything where it is. -/
theorem axisAngle_eq_one_iff (unit : axis ⬝ᵥ axis = 1) :
    axisAngle axis angle = 1 ↔ cos angle = 1 := by
  constructor
  · intro still
    have traces := congrArg trace still
    rw [trace_axisAngle unit, trace_one, Fintype.card_fin] at traces
    norm_num at traces
    linarith
  · intro whole
    have sine : sin angle = 0 := by
      have pythagoras := sin_sq_add_cos_sq angle
      rw [whole] at pythagoras
      exact pow_eq_zero_iff two_ne_zero |>.mp (by linarith)
    rw [axisAngle, whole, sine]
    simp

theorem vec_ofParts (scalar : ℝ) (v : Fin 3 → ℝ) : vec (ofParts scalar v) = v := by
  ext i
  fin_cases i <;> rfl

theorem normalized_of_unit {q : ℍ[ℝ]} (unit : normSq q = 1) : normalized q = q := by
  rw [normalized, unit, if_pos zero_lt_one, sqrt_one, inv_one, one_smul]

end Axis

/-! ### The functions along an axis -/

section Functions

variable {axis : Fin 3 → ℝ} {angle scalar size : ℝ}

theorem quatToRotVec_ofParts (unit : axis ⬝ᵥ axis = 1) (nonneg : 0 ≤ size) :
    quatToRotVec (ofParts scalar (size • axis)) =
      (if tolerance ≤ size then 2 * atan2 size scalar else 2 * size) • axis := by
  simp only [quatToRotVec, vec_ofParts, ofParts_re, length_smul_of_unit unit,
    abs_of_nonneg nonneg, ge_iff_le]
  split_ifs with long
  · have nonzero : size ≠ 0 := (tolerance_pos.trans_le long).ne'
    rw [smul_smul, smul_smul]
    congr 1
    field_simp
  · rw [smul_smul]

/-- What a short vector becomes before it is normalised. -/
theorem rotVecToQuat_smul (unit : axis ⬝ᵥ axis = 1) (nonneg : 0 ≤ angle) :
    rotVecToQuat (angle • axis) =
      if tolerance ≤ angle then turn axis angle
      else normalized (ofParts (cos (angle / 2)) ((angle / 2) • axis)) := by
  simp only [rotVecToQuat, length_smul_of_unit unit, abs_of_nonneg nonneg, ge_iff_le]
  split_ifs with long
  · have nonzero : angle ≠ 0 := (tolerance_pos.trans_le long).ne'
    rw [smul_smul, div_mul_cancel₀ _ nonzero]
    exact normalized_of_unit (normSq_turn unit angle)
  · rw [smul_smul, inv_mul_eq_div]

theorem turn_zero (axis : Fin 3 → ℝ) : turn axis 0 = 1 := by
  ext <;> simp [turn]

theorem normSq_short (unit : axis ⬝ᵥ axis = 1) (angle : ℝ) :
    normSq (ofParts (cos (angle / 2)) ((angle / 2) • axis)) =
      cos (angle / 2) ^ 2 + (angle / 2) ^ 2 := by
  rw [normSq_ofParts, smul_dotProduct, dotProduct_smul, unit, smul_eq_mul, smul_eq_mul, mul_one,
    ← sq]

/-- The first order approximation is too long. -/
theorem one_lt_normSq_short (unit : axis ⬝ᵥ axis = 1) (positive : 0 < angle) :
    1 < normSq (ofParts (cos (angle / 2)) ((angle / 2) • axis)) := by
  have half : angle / 2 ≠ 0 := by linarith
  have shorter := sin_sq_lt_sq half
  rw [normSq_short unit]
  linarith [sin_sq_add_cos_sq (angle / 2)]

/-- The scale of the quaternion of a short vector. -/
theorem rotVecToQuat_of_short (unit : axis ⬝ᵥ axis = 1) (positive : 0 < angle)
    (short : angle < tolerance) : ∃ scale, 0 < scale ∧ scale < 1 ∧
      rotVecToQuat (angle • axis) =
        ofParts (scale * cos (angle / 2)) ((scale * (angle / 2)) • axis) := by
  have tall := one_lt_normSq_short unit positive
  have root : 1 < √(normSq (ofParts (cos (angle / 2)) ((angle / 2) • axis))) :=
    lt_sqrt_of_sq_lt (by rwa [one_pow])
  refine ⟨_, inv_pos.mpr (zero_lt_one.trans root), inv_lt_one_of_one_lt₀ root, ?_⟩
  rw [rotVecToQuat_smul unit positive.le, if_neg (not_le.mpr short), normalized,
    if_pos (zero_lt_one.trans tall), mul_smul]
  ext <;> simp

theorem rotVecToQuat_zero : rotVecToQuat 0 = 1 := by
  have unit : axisX ⬝ᵥ axisX = 1 := unit_axisX
  have still := rotVecToQuat_smul unit (le_refl 0)
  rw [if_neg (not_le.mpr tolerance_pos), zero_smul] at still
  rw [still, zero_div, zero_smul, cos_zero]
  exact (normalized_of_unit (by simp [normSq_ofParts])).trans (by ext <;> simp)

/-- Half turns and less go one way round, the others go the other way. -/
theorem rangePi_smul (unit : axis ⬝ᵥ axis = 1) (nonneg : 0 ≤ angle) :
    ∃ turns : ℤ, rangePi (angle • axis) = (angle + turns * (2 * π)) • axis ∧
      |angle + turns * (2 * π)| ≤ π ∧ (angle ≤ π → turns = 0) := by
  by_cases half : angle ≤ π
  · refine ⟨0, ?_, ?_, fun _ => rfl⟩
    · simp [rangePi, length_smul_of_unit unit, abs_of_nonneg nonneg, half]
    · simp [abs_of_nonneg nonneg, half]
  · have nonzero : angle ≠ 0 := by linarith [pi_pos]
    have below := Int.floor_le ((angle + π) / (2 * π))
    have above := Int.lt_floor_add_one ((angle + π) / (2 * π))
    rw [le_div_iff₀ two_pi_pos] at below
    rw [div_lt_iff₀ two_pi_pos] at above
    refine ⟨-⌊(angle + π) / (2 * π)⌋, ?_, ?_, fun less => absurd less half⟩
    · simp only [rangePi, length_smul_of_unit unit, abs_of_nonneg nonneg, half, if_false, smul_smul]
      congr 1
      push_cast
      field_simp
      ring
    · push_cast
      exact abs_le.mpr ⟨by linarith, by linarith⟩

/-- Unit quaternions are turns. -/
theorem exists_turn {q : ℍ[ℝ]} (unit : normSq q = 1) :
    ∃ axis angle, axis ⬝ᵥ axis = 1 ∧ 0 ≤ angle ∧ angle ≤ 2 * π ∧ q = turn axis angle := by
  obtain ⟨scalar, v, rfl⟩ : ∃ scalar v, q = ofParts scalar v := ⟨q.re, vec q, rfl⟩
  rw [normSq_ofParts] at unit
  have bound : scalar ^ 2 ≤ 1 := by linarith [dotProduct_self_nonneg v]
  obtain ⟨lower, upper⟩ := abs_le.mp ((sq_le_one_iff_abs_le_one _).mp bound)
  have square : v ⬝ᵥ v = sin (arccos scalar) ^ 2 := by
    rw [sin_arccos, sq_sqrt (by linarith)]
    linarith
  obtain ⟨axis, unitAxis, rfl⟩ := exists_axis square
  refine ⟨axis, 2 * arccos scalar, unitAxis, by linarith [arccos_nonneg scalar],
    by linarith [arccos_le_pi scalar], ?_⟩
  rw [turn, mul_div_cancel_left₀ _ two_ne_zero, cos_arccos lower upper]

/-- The vector of a turn. -/
theorem quatToRotVec_turn (unit : axis ⬝ᵥ axis = 1) (nonneg : 0 ≤ angle) (once : angle ≤ 2 * π) :
    quatToRotVec (turn axis angle) =
      (if tolerance ≤ sin (angle / 2) then angle else 2 * sin (angle / 2)) • axis := by
  have positive : 0 ≤ sin (angle / 2) :=
    sin_nonneg_of_nonneg_of_le_pi (by linarith) (by linarith)
  rw [turn, quatToRotVec_ofParts unit positive, atan2_sin_cos (by linarith) (by linarith),
    mul_div_cancel₀ _ two_ne_zero]

end Functions

/-! ### Around the diagram -/

section Diagram

theorem exists_smul_axis (v : Fin 3 → ℝ) : ∃ axis, axis ⬝ᵥ axis = 1 ∧ v = length v • axis :=
  exists_axis (length_sq v).symm

theorem vec_turn (axis : Fin 3 → ℝ) (angle : ℝ) :
    vec (turn axis angle) = sin (angle / 2) • axis := vec_ofParts _ _

theorem quatToRotMat_one : quatToRotMat (1 : ℍ[ℝ]) = 1 := by
  rw [quatToRotMat_of_unit (map_one _), ← coe_one, ofQuaternion_coe, one_pow, one_smul,
    transpose_one]

/-- The quaternion always has unit length. -/
theorem normSq_rotVecToQuat (v : Fin 3 → ℝ) : normSq (rotVecToQuat v) = 1 := by
  obtain ⟨axis, unit, shape⟩ := exists_smul_axis v
  have nonneg := length_nonneg v
  generalize length v = angle at shape nonneg
  subst shape
  rw [rotVecToQuat_smul unit nonneg]
  split_ifs
  · exact normSq_turn unit angle
  · apply normSq_normalized
    intro zero
    have size := normSq_short unit angle
    rw [zero, map_zero] at size
    have same : angle / 2 = 0 := pow_eq_zero_iff two_ne_zero |>.mp
      (le_antisymm (by linarith [sq_nonneg (cos (angle / 2))]) (sq_nonneg _))
    rw [same, cos_zero] at size
    norm_num at size

/-- A short vector becomes a quaternion that turns. -/
theorem quatToRotMat_rotVecToQuat_of_short {axis : Fin 3 → ℝ} {angle : ℝ}
    (unit : axis ⬝ᵥ axis = 1) (positive : 0 < angle) (short : angle < tolerance) :
    quatToRotMat (rotVecToQuat (angle • axis)) ≠ 1 := by
  intro same
  obtain ⟨scale, above, below, shape⟩ := rotVecToQuat_of_short unit positive short
  rw [← quatToRotMat_one, quatToRotMat_of_unit (normSq_rotVecToQuat _),
    quatToRotMat_of_unit (map_one _), transpose_inj,
    ofQuaternion_eq_iff (normSq_rotVecToQuat _) (map_one _)] at same
  have still : vec (rotVecToQuat (angle • axis)) = 0 := by
    rcases same with same | same <;> rw [same]
    · exact vec_ofParts 1 0
    · rw [vec_neg_eq_zero_iff]
      exact vec_ofParts 1 0
  rw [shape, vec_ofParts, smul_axis_eq_zero unit] at still
  exact (mul_pos above (half_pos positive)).ne' still

/-- From a vector to a matrix, directly and through the quaternion. -/
theorem quatToRotMat_rotVecToQuat_iff (v : Fin 3 → ℝ) :
    quatToRotMat (rotVecToQuat v) = rotVecToRotMat v ↔ v = 0 ∨ tolerance ≤ length v := by
  by_cases zero : v = 0
  · refine iff_of_true ?_ (.inl zero)
    have short : length v < tolerance := by
      rw [length_eq_zero_iff.mpr zero]
      exact tolerance_pos
    rw [rotVecToRotMat_of_short short, zero, rotVecToQuat_zero, quatToRotMat_one]
  · rw [or_iff_right zero]
    obtain ⟨axis, unit, shape⟩ := exists_smul_axis v
    have positive := length_pos zero
    generalize length v = angle at shape positive ⊢
    subst shape
    have size : |angle| = angle := abs_of_pos positive
    by_cases long : tolerance ≤ angle
    · refine iff_of_true ?_ long
      rw [rotVecToQuat_smul unit positive.le, if_pos long, quatToRotMat_turn unit,
        rotVecToRotMat_smul_axis unit (.inr (by rwa [size]))]
    · refine iff_of_false ?_ long
      rw [not_le] at long
      rw [rotVecToRotMat_of_short (by rwa [length_smul_of_unit unit, size])]
      exact quatToRotMat_rotVecToQuat_of_short unit positive long

/-- The vector of a quaternion is at most a whole turn. -/
theorem length_quatToRotVec {q : ℍ[ℝ]} (unit : normSq q = 1) :
    length (quatToRotVec q) ≤ 2 * π := by
  obtain ⟨axis, angle, unitAxis, nonneg, once, rfl⟩ := exists_turn unit
  have positive : 0 ≤ sin (angle / 2) :=
    sin_nonneg_of_nonneg_of_le_pi (by linarith) (by linarith)
  rw [quatToRotVec_turn unitAxis nonneg once, length_smul_of_unit unitAxis]
  split_ifs
  · rwa [abs_of_nonneg nonneg]
  · rw [abs_of_nonneg (by linarith)]
    linarith [sin_le_one (angle / 2), two_le_pi]

/-- The shorter way round. -/
noncomputable def wrap (angle : ℝ) : ℝ := if angle ≤ π then angle else angle - 2 * π

theorem rangePi_smul_wrap {axis : Fin 3 → ℝ} {angle : ℝ} (unit : axis ⬝ᵥ axis = 1)
    (nonneg : 0 ≤ angle) (once : angle ≤ 2 * π) : rangePi (angle • axis) = wrap angle • axis := by
  obtain ⟨turns, limited, half, inside⟩ := rangePi_smul unit nonneg
  rw [limited, smul_axis_injective unit, wrap]
  split_ifs with less
  · rw [inside less, Int.cast_zero, zero_mul, add_zero]
  · obtain ⟨lower, upper⟩ := abs_le.mp half
    have some : turns < 0 := by
      have negative : (turns : ℝ) * (2 * π) < 0 := by linarith
      exact_mod_cast neg_of_mul_neg_left negative two_pi_pos.le
    have one : -2 < turns := by
      have above : (-2 : ℝ) * (2 * π) < turns * (2 * π) := by linarith [pi_pos]
      exact_mod_cast lt_of_mul_lt_mul_right above two_pi_pos.le
    obtain rfl : turns = -1 := by omega
    push_cast
    ring

theorem sin_half_of_wrap {angle : ℝ} (none : wrap angle = 0) : sin (angle / 2) = 0 := by
  unfold wrap at none
  split_ifs at none
  · rw [none, zero_div, sin_zero]
  · rw [sub_eq_zero.mp none, mul_div_cancel_left₀ _ two_ne_zero, sin_pi]

/-- The vector of the matrix of a turn. -/
theorem rotMatToRotVec_turn {axis : Fin 3 → ℝ} {angle : ℝ} (unit : axis ⬝ᵥ axis = 1)
    (nonneg : 0 ≤ angle) (once : angle ≤ 2 * π) :
    rotMatToRotVec (quatToRotMat (turn axis angle)) =
      (if |sin angle| ≤ tolerance then 0 else wrap angle) • axis := by
  have unit' : -axis ⬝ᵥ -axis = 1 := by rw [neg_dotProduct_neg, unit]
  rw [quatToRotMat_turn unit]
  by_cases half : angle ≤ π
  · rw [axisAngle_transpose, ← axisAngle_neg_axis, rotMatToRotVec_axisAngle unit' nonneg half,
      abs_of_nonneg (sin_nonneg_of_nonneg_of_le_pi nonneg half), wrap, if_pos half, neg_neg]
    split_ifs
    · rw [zero_smul]
    · rfl
  · have turned := axisAngle_add_int axis (-angle) 1
    have sine : |sin angle| = sin (-angle + (1 : ℤ) * (2 * π)) := by
      rw [sin_add_int_mul_two_pi, sin_neg, abs_of_nonpos]
      rw [← sin_sub_two_pi]
      exact sin_nonpos_of_nonpos_of_neg_pi_le (by linarith) (by linarith)
    rw [axisAngle_transpose, ← turned, rotMatToRotVec_axisAngle unit (by push_cast; linarith)
      (by push_cast; linarith), ← sine, wrap, if_neg half]
    split_ifs
    · rw [zero_smul]
    · rw [smul_neg, ← neg_smul]
      congr 1
      push_cast
      ring

/-- A vector comes back from its quaternion exactly if it is zero, or less than a whole turn whose
half has a sine that does not count as zero. -/
theorem quatToRotVec_rotVecToQuat_iff (v : Fin 3 → ℝ) :
    quatToRotVec (rotVecToQuat v) = v ↔
      v = 0 ∨ length v < 2 * π ∧ tolerance ≤ sin (length v / 2) := by
  by_cases zero : v = 0
  · refine iff_of_true ?_ (.inl zero)
    rw [zero, rotVecToQuat_zero, ← turn_zero axisX,
      quatToRotVec_turn unit_axisX le_rfl two_pi_pos.le]
    simp
  · rw [or_iff_right zero]
    obtain ⟨axis, unit, shape⟩ := exists_smul_axis v
    have positive := length_pos zero
    generalize length v = angle at shape positive ⊢
    subst shape
    by_cases long : tolerance ≤ angle
    · rw [rotVecToQuat_smul unit positive.le, if_pos long]
      by_cases once : angle ≤ 2 * π
      · rw [quatToRotVec_turn unit positive.le once, smul_axis_injective unit]
        split_ifs with visible
        · refine iff_of_true rfl ⟨lt_of_le_of_ne once ?_, visible⟩
          rintro rfl
          rw [mul_div_cancel_left₀ _ two_ne_zero, sin_pi] at visible
          exact not_le.mpr tolerance_pos visible
        · refine iff_of_false ?_ fun ⟨_, seen⟩ => visible seen
          linarith [sin_lt (half_pos positive)]
      · refine iff_of_false ?_ fun ⟨less, _⟩ => once less.le
        intro same
        have bound := length_quatToRotVec (normSq_turn unit angle)
        rw [same, length_smul_of_unit unit, abs_of_pos positive] at bound
        exact once bound
    · refine iff_of_false ?_ ?_
      · intro same
        obtain ⟨scale, above, below, shape⟩ := rotVecToQuat_of_short unit positive (not_le.mp long)
        have nonneg : 0 ≤ scale * (angle / 2) := (mul_pos above (half_pos positive)).le
        have smaller : scale * (angle / 2) < angle / 2 :=
          mul_lt_of_lt_one_left (half_pos positive) below
        rw [shape, quatToRotVec_ofParts unit nonneg, if_neg (by linarith),
          smul_axis_injective unit] at same
        linarith
      · rintro ⟨_, visible⟩
        linarith [sin_lt (half_pos positive)]

/-- A unit quaternion comes back from its vector exactly if it is one, or its vector part does not
count as zero. -/
theorem rotVecToQuat_quatToRotVec_iff {q : ℍ[ℝ]} (unit : normSq q = 1) :
    rotVecToQuat (quatToRotVec q) = q ↔ q = 1 ∨ tolerance ≤ length (vec q) := by
  obtain ⟨axis, angle, unitAxis, nonneg, once, rfl⟩ := exists_turn unit
  have positive : 0 ≤ sin (angle / 2) :=
    sin_nonneg_of_nonneg_of_le_pi (by linarith) (by linarith)
  rw [quatToRotVec_turn unitAxis nonneg once, vec_turn, length_smul_of_unit unitAxis,
    abs_of_nonneg positive]
  split_ifs with visible
  · refine iff_of_true ?_ (.inr visible)
    have long : tolerance ≤ angle := by linarith [sin_le (show 0 ≤ angle / 2 by linarith)]
    rw [rotVecToQuat_smul unitAxis nonneg, if_pos long]
  · rw [or_iff_left visible]
    by_cases still : sin (angle / 2) = 0
    · rw [still, mul_zero, zero_smul, rotVecToQuat_zero, eq_comm]
    · have some : 0 < sin (angle / 2) := positive.lt_of_ne' still
      refine iff_of_false ?_ ?_
      · intro same
        have parts := congrArg vec same
        rw [vec_turn] at parts
        by_cases long : tolerance ≤ 2 * sin (angle / 2)
        · rw [rotVecToQuat_smul unitAxis (by linarith), if_pos long, vec_turn,
            smul_axis_injective unitAxis, mul_div_cancel_left₀ _ two_ne_zero] at parts
          exact (sin_lt some).ne parts
        · obtain ⟨scale, -, below, shape⟩ :=
            rotVecToQuat_of_short unitAxis (by linarith) (not_le.mp long)
          rw [shape, vec_ofParts, smul_axis_injective unitAxis,
            mul_div_cancel_left₀ _ two_ne_zero] at parts
          exact (mul_lt_of_lt_one_left some below).ne parts
      · intro one
        have parts := congrArg vec one
        rw [vec_turn, ← turn_zero axis, vec_turn, smul_axis_injective unitAxis, zero_div,
          sin_zero] at parts
        exact still parts

theorem rotVecToQuat_quatToRotVec_iff_axisZ :
    rotVecToQuat (quatToRotVec (turn axisZ 1)) = turn axisZ 1 ↔
      turn axisZ 1 = 1 ∨ tolerance ≤ length (vec (turn axisZ 1)) :=
  rotVecToQuat_quatToRotVec_iff (normSq_turn unit_axisZ 1)

/-- Limiting the length keeps the rotation, as far as the result is not counted as zero. -/
theorem rangePi_spec (v : Fin 3 → ℝ) : length (rangePi v) ≤ π ∧
    (rotVecToRotMat (rangePi v) = rotVecToRotMat v ↔
      rangePi v = v ∨ rangePi v = 0 ∨ tolerance ≤ length (rangePi v)) := by
  obtain ⟨axis, unit, shape⟩ := exists_smul_axis v
  have nonneg := length_nonneg v
  generalize length v = angle at shape nonneg
  subst shape
  obtain ⟨turns, limited, half, inside⟩ := rangePi_smul unit nonneg
  have size : length (rangePi (angle • axis)) = |angle + turns * (2 * π)| := by
    rw [limited, length_smul_of_unit unit]
  refine ⟨size.le.trans half, ?_⟩
  by_cases same : rangePi (angle • axis) = angle • axis
  · rw [same]
    exact iff_of_true rfl (.inl rfl)
  · have beyond : π < angle := by
      by_contra less
      rw [limited, inside (not_lt.mp less), Int.cast_zero, zero_mul, add_zero] at same
      exact same rfl
    have long : tolerance ≤ |angle| := by
      rw [abs_of_nonneg nonneg]
      linarith [tolerance_lt_one, two_le_pi]
    rw [or_iff_right same, size, limited, smul_axis_eq_zero unit,
      rotVecToRotMat_smul_axis unit (.inr long)]
    by_cases enough : angle + turns * (2 * π) = 0 ∨ tolerance ≤ |angle + turns * (2 * π)|
    · refine iff_of_true ?_ enough
      rw [rotVecToRotMat_smul_axis unit enough, axisAngle_add_int]
    · refine iff_of_false ?_ enough
      obtain ⟨moved, tiny⟩ := not_or.mp enough
      rw [not_le] at tiny
      rw [rotVecToRotMat_of_short (by rwa [length_smul_of_unit unit]), ← transpose_one,
        transpose_inj, ← axisAngle_add_int axis angle turns]
      intro still
      have whole := (axisAngle_eq_one_iff unit).mp still.symm
      obtain ⟨lower, upper⟩ := abs_lt.mp (tiny.trans tolerance_lt_one)
      exact moved ((cos_eq_one_iff_of_lt_of_lt (by linarith [two_le_pi])
        (by linarith [two_le_pi])).mp whole)

/-- From a quaternion to its shortest vector, through the matrix and by limiting the length. -/
theorem rotMatToRotVec_quatToRotMat_iff {q : ℍ[ℝ]} (unit : normSq q = 1) :
    rotMatToRotVec (quatToRotMat q) = rangePi (quatToRotVec q) ↔
      vec q = 0 ∨ tolerance ≤ length (vec q) ∧ tolerance < 2 * |q.re| * length (vec q) := by
  obtain ⟨axis, angle, unitAxis, nonneg, once, rfl⟩ := exists_turn unit
  have positive : 0 ≤ sin (angle / 2) :=
    sin_nonneg_of_nonneg_of_le_pi (by linarith) (by linarith)
  have sine : 2 * |(turn axis angle).re| * sin (angle / 2) = |sin angle| := by
    have double := sin_two_mul (angle / 2)
    rw [mul_div_cancel₀ _ two_ne_zero] at double
    rw [turn, ofParts_re, double, abs_mul, abs_mul, abs_of_nonneg positive, abs_two]
    ring
  rw [vec_turn, length_smul_of_unit unitAxis, abs_of_nonneg positive, sine,
    smul_axis_eq_zero unitAxis, quatToRotVec_turn unitAxis nonneg once,
    rotMatToRotVec_turn unitAxis nonneg once]
  by_cases visible : tolerance ≤ sin (angle / 2)
  · have some : sin (angle / 2) ≠ 0 := (tolerance_pos.trans_le visible).ne'
    rw [if_pos visible, rangePi_smul_wrap unitAxis nonneg once, smul_axis_injective unitAxis,
      or_iff_right some, and_iff_right visible]
    split_ifs with small
    · refine iff_of_false ?_ (not_lt.mpr small)
      intro none
      exact some (sin_half_of_wrap none.symm)
    · exact iff_of_true rfl (not_le.mp small)
  · have limited : wrap (2 * sin (angle / 2)) = 2 * sin (angle / 2) :=
      if_pos (by linarith [sin_le_one (angle / 2), two_le_pi])
    rw [if_neg visible, or_iff_left fun seen => visible seen.1,
      rangePi_smul_wrap unitAxis (by linarith) (by linarith [sin_le_one (angle / 2), two_le_pi]),
      limited, smul_axis_injective unitAxis]
    split_ifs with small
    · rw [zero_eq_mul, or_iff_right two_ne_zero]
    · have some : 0 < sin (angle / 2) := by
        refine positive.lt_of_ne' fun zero => small ?_
        rw [← sine, zero, mul_zero]
        exact tolerance_pos.le
      refine iff_of_false ?_ some.ne'
      have moved : 0 < angle / 2 := by
        refine lt_of_le_of_ne (by linarith) fun zero => some.ne' ?_
        rw [← zero, sin_zero]
      unfold wrap
      split_ifs
      · linarith [sin_lt moved]
      · linarith

theorem rotMatToRotVec_quatToRotMat_iff_axisZ :
    rotMatToRotVec (quatToRotMat (turn axisZ 4)) = rangePi (quatToRotVec (turn axisZ 4)) ↔
      vec (turn axisZ 4) = 0 ∨ tolerance ≤ length (vec (turn axisZ 4)) ∧
        tolerance < 2 * |(turn axisZ 4).re| * length (vec (turn axisZ 4)) :=
  rotMatToRotVec_quatToRotMat_iff (normSq_turn unit_axisZ 4)

end Diagram

end Dls2.Math
