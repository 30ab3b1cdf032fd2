import Dls2.Math.Quaternions

/-!
# The quaternion of a rotation matrix

`rotMatToQuat` takes the square root of four times the square of one component and divides by it.
Which component this is depends on the trace and on the largest entry of the diagonal. A square root
of a negative number and a division by zero are `none`.
-/

namespace Dls2.Math

open Matrix Quaternion Rotation

/-- `sqrt`. -/
noncomputable def sqrt? (x : ℝ) : Option ℝ := if x < 0 then none else some √x

/-- A division. -/
noncomputable def div? (x y : ℝ) : Option ℝ := if y = 0 then none else some (x / y)

/-- The guarded reciprocal: `if ( sqrt_tr > 1e-06 ) sqrt_tr = 0.5/sqrt_tr;`. -/
noncomputable def halfOver (sqrtTr : ℝ) : Option ℝ :=
  if sqrtTr > 1 / 10 ^ 6 then div? (1 / 2) sqrtTr else some sqrtTr

noncomputable def rotMatToQuat (R : Matrix (Fin 3) (Fin 3) ℝ) : Option ℍ[ℝ] :=
  if R.trace > 1 / 10 ^ 6 then
    (sqrt? (R.trace + 1)).bind fun sqrtTr =>
      (div? (R 1 2 - R 2 1) (2 * sqrtTr)).bind fun x =>
        (div? (R 2 0 - R 0 2) (2 * sqrtTr)).bind fun y =>
          (div? (R 0 1 - R 1 0) (2 * sqrtTr)).map fun z =>
            ofParts (1 / 2 * sqrtTr) ![x, y, z]
  else if R 1 1 > R 0 0 ∧ R 1 1 > R 2 2 then
    (sqrt? (R 1 1 - R 0 0 - R 2 2 + 1)).bind fun sqrtTr =>
      (halfOver sqrtTr).map fun factor =>
        ofParts ((R 2 0 - R 0 2) * factor)
          ![(R 0 1 + R 1 0) * factor, 1 / 2 * sqrtTr, (R 1 2 + R 2 1) * factor]
  else if R 2 2 > R 0 0 then
    (sqrt? (R 2 2 - R 0 0 - R 1 1 + 1)).bind fun sqrtTr =>
      (halfOver sqrtTr).map fun factor =>
        ofParts ((R 0 1 - R 1 0) * factor)
          ![(R 2 0 + R 0 2) * factor, (R 1 2 + R 2 1) * factor, 1 / 2 * sqrtTr]
  else
    (sqrt? (R 0 0 - R 1 1 - R 2 2 + 1)).bind fun sqrtTr =>
      (halfOver sqrtTr).map fun factor =>
        ofParts ((R 1 2 - R 2 1) * factor)
          ![1 / 2 * sqrtTr, (R 0 1 + R 1 0) * factor, (R 2 0 + R 0 2) * factor]

/-! ### The checked operations -/

section Checked

variable {p : ℝ}

theorem sqrt?_of_pos (positive : 0 < p) : sqrt? p = some √p := if_neg (not_lt.mpr positive.le)

theorem div?_of_pos (x : ℝ) (positive : 0 < p) : div? x p = some (x / p) := if_neg positive.ne'

/-- A square root far from zero passes the guard. -/
theorem halfOver_of_le (large : 1 / 2 ≤ p) : halfOver √p = some ((2 * √p)⁻¹) := by
  have guarded : 1 / 10 ^ 6 < √p := by
    rw [Real.lt_sqrt (by norm_num)]
    norm_num
    linarith
  have positive : 0 < √p := Real.sqrt_pos.mpr (by linarith)
  rw [halfOver, if_pos guarded, div?_of_pos _ positive]
  congr 1
  field_simp

/-- The component itself. -/
theorem half_sqrt (positive : 0 < p) : (2 * √p)⁻¹ * p = 1 / 2 * √p := by
  have root := Real.sqrt_pos.mpr positive
  have square := Real.mul_self_sqrt positive.le
  field_simp
  linarith

end Checked

/-! ### The four columns -/

section Columns

variable {R : Matrix (Fin 3) (Fin 3) ℝ}

/-- A column of the transpose gives the matrix back. -/
theorem quatToRotMat_fromColumn (rotation : R ∈ specialOrthogonalGroup (Fin 3) ℝ) {e : ℍ[ℝ]}
    (unit : normSq e = 1) (positive : 0 < pivot Rᵀ e) :
    normSq (fromColumn Rᵀ e) = 1 ∧ quatToRotMat (fromColumn Rᵀ e) = R := by
  obtain ⟨norm, matrix⟩ := fromColumn_spec (transpose_mem rotation) unit positive
  exact ⟨norm, by rw [quatToRotMat_of_unit norm, matrix, transpose_transpose]⟩

variable (R)

theorem pivot_w : pivot Rᵀ 1 = R.trace + 1 := by
  simp [pivot, ofQuaternion, trace_fin_three, mul_apply, Fin.sum_univ_three]
  ring

theorem pivot_x : pivot Rᵀ (ofParts 0 ![1, 0, 0]) = R 0 0 - R 1 1 - R 2 2 + 1 := by
  simp [pivot, ofQuaternion, trace_fin_three, mul_apply, Fin.sum_univ_three]
  ring

theorem pivot_y : pivot Rᵀ (ofParts 0 ![0, 1, 0]) = R 1 1 - R 0 0 - R 2 2 + 1 := by
  simp [pivot, ofQuaternion, trace_fin_three, mul_apply, Fin.sum_univ_three]
  ring

theorem pivot_z : pivot Rᵀ (ofParts 0 ![0, 0, 1]) = R 2 2 - R 0 0 - R 1 1 + 1 := by
  simp [pivot, ofQuaternion, trace_fin_three, mul_apply, Fin.sum_univ_three]
  ring

theorem column_w : column Rᵀ 1 =
    ofParts (R.trace + 1) ![R 1 2 - R 2 1, R 2 0 - R 0 2, R 0 1 - R 1 0] := by
  ext <;> simp [column, scalarColumn, ofQuaternion, trace_fin_three, mul_apply,
    Fin.sum_univ_three]
  ring

theorem column_x : column Rᵀ (ofParts 0 ![1, 0, 0]) =
    ofParts (R 1 2 - R 2 1)
      ![R 0 0 - R 1 1 - R 2 2 + 1, R 0 1 + R 1 0, R 2 0 + R 0 2] := by
  ext <;> simp [column, scalarColumn, ofQuaternion, trace_fin_three, mul_apply,
    Fin.sum_univ_three] <;> ring

theorem column_y : column Rᵀ (ofParts 0 ![0, 1, 0]) =
    ofParts (R 2 0 - R 0 2)
      ![R 0 1 + R 1 0, R 1 1 - R 0 0 - R 2 2 + 1, R 1 2 + R 2 1] := by
  ext <;> simp [column, scalarColumn, ofQuaternion, trace_fin_three, mul_apply,
    Fin.sum_univ_three] <;> ring

theorem column_z : column Rᵀ (ofParts 0 ![0, 0, 1]) =
    ofParts (R 0 1 - R 1 0)
      ![R 2 0 + R 0 2, R 1 2 + R 2 1, R 2 2 - R 0 0 - R 1 1 + 1] := by
  ext <;> simp [column, scalarColumn, ofQuaternion, trace_fin_three, mul_apply,
    Fin.sum_univ_three] <;> ring

end Columns

/-! ### The four branches -/

section Branches

variable {R : Matrix (Fin 3) (Fin 3) ℝ}

theorem rotMatToQuat_w (above : R.trace > 1 / 10 ^ 6) :
    0 < pivot Rᵀ 1 ∧ rotMatToQuat R = some (fromColumn Rᵀ 1) := by
  have positive : 0 < R.trace + 1 := by
    norm_num at above
    linarith
  have root : 0 < 2 * √(R.trace + 1) := by
    have := Real.sqrt_pos.mpr positive
    linarith
  refine ⟨by rwa [pivot_w], ?_⟩
  rw [rotMatToQuat, if_pos above, sqrt?_of_pos positive, Option.bind_some, div?_of_pos _ root,
    Option.bind_some, div?_of_pos _ root, Option.bind_some, div?_of_pos _ root, Option.map_some,
    fromColumn, column_w, pivot_w, ← half_sqrt positive]
  congr 1
  ext <;> simp [div_eq_inv_mul]

/-- A branch with the guarded reciprocal: its quaternion is the column scaled by the factor. The
root is twice the pivot times the factor. -/
theorem bind_sqrt?_halfOver {p : ℝ} {e : ℍ[ℝ]} (isPivot : pivot Rᵀ e = p) (large : 1 / 2 ≤ p)
    {quat : ℝ → ℝ → ℍ[ℝ]}
    (scaled : ∀ factor, quat (2 * (factor * p)) factor = factor • column Rᵀ e) :
    0 < pivot Rᵀ e ∧
      ((sqrt? p).bind fun sqrtTr => (halfOver sqrtTr).map fun factor => quat sqrtTr factor) =
        some (fromColumn Rᵀ e) := by
  have positive : 0 < p := by linarith
  have root : 2 * ((2 * √p)⁻¹ * p) = √p := by
    rw [half_sqrt positive]
    ring
  have quaternion := scaled (2 * √p)⁻¹
  rw [root] at quaternion
  refine ⟨by rwa [isPivot], ?_⟩
  rw [sqrt?_of_pos positive, Option.bind_some, halfOver_of_le large, Option.map_some, quaternion,
    fromColumn, isPivot]

theorem rotMatToQuat_y (low : ¬ R.trace > 1 / 10 ^ 6) (largest : R 1 1 > R 0 0 ∧ R 1 1 > R 2 2) :
    0 < pivot Rᵀ (ofParts 0 ![0, 1, 0]) ∧
      rotMatToQuat R = some (fromColumn Rᵀ (ofParts 0 ![0, 1, 0])) := by
  have large : 1 / 2 ≤ R 1 1 - R 0 0 - R 2 2 + 1 := by
    rw [trace_fin_three, not_lt] at low
    norm_num at low
    linarith
  rw [rotMatToQuat, if_neg low, if_pos largest]
  refine bind_sqrt?_halfOver (pivot_y R) large fun factor => ?_
  rw [column_y]
  ext <;> simp [mul_comm]

theorem rotMatToQuat_z (low : ¬ R.trace > 1 / 10 ^ 6)
    (notY : ¬ (R 1 1 > R 0 0 ∧ R 1 1 > R 2 2)) (larger : R 2 2 > R 0 0) :
    0 < pivot Rᵀ (ofParts 0 ![0, 0, 1]) ∧
      rotMatToQuat R = some (fromColumn Rᵀ (ofParts 0 ![0, 0, 1])) := by
  have large : 1 / 2 ≤ R 2 2 - R 0 0 - R 1 1 + 1 := by
    rw [trace_fin_three, not_lt] at low
    norm_num at low
    rcases not_and_or.mp notY with notX | notZ <;> linarith
  rw [rotMatToQuat, if_neg low, if_neg notY, if_pos larger]
  refine bind_sqrt?_halfOver (pivot_z R) large fun factor => ?_
  rw [column_z]
  ext <;> simp [mul_comm]

theorem rotMatToQuat_x (low : ¬ R.trace > 1 / 10 ^ 6)
    (notY : ¬ (R 1 1 > R 0 0 ∧ R 1 1 > R 2 2)) (notZ : ¬ R 2 2 > R 0 0) :
    0 < pivot Rᵀ (ofParts 0 ![1, 0, 0]) ∧
      rotMatToQuat R = some (fromColumn Rᵀ (ofParts 0 ![1, 0, 0])) := by
  have large : 1 / 2 ≤ R 0 0 - R 1 1 - R 2 2 + 1 := by
    rw [trace_fin_three, not_lt] at low
    norm_num at low
    rcases not_and_or.mp notY with notX | notZ <;> linarith
  rw [rotMatToQuat, if_neg low, if_neg notY, if_neg notZ]
  refine bind_sqrt?_halfOver (pivot_x R) large fun factor => ?_
  rw [column_x]
  ext <;> simp [mul_comm]

/-- Each branch computes a column of the transpose with a positive pivot. -/
theorem rotMatToQuat_eq (R : Matrix (Fin 3) (Fin 3) ℝ) :
    ∃ e : ℍ[ℝ], normSq e = 1 ∧ 0 < pivot Rᵀ e ∧ rotMatToQuat R = some (fromColumn Rᵀ e) := by
  by_cases above : R.trace > 1 / 10 ^ 6
  · exact ⟨1, map_one _, rotMatToQuat_w above⟩
  · by_cases largest : R 1 1 > R 0 0 ∧ R 1 1 > R 2 2
    · exact ⟨_, by simp [normSq_ofParts], rotMatToQuat_y above largest⟩
    · by_cases larger : R 2 2 > R 0 0
      · exact ⟨_, by simp [normSq_ofParts], rotMatToQuat_z above largest larger⟩
      · exact ⟨_, by simp [normSq_ofParts], rotMatToQuat_x above largest larger⟩

end Branches

/-- For every rotation matrix the quaternion is defined, of unit length, and gives the matrix
back. -/
theorem rotMatToQuat_roundTrip (R : Matrix (Fin 3) (Fin 3) ℝ)
    (rotation : R ∈ specialOrthogonalGroup (Fin 3) ℝ) :
    ∃ q, rotMatToQuat R = some q ∧ normSq q = 1 ∧ quatToRotMat q = R := by
  obtain ⟨e, unit, positive, computed⟩ := rotMatToQuat_eq R
  exact ⟨_, computed, quatToRotMat_fromColumn rotation unit positive⟩

/-- A half turn. -/
theorem rotMatToQuat_roundTrip_halfTurn :
    ∃ q, rotMatToQuat !![-1, 0, 0; 0, 1, 0; 0, 0, -1] = some q ∧ normSq q = 1 ∧
      quatToRotMat q = !![-1, 0, 0; 0, 1, 0; 0, 0, -1] := by
  have turn : ofQuaternion (ofParts (0 : ℝ) ![0, 1, 0]) = !![-1, 0, 0; 0, 1, 0; 0, 0, -1] := by
    simp [ofQuaternion]
  refine rotMatToQuat_roundTrip _ ?_
  rw [← turn]
  exact ofQuaternion_mem (by simp [normSq_ofParts])

end Dls2.Math
