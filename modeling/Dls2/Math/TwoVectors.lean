import Mathlib.LinearAlgebra.CrossProduct
import Dls2.Lib.Rotation

/-!
# From one vector to another

`twovecToRot` should rotate the direction of one vector into that of another. It builds a basis of
the two directions and the axis normal to both, and lets the directions change places. The map
swaps the directions and keeps the axis, so it is orthogonal, but it reflects. Normalising a zero
vector and inverting a singular matrix are `none`.
-/

namespace Dls2.Math

open Matrix Rotation

/-- The direction of a vector. -/
noncomputable def direction (v : Fin 3 → ℝ) : Fin 3 → ℝ := (length v)⁻¹ • v

/-- `normalized` and `normalize`. -/
noncomputable def normalized? (v : Fin 3 → ℝ) : Option (Fin 3 → ℝ) :=
  if v = 0 then none else some (direction v)

/-- `inverse`. -/
noncomputable def inverse? (M : Matrix (Fin 3) (Fin 3) ℝ) : Option (Matrix (Fin 3) (Fin 3) ℝ) :=
  if M.det = 0 then none else some M⁻¹

/-- The matrix with three columns. -/
def ofColumns (col0 col1 col2 : Fin 3 → ℝ) : Matrix (Fin 3) (Fin 3) ℝ := (of ![col0, col1, col2])ᵀ

def coordChangeMat : Matrix (Fin 3) (Fin 3) ℝ :=
  !![0, 1, 0;
    1, 0, 0;
    0, 0, 1]

noncomputable def twovecToRot (v1 v2 : Fin 3 → ℝ) : Option (Matrix (Fin 3) (Fin 3) ℝ) :=
  if v1 = v2 ∨ v1 = -v2 then some 1
  else
    (normalized? (crossProduct v1 v2)).bind fun axis =>
      (normalized? v1).bind fun col0 =>
        (normalized? v2).bind fun col1 =>
          let base := ofColumns col0 col1 axis
          (inverse? base).map fun inverse => base * coordChangeMat * inverse

/-! ### Directions -/

section Direction

variable {v : Fin 3 → ℝ}

theorem normalized?_of_ne (nonzero : v ≠ 0) : normalized? v = some (direction v) := if_neg nonzero

theorem direction_dot_self (nonzero : v ≠ 0) : direction v ⬝ᵥ direction v = 1 := by
  have positive := length_pos nonzero
  rw [direction, smul_dotProduct, dotProduct_smul, ← length_sq, smul_eq_mul, smul_eq_mul]
  field_simp

theorem direction_neg (v : Fin 3 → ℝ) : direction (-v) = -direction v := by
  rw [direction, length_neg, smul_neg, direction]

theorem direction_ne_zero (nonzero : v ≠ 0) : direction v ≠ 0 :=
  smul_ne_zero (inv_ne_zero (length_pos nonzero).ne') nonzero

end Direction

/-! ### The basis -/

section Basis

variable (col0 col1 col2 : Fin 3 → ℝ)

theorem det_ofColumns : (ofColumns col0 col1 col2).det = col2 ⬝ᵥ crossProduct col0 col1 := by
  rw [ofColumns, det_transpose, ← triple_product_permutation, ← triple_product_permutation]
  exact (triple_product_eq_det col0 col1 col2).symm

theorem det_coordChangeMat : coordChangeMat.det = -1 := by
  simp [coordChangeMat, det_fin_three]

theorem inverse?_of_ne {M : Matrix (Fin 3) (Fin 3) ℝ} (regular : M.det ≠ 0) :
    inverse? M = some M⁻¹ := if_neg regular

/-- The change of coordinates swaps two columns. -/
theorem ofColumns_mul_coordChangeMat :
    ofColumns col0 col1 col2 * coordChangeMat = ofColumns col1 col0 col2 := by
  ext i j
  fin_cases j <;> simp [ofColumns, coordChangeMat, mul_apply, Fin.sum_univ_three]

theorem ofColumns_mulVec_single_zero :
    ofColumns col0 col1 col2 *ᵥ Pi.single 0 1 = col0 := by
  ext i
  simp [ofColumns]

theorem transpose_mul_ofColumns :
    (ofColumns col0 col1 col2)ᵀ * ofColumns col0 col1 col2 =
      !![col0 ⬝ᵥ col0, col0 ⬝ᵥ col1, col0 ⬝ᵥ col2;
        col1 ⬝ᵥ col0, col1 ⬝ᵥ col1, col1 ⬝ᵥ col2;
        col2 ⬝ᵥ col0, col2 ⬝ᵥ col1, col2 ⬝ᵥ col2] := by
  ext i j
  fin_cases i <;> fin_cases j <;> simp [ofColumns, mul_apply, dotProduct]

variable {col0 col1 col2}

/-- Two unit vectors that are normal to the third can change places in the Gram matrix. -/
theorem transpose_mul_swapped (unit0 : col0 ⬝ᵥ col0 = 1) (unit1 : col1 ⬝ᵥ col1 = 1)
    (normal0 : col0 ⬝ᵥ col2 = 0) (normal1 : col1 ⬝ᵥ col2 = 0) :
    (ofColumns col1 col0 col2)ᵀ * ofColumns col1 col0 col2 =
      (ofColumns col0 col1 col2)ᵀ * ofColumns col0 col1 col2 := by
  rw [transpose_mul_ofColumns, transpose_mul_ofColumns, unit0, unit1, normal0, normal1,
    dotProduct_comm col2 col0, dotProduct_comm col2 col1, normal0, normal1,
    dotProduct_comm col1 col0]

/-- The change of coordinates in such a basis is orthogonal, swaps the first two vectors, and has
determinant -1. -/
theorem swap_spec (regular : (ofColumns col0 col1 col2).det ≠ 0) (unit0 : col0 ⬝ᵥ col0 = 1)
    (unit1 : col1 ⬝ᵥ col1 = 1) (normal0 : col0 ⬝ᵥ col2 = 0) (normal1 : col1 ⬝ᵥ col2 = 0) :
    let base := ofColumns col0 col1 col2
    let swap := base * coordChangeMat * base⁻¹
    swapᵀ * swap = 1 ∧ swap.det = -1 ∧ swap *ᵥ col0 = col1 := by
  intro base swap
  have unit : IsUnit base.det := isUnit_iff_ne_zero.mpr regular
  have swapped : base * coordChangeMat = ofColumns col1 col0 col2 :=
    ofColumns_mul_coordChangeMat col0 col1 col2
  refine ⟨?_, ?_, ?_⟩
  · have gram := transpose_mul_swapped unit0 unit1 normal0 normal1
    have shape : swap = ofColumns col1 col0 col2 * base⁻¹ := by rw [← swapped]
    calc swapᵀ * swap
        = (base⁻¹)ᵀ * ((ofColumns col1 col0 col2)ᵀ * ofColumns col1 col0 col2) * base⁻¹ := by
          rw [shape, transpose_mul]
          simp only [mul_assoc]
      _ = (base * base⁻¹)ᵀ * (base * base⁻¹) := by
          rw [gram, transpose_mul]
          simp only [base, mul_assoc]
      _ = 1 := by rw [mul_nonsing_inv base unit, transpose_one, one_mul]
  · rw [det_mul, det_mul, det_coordChangeMat, mul_assoc, mul_comm (-1 : ℝ), ← mul_assoc, ← det_mul,
      mul_nonsing_inv base unit, det_one, one_mul]
  · have back : base⁻¹ *ᵥ col0 = Pi.single 0 1 := by
      rw [← ofColumns_mulVec_single_zero col0 col1 col2, mulVec_mulVec, nonsing_inv_mul base unit,
        one_mulVec]
    rw [← mulVec_mulVec, back, swapped, ofColumns_mulVec_single_zero]

end Basis

/-! ### The function -/

section TwoVectors

variable {v1 v2 : Fin 3 → ℝ}

/-- Parallel vectors of different lengths have no axis. -/
theorem twovecToRot_parallel (differs : ¬ (v1 = v2 ∨ v1 = -v2))
    (parallel : crossProduct v1 v2 = 0) : twovecToRot v1 v2 = none := by
  rw [twovecToRot, if_neg differs, normalized?, if_pos parallel, Option.bind_none]

/-- Vectors that span a plane are swapped by a reflection. -/
theorem twovecToRot_reflects (independent : crossProduct v1 v2 ≠ 0) :
    ∃ R, twovecToRot v1 v2 = some R ∧ Rᵀ * R = 1 ∧ R.det = -1 ∧
      R *ᵥ direction v1 = direction v2 := by
  have nonzero1 : v1 ≠ 0 := fun zero => independent (by rw [zero, map_zero, LinearMap.zero_apply])
  have nonzero2 : v2 ≠ 0 := fun zero => independent (by rw [zero, map_zero])
  have differs : ¬ (v1 = v2 ∨ v1 = -v2) := by
    rintro (rfl | rfl)
    · exact independent (cross_self v1)
    · exact independent (by rw [map_neg, LinearMap.neg_apply, cross_self, neg_zero])
  have normal1 : direction v1 ⬝ᵥ direction (crossProduct v1 v2) = 0 := by
    simp only [direction, smul_dotProduct, dotProduct_smul, dot_self_cross, smul_zero]
  have normal2 : direction v2 ⬝ᵥ direction (crossProduct v1 v2) = 0 := by
    simp only [direction, smul_dotProduct, dotProduct_smul, dot_cross_self, smul_zero]
  have regular :
      (ofColumns (direction v1) (direction v2) (direction (crossProduct v1 v2))).det ≠ 0 := by
    have square : crossProduct v1 v2 ⬝ᵥ crossProduct v1 v2 ≠ 0 :=
      fun zero => independent (dotProduct_self_eq_zero.mp zero)
    rw [det_ofColumns]
    simp only [direction, map_smul, LinearMap.smul_apply, smul_dotProduct, dotProduct_smul,
      smul_eq_mul]
    have length1 := (length_pos nonzero1).ne'
    have length2 := (length_pos nonzero2).ne'
    have length3 := (length_pos independent).ne'
    positivity
  refine ⟨_, ?_, swap_spec regular (direction_dot_self nonzero1) (direction_dot_self nonzero2)
    normal1 normal2⟩
  have inverted := inverse?_of_ne regular
  rw [twovecToRot, if_neg differs, normalized?_of_ne independent, normalized?_of_ne nonzero1,
    normalized?_of_ne nonzero2, Option.bind_some, Option.bind_some, Option.bind_some]
  simp only [inverted, Option.map_some]

end TwoVectors

/-- The result is there and a rotation from one direction to the other exactly for two equal
vectors. -/
theorem twovecToRot_iff (v1 v2 : Fin 3 → ℝ) :
    (∃ R, twovecToRot v1 v2 = some R ∧ R ∈ specialOrthogonalGroup (Fin 3) ℝ ∧
      R *ᵥ direction v1 = direction v2) ↔ v1 = v2 := by
  constructor
  · rintro ⟨R, computed, rotation, maps⟩
    by_contra distinct
    by_cases opposite : v1 = -v2
    · have nonzero : v2 ≠ 0 := by
        rintro rfl
        exact distinct (by rw [opposite, neg_zero])
      rw [twovecToRot, if_pos (.inr opposite)] at computed
      obtain rfl := Option.some.inj computed
      rw [one_mulVec, opposite, direction_neg, neg_eq_self] at maps
      exact direction_ne_zero nonzero maps
    · by_cases parallel : crossProduct v1 v2 = 0
      · rw [twovecToRot_parallel (not_or.mpr ⟨distinct, opposite⟩) parallel] at computed
        cases computed
      · obtain ⟨R', computed', -, det, -⟩ := twovecToRot_reflects parallel
        obtain rfl := Option.some.inj (computed.symm.trans computed')
        have one := (mem_specialOrthogonalGroup_iff.mp rotation).2
        rw [det] at one
        norm_num at one
  · rintro rfl
    exact ⟨1, if_pos (.inl rfl), one_mem _, one_mulVec _⟩

/-- Two axes give a reflection, an axis and its opposite the identity, and an axis and its double
nothing. -/
theorem twovecToRot_axes :
    (∃ R, twovecToRot ![1, 0, 0] ![0, 1, 0] = some R ∧ R.det = -1) ∧
      twovecToRot ![1, 0, 0] ![-1, 0, 0] = some 1 ∧
      twovecToRot ![1, 0, 0] ![2, 0, 0] = none ∧
      ¬ ∃ R, twovecToRot ![1, 0, 0] ![0, 1, 0] = some R ∧
        R ∈ specialOrthogonalGroup (Fin 3) ℝ ∧
        R *ᵥ direction ![1, 0, 0] = direction ![0, 1, 0] := by
  have independent : crossProduct ![(1 : ℝ), 0, 0] ![0, 1, 0] ≠ 0 := by
    simp [cross_apply]
  obtain ⟨R, computed, -, det, -⟩ := twovecToRot_reflects independent
  refine ⟨⟨R, computed, det⟩, if_pos (.inr (by simp)), twovecToRot_parallel ?_ ?_, ?_⟩
  · rintro (same | opposite)
    · have first := congrFun same 0
      norm_num at first
    · have first := congrFun opposite 0
      norm_num at first
  · simp [cross_apply]
  · rintro ⟨R', computed', rotation, -⟩
    obtain rfl := Option.some.inj (computed.symm.trans computed')
    have one := (mem_specialOrthogonalGroup_iff.mp rotation).2
    rw [det] at one
    norm_num at one

end Dls2.Math
