import Dls2.Lib.PseudoInverse

/-!
# The decomposition of `computeQR`

`computeQR` takes an orthogonal matrix and what is left of the input from a singular value
decomposition, not from a triangularisation. The decomposition is a parameter, as for the
pseudo-inverses, and numbers are exact reals. What is undefined is `none`.
-/

namespace Dls2.Math

open Matrix PseudoInverse

/-- `Eigen::JacobiSVD` with full unitaries. -/
abbrev FullJacobiSVD : Type := ∀ (rows cols : ℕ) (A : Matrix (Fin rows) (Fin cols) ℝ), FullSVD A

/-- What `computeQR` writes. -/
structure QR (rows cols : ℕ) where
  Q : Matrix (Fin rows) (Fin rows) ℝ
  R : Matrix (Fin cols) (Fin cols) ℝ

section Definitions

variable (svd : FullJacobiSVD) {rows cols : ℕ}

/-- The segment of the singular values has the length of a row. A matrix with more columns than rows
has not that many: the segment is out of range, which is undefined where the library's assertion
is compiled out, as it is by default. -/
def computeQR (A : Matrix (Fin rows) (Fin cols) ℝ) : Option (QR rows cols) :=
  if segment : cols ≤ min rows cols then
    let S : Matrix (Fin cols) (Fin cols) ℝ :=
      diagonal fun i => (svd rows cols A).values (Fin.castLE segment i)
    some { Q := (svd rows cols A).U, R := S * (svd rows cols A).Vᵀ }
  else none

end Definitions

section Factors

variable {svd : FullJacobiSVD} {rows cols : ℕ} {A : Matrix (Fin rows) (Fin cols) ℝ}
  {qr : QR rows cols}

theorem computeQR_eq_none_iff : computeQR svd A = none ↔ rows < cols := by
  rw [computeQR, dite_eq_right_iff]
  constructor
  · intro refused
    by_contra tall
    exact Option.some_ne_none _ (refused (le_min (not_lt.mp tall) le_rfl))
  · intro wide segment
    exact absurd (segment.trans (min_le_left rows cols)) (not_le.mpr wide)

/-- The result in terms of the first singular vectors. -/
theorem computeQR_thin (tall : cols ≤ rows) (computed : computeQR svd A = some qr) :
    qr.Q = (svd rows cols A).U ∧
      qr.R = diagonal ((svd rows cols A).thin tall).values *
        ((svd rows cols A).thin tall).Vᵀ := by
  rw [computeQR, dif_pos (le_min tall le_rfl), Option.some_inj] at computed
  subst computed
  exact ⟨rfl, rfl⟩

theorem computeQR_orthogonal (computed : computeQR svd A = some qr) : qr.Qᵀ * qr.Q = 1 := by
  have tall : cols ≤ rows := by
    by_contra wide
    rw [computeQR_eq_none_iff.mpr (not_le.mp wide)] at computed
    cases computed
  rw [(computeQR_thin tall computed).1, (svd rows cols A).orthonormalU]

/-- Only the first columns of the orthogonal matrix take part in the product. -/
theorem computeQR_product (tall : cols ≤ rows) (computed : computeQR svd A = some qr) :
    A = qr.Q.submatrix id (Fin.castLE tall) * qr.R := by
  obtain ⟨orthogonal, rest⟩ := computeQR_thin tall computed
  rw [orthogonal, rest, ← Matrix.mul_assoc]
  exact ((svd rows cols A).thin tall).product

/-- The rows of the second factor are as long as the singular values, and orthogonal. -/
theorem computeQR_rows (tall : cols ≤ rows) (computed : computeQR svd A = some qr) :
    qr.R * qr.Rᵀ = diagonal (((svd rows cols A).thin tall).values ^ 2) := by
  rw [(computeQR_thin tall computed).2]
  exact ((svd rows cols A).thin tall).rows_orthogonal

theorem computeQR_square (tall : cols ≤ rows) (computed : computeQR svd A = some qr) :
    Aᵀ * A = qr.Rᵀ * qr.R := by
  have first := (svd rows cols A).orthonormal_first tall
  rw [← (computeQR_thin tall computed).1] at first
  calc Aᵀ * A
      = (qr.Q.submatrix id (Fin.castLE tall) * qr.R)ᵀ *
          (qr.Q.submatrix id (Fin.castLE tall) * qr.R) := by
        rw [← computeQR_product tall computed]
    _ = qr.Rᵀ * ((qr.Q.submatrix id (Fin.castLE tall))ᵀ *
          qr.Q.submatrix id (Fin.castLE tall)) * qr.R := by
        rw [transpose_mul]
        simp only [Matrix.mul_assoc]
    _ = qr.Rᵀ * qr.R := by rw [first, Matrix.mul_one]

theorem computeQR_isDiag (tall : cols ≤ rows) (independent : LinearIndependent ℝ A.col)
    (computed : computeQR svd A = some qr) (upper : qr.R.BlockTriangular id) : qr.R.IsDiag := by
  refine isDiag_of_orthogonal_rows upper (computeQR_rows tall computed) fun i => ?_
  exact pow_ne_zero 2 (((svd rows cols A).thin tall).values_ne_zero independent i)

theorem computeQR_orthogonal_columns (tall : cols ≤ rows) (computed : computeQR svd A = some qr)
    (diag : qr.R.IsDiag) : A.HasOrthogonalCols := by
  rw [← transpose_mul_self_isDiag_iff_hasOrthogonalCols, computeQR_square tall computed,
    ← diag.diagonal_diag, diagonal_transpose, diagonal_mul_diagonal]
  exact isDiag_diagonal _

/-- The result is undefined exactly for more columns than rows. Else the first factor is orthogonal,
and the input is the product of its first columns and the second factor. But the second factor is
not made to be triangular: where the columns of the input are independent, it is triangular only if
it is diagonal, and then the columns are orthogonal. -/
theorem computeQR_triangular_iff (svd : FullJacobiSVD) (A : Matrix (Fin rows) (Fin cols) ℝ) :
    (computeQR svd A = none ↔ rows < cols) ∧
    ∀ (tall : cols ≤ rows) (qr : QR rows cols), computeQR svd A = some qr →
      qr.Qᵀ * qr.Q = 1 ∧
      A = qr.Q.submatrix id (Fin.castLE tall) * qr.R ∧
      (LinearIndependent ℝ A.col → (qr.R.BlockTriangular id ↔ qr.R.IsDiag)) ∧
      (qr.R.IsDiag → A.HasOrthogonalCols) := by
  refine ⟨computeQR_eq_none_iff, fun tall qr computed => ⟨computeQR_orthogonal computed,
    computeQR_product tall computed, fun independent => ⟨?_, ?_⟩, ?_⟩⟩
  · exact computeQR_isDiag tall independent computed
  · intro diag i j below
    exact diag (ne_of_gt below)
  · exact computeQR_orthogonal_columns tall computed

/-- A decomposition of every matrix. -/
noncomputable def chosenFullSVD : FullJacobiSVD :=
  fun _ _ A => Classical.choice (nonempty_fullSVD A)

/-- This input is upper triangular itself, and the second factor is not. -/
theorem computeQR_shear : ∃ qr, computeQR chosenFullSVD !![1, 1; 0, 1] = some qr ∧
    ¬ qr.R.BlockTriangular id := by
  obtain ⟨refused, factors⟩ := computeQR_triangular_iff chosenFullSVD !![1, 1; 0, 1]
  obtain ⟨qr, computed⟩ := Option.ne_none_iff_exists'.mp fun none => by
    simpa using refused.mp none
  obtain ⟨-, -, triangular, orthogonal⟩ := factors le_rfl qr computed
  refine ⟨qr, computed, fun upper => ?_⟩
  have independent : LinearIndependent ℝ (!![1, 1; 0, 1] : Matrix (Fin 2) (Fin 2) ℝ).col :=
    linearIndependent_cols_of_det_ne_zero (by simp)
  have columns := orthogonal ((triangular independent).mp upper) (show (0 : Fin 2) ≠ 1 by decide)
  simp [dotProduct, Fin.sum_univ_two] at columns

end Factors

end Dls2.Math
