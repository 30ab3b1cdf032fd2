import Dls2.Lib.PseudoInverse

/-!
# Pseudo-inverses

`psdInv` turns a singular value decomposition around and drops the singular values up to a
tolerance. `psdInvW` weighs with a matrix: for a wide matrix the entries of the solution, and for a
tall one those of the residual.

The decomposition is the one of a library, of which the code uses that it is one. Numbers are exact
here.
-/

namespace Dls2.Math

open Matrix PseudoInverse

/-- `Eigen::JacobiSVD` with thin unitaries. -/
abbrev JacobiSVD : Type := ∀ (rows cols : ℕ) (a : Matrix (Fin rows) (Fin cols) ℝ),
  ThinSVD (Fin (min rows cols)) a

/-- With a negative tolerance, singular values that are zero would be inverted. -/
abbrev Tolerance : Type := {tolerance : ℝ // 0 ≤ tolerance}

noncomputable section

variable (svd : JacobiSVD) {rows cols : ℕ}

def psdInv (a : Matrix (Fin rows) (Fin cols) ℝ) (tolerance : Tolerance) :
    Matrix (Fin cols) (Fin rows) ℝ :=
  let singularValuesVector (i : Fin (min rows cols)) : ℝ :=
    if (svd rows cols a).values i > tolerance then ((svd rows cols a).values i)⁻¹ else 0
  (svd rows cols a).V * diagonal singularValuesVector * (svd rows cols a).Uᵀ

/-- `Eigen::NumTraits<double>::epsilon()`. -/
def epsilon : ℝ := 1 / 2 ^ 52

/-- The tolerance where none is given. -/
def defaultTolerance (a : Matrix (Fin rows) (Fin cols) ℝ) : Tolerance :=
  ⟨epsilon * max cols rows * ⨆ i, |(svd rows cols a).values i|, by
    have largest : 0 ≤ ⨆ i, |(svd rows cols a).values i| := Real.iSup_nonneg fun i => abs_nonneg _
    unfold epsilon
    positivity⟩

/-- `psdInv` without a tolerance. -/
def psdInvDefault (a : Matrix (Fin rows) (Fin cols) ℝ) : Matrix (Fin cols) (Fin rows) ℝ :=
  psdInv svd a (defaultTolerance svd a)

/-- The weights may have the wrong size; then the result is not weighted. -/
def psdInvW {p q : ℕ} (a : Matrix (Fin rows) (Fin cols) ℝ) (W : Matrix (Fin p) (Fin q) ℝ)
    (tolerance : Tolerance) : Matrix (Fin cols) (Fin rows) ℝ :=
  if square : p ≠ q then psdInv svd a tolerance
  else if cols ≥ rows then
    if size : p ≠ cols then psdInv svd a tolerance
    else
      let W : Matrix (Fin cols) (Fin cols) ℝ := W.submatrix (Fin.cast (not_not.mp size).symm)
        (Fin.cast ((not_not.mp size).symm.trans (not_not.mp square)))
      W⁻¹ * aᵀ * psdInv svd (a * W⁻¹ * aᵀ) tolerance
  else
    if size : p ≠ rows then psdInv svd a tolerance
    else
      let W : Matrix (Fin rows) (Fin rows) ℝ := W.submatrix (Fin.cast (not_not.mp size).symm)
        (Fin.cast ((not_not.mp size).symm.trans (not_not.mp square)))
      psdInv svd (aᵀ * W⁻¹ * a) tolerance * aᵀ * W⁻¹

end

section Inverses

variable {svd : JacobiSVD} {rows cols : ℕ} {a : Matrix (Fin rows) (Fin cols) ℝ}
  {tolerance : Tolerance}

/-- The pseudo-inverse inverts the singular values that are not zero. -/
theorem isPseudoInverse_psdInv_iff : IsPseudoInverse a (psdInv svd a tolerance) ↔
    ∀ i, (svd rows cols a).values i = 0 ∨ tolerance < (svd rows cols a).values i := by
  refine (ThinSVD.isPseudoInverse_reverse_iff (svd rows cols a) _).trans ?_
  rw [funext_iff]
  refine forall_congr' fun i => ?_
  rw [Pi.inv_apply]
  split_ifs with above
  · exact iff_of_true rfl (.inr above)
  · rw [or_iff_left above, eq_comm, inv_eq_zero]

/-- The result is the pseudo-inverse exactly if no singular value is dropped that is not zero, with
a tolerance that is given and with the one that goes by the size of the matrix. -/
theorem psdInv_iff (svd : JacobiSVD) (a : Matrix (Fin rows) (Fin cols) ℝ) (tolerance : Tolerance) :
    (IsPseudoInverse a (psdInv svd a tolerance) ↔
      ∀ i, (svd rows cols a).values i = 0 ∨ tolerance < (svd rows cols a).values i) ∧
    (IsPseudoInverse a (psdInvDefault svd a) ↔
      ∀ i, (svd rows cols a).values i = 0 ∨
        epsilon * max cols rows * ⨆ j, |(svd rows cols a).values j| <
          (svd rows cols a).values i) :=
  ⟨isPseudoInverse_psdInv_iff, isPseudoInverse_psdInv_iff⟩

end Inverses

/-! ### Weights -/

section Weights

variable {svd : JacobiSVD} {size : ℕ} {M : Matrix (Fin size) (Fin size) ℝ} {tolerance : Tolerance}

/-- Of a square matrix the result is the inverse exactly if no singular value is dropped. -/
theorem mul_psdInv_eq_one_iff :
    M * psdInv svd M tolerance = 1 ↔ ∀ i, tolerance < (svd size size M).values i := by
  refine (ThinSVD.mul_reverse_eq_one_iff (svd size size M) _ (finCongr (min_self size))).trans ?_
  refine forall_congr' fun i => ?_
  split_ifs with above
  · exact iff_of_true (mul_inv_cancel₀ (tolerance.2.trans_lt above).ne') above
  · rw [mul_zero]
    exact iff_of_false zero_ne_one above

end Weights

section Weighted

variable {svd : JacobiSVD} {rows cols : ℕ} {a : Matrix (Fin rows) (Fin cols) ℝ}
  {tolerance : Tolerance}

theorem psdInvW_wide (wide : rows ≤ cols) (W : Matrix (Fin cols) (Fin cols) ℝ) :
    psdInvW svd a W tolerance = W⁻¹ * aᵀ * psdInv svd (a * W⁻¹ * aᵀ) tolerance := by
  rw [psdInvW, dif_neg (by simp), if_pos wide, dif_neg (by simp)]
  rfl

theorem psdInvW_tall (tall : cols < rows) (W : Matrix (Fin rows) (Fin rows) ℝ) :
    psdInvW svd a W tolerance = psdInv svd (aᵀ * W⁻¹ * a) tolerance * aᵀ * W⁻¹ := by
  rw [psdInvW, dif_neg (by simp), if_neg (not_le.mpr tall), dif_neg (by simp)]
  rfl

/-- For a wide matrix the result inverts it from the right exactly if no singular value of the
weighted square is dropped, and then it gives the solution with the least weight. -/
theorem psdInvW_wide_iff (wide : rows ≤ cols) {W : Matrix (Fin cols) (Fin cols) ℝ}
    (positive : W.PosDef) :
    (a * psdInvW svd a W tolerance = 1 ↔
      ∀ i, tolerance < (svd rows rows (a * W⁻¹ * aᵀ)).values i) ∧
    (a * psdInvW svd a W tolerance = 1 → ∀ x,
      (psdInvW svd a W tolerance *ᵥ a *ᵥ x) ⬝ᵥ W *ᵥ psdInvW svd a W tolerance *ᵥ a *ᵥ x ≤
        x ⬝ᵥ W *ᵥ x) := by
  rw [psdInvW_wide wide, ← mul_psdInv_eq_one_iff]
  generalize psdInv svd (a * W⁻¹ * aᵀ) tolerance = Y
  refine ⟨by simp only [Matrix.mul_assoc], fun inverse x => ?_⟩
  have weights : W * W⁻¹ = 1 :=
    mul_nonsing_inv W ((isUnit_iff_isUnit_det W).mp positive.isUnit)
  have difference : a *ᵥ (x - (W⁻¹ * aᵀ * Y) *ᵥ a *ᵥ x) = 0 := by
    rw [mulVec_sub, mulVec_mulVec, inverse, one_mulVec, sub_self]
  have weighted (b : Fin rows → ℝ) : W *ᵥ (W⁻¹ * aᵀ * Y) *ᵥ b = aᵀ *ᵥ Y *ᵥ b := by
    rw [mulVec_mulVec, mulVec_mulVec, ← Matrix.mul_assoc, ← Matrix.mul_assoc, weights,
      Matrix.one_mul]
  have orthogonal : (x - (W⁻¹ * aᵀ * Y) *ᵥ a *ᵥ x) ⬝ᵥ W *ᵥ (W⁻¹ * aᵀ * Y) *ᵥ a *ᵥ x = 0 := by
    rw [weighted, dotProduct_mulVec, vecMul_transpose, difference, zero_dotProduct]
  have least := le_of_orthogonal positive.posSemidef orthogonal
  rwa [add_sub_cancel] at least

/-- A decomposition of every matrix. -/
noncomputable def chosenSVD : JacobiSVD := fun _ _ a => Classical.choice (nonempty_thinSVD a)

/-- Weights of 1 and 2. -/
theorem posDef_oneTwo : (diagonal ![(1 : ℝ), 2]).PosDef := by
  refine PosDef.diagonal fun i => ?_
  fin_cases i <;> simp

theorem psdInvW_wide_iff_row :
    let a : Matrix (Fin 1) (Fin 2) ℝ := !![1, 1]
    let W : Matrix (Fin 2) (Fin 2) ℝ := diagonal ![1, 2]
    let tolerance : Tolerance := ⟨0, le_rfl⟩
    (a * psdInvW chosenSVD a W tolerance = 1 ↔
      ∀ i, (tolerance : ℝ) < (chosenSVD 1 1 (a * W⁻¹ * aᵀ)).values i) ∧
    (a * psdInvW chosenSVD a W tolerance = 1 → ∀ x,
      (psdInvW chosenSVD a W tolerance *ᵥ a *ᵥ x) ⬝ᵥ
          W *ᵥ psdInvW chosenSVD a W tolerance *ᵥ a *ᵥ x ≤ x ⬝ᵥ W *ᵥ x) :=
  psdInvW_wide_iff (by decide) posDef_oneTwo

/-- For a tall matrix the result inverts it from the left exactly if no singular value of the
weighted square is dropped, and then it gives the least weighted residual. -/
theorem psdInvW_tall_iff (tall : cols < rows) {W : Matrix (Fin rows) (Fin rows) ℝ}
    (positive : W.PosDef) :
    (psdInvW svd a W tolerance * a = 1 ↔
      ∀ i, tolerance < (svd cols cols (aᵀ * W⁻¹ * a)).values i) ∧
    (psdInvW svd a W tolerance * a = 1 → ∀ b x,
      (a *ᵥ psdInvW svd a W tolerance *ᵥ b - b) ⬝ᵥ
          W⁻¹ *ᵥ (a *ᵥ psdInvW svd a W tolerance *ᵥ b - b) ≤
        (a *ᵥ x - b) ⬝ᵥ W⁻¹ *ᵥ (a *ᵥ x - b)) := by
  rw [psdInvW_tall tall, ← mul_psdInv_eq_one_iff]
  generalize psdInv svd (aᵀ * W⁻¹ * a) tolerance = Y
  have sides : Y * aᵀ * W⁻¹ * a = 1 ↔ aᵀ * W⁻¹ * a * Y = 1 := by
    rw [mul_eq_one_comm, ← Matrix.mul_assoc, ← Matrix.mul_assoc]
  refine ⟨sides, fun inverse b x => ?_⟩
  have solved : aᵀ *ᵥ W⁻¹ *ᵥ a *ᵥ (Y * aᵀ * W⁻¹) *ᵥ b = aᵀ *ᵥ W⁻¹ *ᵥ b := by
    have product : aᵀ * W⁻¹ * a * (Y * aᵀ * W⁻¹) = aᵀ * W⁻¹ := by
      calc aᵀ * W⁻¹ * a * (Y * aᵀ * W⁻¹)
          = aᵀ * W⁻¹ * a * Y * (aᵀ * W⁻¹) := by simp only [Matrix.mul_assoc]
        _ = aᵀ * W⁻¹ := by rw [sides.mp inverse, Matrix.one_mul]
    rw [mulVec_mulVec, mulVec_mulVec, mulVec_mulVec, product, mulVec_mulVec]
  generalize (Y * aᵀ * W⁻¹) *ᵥ b = best at solved ⊢
  have normal : aᵀ *ᵥ W⁻¹ *ᵥ (a *ᵥ best - b) = 0 := by
    rw [mulVec_sub, mulVec_sub, solved, sub_self]
  have orthogonal : a *ᵥ (x - best) ⬝ᵥ W⁻¹ *ᵥ (a *ᵥ best - b) = 0 := by
    rw [← vecMul_transpose, ← dotProduct_mulVec, normal, dotProduct_zero]
  have least := le_of_orthogonal positive.inv.posSemidef orthogonal
  have total : a *ᵥ best - b + a *ᵥ (x - best) = a *ᵥ x - b := by
    rw [mulVec_sub]
    abel
  rwa [total] at least

theorem psdInvW_tall_iff_column :
    let a : Matrix (Fin 2) (Fin 1) ℝ := !![1; 1]
    let W : Matrix (Fin 2) (Fin 2) ℝ := diagonal ![1, 2]
    let tolerance : Tolerance := ⟨0, le_rfl⟩
    (psdInvW chosenSVD a W tolerance * a = 1 ↔
      ∀ i, (tolerance : ℝ) < (chosenSVD 1 1 (aᵀ * W⁻¹ * a)).values i) ∧
    (psdInvW chosenSVD a W tolerance * a = 1 → ∀ b x,
      (a *ᵥ psdInvW chosenSVD a W tolerance *ᵥ b - b) ⬝ᵥ
          W⁻¹ *ᵥ (a *ᵥ psdInvW chosenSVD a W tolerance *ᵥ b - b) ≤
        (a *ᵥ x - b) ⬝ᵥ W⁻¹ *ᵥ (a *ᵥ x - b)) :=
  psdInvW_tall_iff (by decide) posDef_oneTwo

end Weighted

end Dls2.Math
