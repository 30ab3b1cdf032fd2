import Mathlib.Analysis.SpecialFunctions.Trigonometric.Deriv
import Mathlib.Topology.Algebra.Module.ModuleTopology
import Dls2.Lib.Rotation

/-!
# Rotations in time

A rotation that depends on time turns with the angular velocity `ω` if its entries have the
derivatives of `-[ω] R`. It maps to a frame that moves, and `ω` is in the coordinates of this frame.

When one turn follows another, the velocities add up in the coordinates of the last frame. A turn
about an axis goes along this axis, and a unit quaternion gives twice the vector part of `q* q'`.
-/

namespace Dls2.Rotation

open Matrix Quaternion

/-- The entries of a matrix have these derivatives. -/
def HasEntryDerivs {m n : Type*} (M : ℝ → Matrix m n ℝ) (M' : Matrix m n ℝ) (t : ℝ) : Prop :=
  ∀ i j, HasDerivAt (fun s => M s i j) (M' i j) t

/-- The matrix turns with an angular velocity. -/
def TurnsWith (R : ℝ → Matrix (Fin 3) (Fin 3) ℝ) (ω : Fin 3 → ℝ) (t : ℝ) : Prop :=
  HasEntryDerivs R (-(skew ω * R t)) t

/-- The parts of a quaternion have these derivatives. -/
structure HasPartDerivs (q : ℝ → ℍ[ℝ]) (q' : ℍ[ℝ]) (t : ℝ) : Prop where
  re : HasDerivAt (fun s => (q s).re) q'.re t
  imI : HasDerivAt (fun s => (q s).imI) q'.imI t
  imJ : HasDerivAt (fun s => (q s).imJ) q'.imJ t
  imK : HasDerivAt (fun s => (q s).imK) q'.imK t

section Products

variable {m n o : Type*} {M : ℝ → Matrix m n ℝ} {N : ℝ → Matrix n o ℝ} {M' : Matrix m n ℝ}
  {N' : Matrix n o ℝ} {t : ℝ}

theorem HasEntryDerivs.mul [Fintype n] (first : HasEntryDerivs M M' t)
    (second : HasEntryDerivs N N' t) :
    HasEntryDerivs (fun s => M s * N s) (M' * N t + M t * N') t := by
  intro i j
  simp only [Matrix.mul_apply, Matrix.add_apply]
  rw [← Finset.sum_add_distrib]
  exact HasDerivAt.fun_sum fun k _ => (first i k).mul (second k j)

end Products

section Skew

variable {R : Matrix (Fin 3) (Fin 3) ℝ} {ω η : Fin 3 → ℝ}

theorem skew_add (ω η : Fin 3 → ℝ) : skew (ω + η) = skew ω + skew η := by
  ext i j
  fin_cases i <;> fin_cases j <;> simp [skew] <;> ring

theorem skew_smul (r : ℝ) (ω : Fin 3 → ℝ) : skew (r • ω) = r • skew ω := by
  ext i j
  fin_cases i <;> fin_cases j <;> simp [skew]

theorem skew_transpose (ω : Fin 3 → ℝ) : (skew ω)ᵀ = -skew ω := by
  ext i j
  fin_cases i <;> fin_cases j <;> simp [skew]

theorem skew_mul_vecMulVec (ω η : Fin 3 → ℝ) : skew ω * vecMulVec ω η = 0 := by
  ext i j
  fin_cases i <;> fin_cases j <;>
    simp [skew, vecMulVec, Matrix.mul_apply, Fin.sum_univ_three] <;> ring

theorem skew_mul_skew (ω : Fin 3 → ℝ) : skew ω * skew ω = vecMulVec ω ω - (ω ⬝ᵥ ω) • 1 := by
  ext i j
  fin_cases i <;> fin_cases j <;>
    simp [skew, vecMulVec, Matrix.mul_apply, dotProduct, Fin.sum_univ_three] <;> ring

theorem skew_injective : Function.Injective (skew : (Fin 3 → ℝ) → _) := by
  intro ω η same
  ext i
  fin_cases i
  · exact congrFun₂ same 2 1
  · exact congrFun₂ same 0 2
  · exact congrFun₂ same 1 0

/-- A rotation takes the vector of a skew matrix with it. -/
theorem mul_skew (rotation : R ∈ specialOrthogonalGroup (Fin 3) ℝ) (v : Fin 3 → ℝ) :
    R * skew v = skew (R *ᵥ v) * R := by
  have cofactors : R = R.adjugateᵀ := by rw [← transpose_eq_adjugate rotation, transpose_transpose]
  calc R * skew v = R.adjugateᵀ * skew v := by rw [← cofactors]
    _ = skew (R *ᵥ v) * R := by
      ext i j
      fin_cases i <;> fin_cases j <;>
        simp [adjugate_fin_three, skew, mul_apply, mulVec, dotProduct, Fin.sum_univ_three] <;> ring

end Skew

section Turns

variable {R S : ℝ → Matrix (Fin 3) (Fin 3) ℝ} {ω η axis : Fin 3 → ℝ} {t : ℝ}

theorem TurnsWith.mul (first : TurnsWith R ω t) (second : TurnsWith S η t)
    (rotation : R t ∈ specialOrthogonalGroup (Fin 3) ℝ) :
    TurnsWith (fun s => R s * S s) (ω + R t *ᵥ η) t := by
  have sum : -(skew ω * R t) * S t + R t * -(skew η * S t) =
      -(skew (ω + R t *ᵥ η) * (R t * S t)) := by
    rw [skew_add, add_mul, ← mul_assoc (skew (R t *ᵥ η)), ← mul_skew rotation]
    simp only [neg_mul, mul_neg, mul_assoc, neg_add]
  have product : HasEntryDerivs (fun s => R s * S s) _ t := HasEntryDerivs.mul first second
  rwa [sum] at product

/-- A rotation turns with one angular velocity. -/
theorem TurnsWith.unique (first : TurnsWith R ω t) (second : TurnsWith R η t)
    (rotation : R t ∈ specialOrthogonalGroup (Fin 3) ℝ) : ω = η := by
  have same : skew ω * R t = skew η * R t := by
    ext i j
    simpa using (first i j).unique (second i j)
  obtain ⟨orthogonal, -⟩ := mem_specialOrthogonalGroup_iff.mp rotation
  have inverse := (mem_orthogonalGroup_iff (Fin 3) ℝ).mp orthogonal
  apply skew_injective
  calc skew ω = skew ω * R t * (R t)ᵀ := by rw [mul_assoc, inverse, mul_one]
    _ = skew η := by rw [same, mul_assoc, inverse, mul_one]

theorem skew_mul_axisAngle (unit : axis ⬝ᵥ axis = 1) (angle : ℝ) :
    skew axis * (axisAngle axis angle)ᵀ =
      Real.sin angle • (1 - vecMulVec axis axis) + Real.cos angle • skew axis := by
  simp only [axisAngle, transpose_add, transpose_smul, transpose_one, transpose_vecMulVec,
    skew_transpose, mul_add, mul_smul_comm, mul_one, mul_neg, skew_mul_vecMulVec, skew_mul_skew,
    unit,
    one_smul, smul_zero, add_zero]
  module

/-- A turn about an axis goes along the axis. -/
theorem turnsWith_axisAngle (unit : axis ⬝ᵥ axis = 1) {angle : ℝ → ℝ} {angle' : ℝ}
    (turns : HasDerivAt angle angle' t) :
    TurnsWith (fun s => (axisAngle axis (angle s))ᵀ) (angle' • axis) t := by
  intro i j
  have cosine := (turns.cos).mul_const ((1 : Matrix (Fin 3) (Fin 3) ℝ) j i)
  have versine := (turns.cos.const_sub 1).mul_const (vecMulVec axis axis j i)
  have sine := turns.sin.mul_const (skew axis j i)
  refine ((cosine.add versine).add sine).congr_deriv ?_
  have opposite : skew axis i j = -skew axis j i := congrFun₂ (skew_transpose axis) j i
  have symmetric : vecMulVec axis axis i j = vecMulVec axis axis j i := mul_comm _ _
  have diagonal : (1 : Matrix (Fin 3) (Fin 3) ℝ) i j = (1 : Matrix (Fin 3) (Fin 3) ℝ) j i :=
    congrFun₂ transpose_one.symm i j
  rw [skew_smul, smul_mul, skew_mul_axisAngle unit]
  simp only [Matrix.neg_apply, Matrix.smul_apply, Matrix.add_apply, Matrix.sub_apply, opposite,
    symmetric, diagonal, smul_eq_mul]
  ring

end Turns

section Quaternions

variable {t : ℝ}

theorem HasPartDerivs.mul {p q : ℝ → ℍ[ℝ]} {p' q' : ℍ[ℝ]} (first : HasPartDerivs p p' t)
    (second : HasPartDerivs q q' t) :
    HasPartDerivs (fun s => p s * q s) (p' * q t + p t * q') t where
  re := by
    simp only [re_mul]
    refine ((((first.re.mul second.re).sub (first.imI.mul second.imI)).sub
      (first.imJ.mul second.imJ)).sub (first.imK.mul second.imK)).congr_deriv ?_
    simp
    ring
  imI := by
    simp only [imI_mul]
    refine ((((first.re.mul second.imI).add (first.imI.mul second.re)).add
      (first.imJ.mul second.imK)).sub (first.imK.mul second.imJ)).congr_deriv ?_
    simp
    ring
  imJ := by
    simp only [imJ_mul]
    refine ((((first.re.mul second.imJ).sub (first.imI.mul second.imK)).add
      (first.imJ.mul second.re)).add (first.imK.mul second.imI)).congr_deriv ?_
    simp
    ring
  imK := by
    simp only [imK_mul]
    refine ((((first.re.mul second.imK).add (first.imI.mul second.imJ)).sub
      (first.imJ.mul second.imI)).add (first.imK.mul second.re)).congr_deriv ?_
    simp
    ring

theorem HasPartDerivs.conjugate {q : ℝ → ℍ[ℝ]} {q' : ℍ[ℝ]} (moves : HasPartDerivs q q' t) :
    HasPartDerivs (fun s => star (q s)) (star q') t where
  re := by simpa only [re_star] using moves.re
  imI := by simpa only [imI_star] using moves.imI.fun_neg
  imJ := by simpa only [imJ_star] using moves.imJ.fun_neg
  imK := by simpa only [imK_star] using moves.imK.fun_neg

theorem hasPartDerivs_const (q : ℍ[ℝ]) : HasPartDerivs (fun _ => q) 0 t :=
  ⟨hasDerivAt_const .., hasDerivAt_const .., hasDerivAt_const .., hasDerivAt_const ..⟩

variable {q : ℝ → ℍ[ℝ]} {q' : ℍ[ℝ]}

/-- A quaternion that keeps its length moves across itself. -/
theorem HasPartDerivs.re_eq_zero (moves : HasPartDerivs q q' t) (unit : ∀ s, normSq (q s) = 1) :
    (star (q t) * q').re = 0 := by
  have constant : HasDerivAt (fun s => (star (q s) * q s).re) 0 t := by
    have same : (fun s => (star (q s) * q s).re) = fun _ => 1 := by
      funext s
      rw [star_mul_self, unit s]
      rfl
    rw [same]
    exact hasDerivAt_const ..
  have product := (moves.conjugate.mul moves).re.unique constant
  have conjugate : (star q' * q t).re = (star (q t) * q').re := by
    simp
    ring
  rw [re_add, conjugate] at product
  linarith

/-- Twice the vector part of `q* q'`. -/
noncomputable def velocity (q q' : ℍ[ℝ]) : Fin 3 → ℝ :=
  ![2 * (star q * q').imI, 2 * (star q * q').imJ, 2 * (star q * q').imK]

/-- Products with a vector, before and after, make up a vector product. -/
theorem mul_ofParts (u : ℍ[ℝ]) (v : Fin 3 → ℝ) : u * ofParts 0 v =
    ofParts 0 (skew ![2 * u.imI, 2 * u.imJ, 2 * u.imK] *ᵥ v) + ofParts 0 v * u := by
  ext <;> simp [skew, dotProduct, Fin.sum_univ_three] <;> ring

/-- The derivative of `q v q*`. -/
theorem deriv_action {q q' : ℍ[ℝ]} (unit : normSq q = 1) (still : (star q * q').re = 0)
    (v : Fin 3 → ℝ) :
    q' * ofParts 0 v * star q + q * ofParts 0 v * star q' =
      ofParts 0 (ofQuaternion q *ᵥ (skew (velocity q q') *ᵥ v)) := by
  rw [ofParts_mulVec, velocity]
  generalize relative : star q * q' = u at still ⊢
  have split : q' = q * u := by rw [← relative, ← mul_assoc, self_mul_star, unit, coe_one, one_mul]
  have cancel : u + star u = 0 := by ext <;> simp [still]
  rw [split, star_mul]
  calc q * u * ofParts 0 v * star q + q * ofParts 0 v * (star u * star q)
      = q * (u * ofParts 0 v) * star q + q * (ofParts 0 v * star u) * star q := by
        simp only [mul_assoc]
    _ = q * ofParts 0 (skew ![2 * u.imI, 2 * u.imJ, 2 * u.imK] *ᵥ v) * star q +
        q * (ofParts 0 v * (u + star u)) * star q := by
      rw [mul_ofParts]
      simp only [mul_add, add_mul, add_assoc]
    _ = _ := by rw [cancel, mul_zero, mul_zero, zero_mul, add_zero]

/-- Unit quaternions turn with twice the vector part of `q* q'`. -/
theorem turnsWith_ofQuaternion (moves : HasPartDerivs q q' t) (unit : ∀ s, normSq (q s) = 1) :
    TurnsWith (fun s => (ofQuaternion (q s))ᵀ) (velocity (q t) q') t := by
  have action (v : Fin 3 → ℝ) : HasPartDerivs (fun s => ofParts 0 (ofQuaternion (q s) *ᵥ v))
      (ofParts 0 (ofQuaternion (q t) *ᵥ (skew (velocity (q t) q') *ᵥ v))) t := by
    have product := (moves.mul (hasPartDerivs_const (ofParts 0 v))).mul moves.conjugate
    rw [mul_zero, add_zero, deriv_action (unit t) (moves.re_eq_zero unit)] at product
    simpa only [ofParts_mulVec] using product
  have columns : HasEntryDerivs (fun s => ofQuaternion (q s))
      (ofQuaternion (q t) * skew (velocity (q t) q')) t := by
    intro i j
    have column := action (Pi.single j 1)
    simp only [mulVec_single_one] at column
    fin_cases i
    · exact column.imI
    · exact column.imJ
    · exact column.imK
  have turned : -(skew (velocity (q t) q') * (ofQuaternion (q t))ᵀ) =
      (ofQuaternion (q t) * skew (velocity (q t) q'))ᵀ := by
    rw [transpose_mul, skew_transpose, neg_mul]
  intro i j
  rw [turned]
  exact columns j i

end Quaternions

end Dls2.Rotation
