import Mathlib.Algebra.Order.Star.Real
import Mathlib.Analysis.Matrix.PosDef
import Mathlib.Analysis.Matrix.Spectrum
import Mathlib.LinearAlgebra.Matrix.Block
import Mathlib.LinearAlgebra.Matrix.IsDiag
import Mathlib.LinearAlgebra.Matrix.PosDef

/-!
# Pseudo-inverses of matrices

The four equations of Moore and Penrose have one solution. Over the reals it is read off a singular
value decomposition: turn the two sets of singular vectors around and invert the singular values
that are not zero. Every real matrix has such a decomposition: diagonalise `Aᵀ A`, scale the images
of the eigenvectors to length one, and fill up where they vanish.
-/

namespace Dls2.PseudoInverse

open Matrix

section Equations

variable {m n K : Type*} [Fintype m] [Fintype n] [CommRing K]

structure IsPseudoInverse (A : Matrix m n K) (X : Matrix n m K) : Prop where
  outer : A * X * A = A
  inner : X * A * X = X
  left : (A * X)ᵀ = A * X
  right : (X * A)ᵀ = X * A

variable {A : Matrix m n K} {X Y : Matrix n m K}

/-- Two pseudo-inverses agree with what is between them. -/
theorem IsPseudoInverse.eq_between (first : IsPseudoInverse A X) (second : IsPseudoInverse A Y) :
    X = X * A * Y := by
  have turn : A * X = A * X * (A * Y) := by
    calc A * X = (A * X)ᵀ := first.left.symm
      _ = ((A * Y * A) * X)ᵀ := by rw [second.outer]
      _ = (A * X)ᵀ * (A * Y)ᵀ := by rw [← transpose_mul, ← Matrix.mul_assoc (A * Y)]
      _ = A * X * (A * Y) := by rw [first.left, second.left]
  calc X = X * (A * X) := by rw [← Matrix.mul_assoc, first.inner]
    _ = X * (A * X * (A * Y)) := by rw [← turn]
    _ = X * A * X * A * Y := by simp only [Matrix.mul_assoc]
    _ = X * A * Y := by rw [first.inner]

theorem IsPseudoInverse.transpose (pseudo : IsPseudoInverse A X) : IsPseudoInverse Aᵀ Xᵀ where
  outer := by rw [← transpose_mul, ← transpose_mul, ← Matrix.mul_assoc, pseudo.outer]
  inner := by rw [← transpose_mul, ← transpose_mul, ← Matrix.mul_assoc, pseudo.inner]
  left := by rw [← transpose_mul, pseudo.right, pseudo.right]
  right := by rw [← transpose_mul, pseudo.left, pseudo.left]

/-- There is at most one pseudo-inverse. -/
theorem IsPseudoInverse.unique (first : IsPseudoInverse A X) (second : IsPseudoInverse A Y) :
    X = Y := by
  have other := second.transpose.eq_between first.transpose
  rw [← transpose_mul, ← transpose_mul, transpose_inj, ← Matrix.mul_assoc] at other
  rw [first.eq_between second, ← other]

end Equations

section Decomposition

variable {m n k : Type*} [Fintype m] [Fintype n] [Fintype k] [DecidableEq k]

/-- Orthonormal columns cancel. -/
theorem mul_of_orthonormal {p q r : Type*} [Fintype q] {W : Matrix q k ℝ} (orthonormal : Wᵀ * W = 1)
    (X : Matrix p k ℝ) (Y : Matrix k r ℝ) (a b : k → ℝ) :
    X * diagonal a * Wᵀ * (W * diagonal b * Y) = X * diagonal (a * b) * Y := by
  calc X * diagonal a * Wᵀ * (W * diagonal b * Y)
      = X * diagonal a * (Wᵀ * W) * diagonal b * Y := by simp only [Matrix.mul_assoc]
    _ = X * (diagonal a * diagonal b) * Y := by
        rw [orthonormal, Matrix.mul_one, Matrix.mul_assoc X]
    _ = X * diagonal (a * b) * Y := by
        rw [diagonal_mul_diagonal]
        rfl

theorem symmetric {p : Type*} (W : Matrix p k ℝ) (a : k → ℝ) :
    (W * diagonal a * Wᵀ)ᵀ = W * diagonal a * Wᵀ := by
  rw [transpose_mul, transpose_mul, transpose_transpose, diagonal_transpose, Matrix.mul_assoc]

/-- A singular value decomposition with as many singular vectors as there are singular values. -/
structure ThinSVD (k : Type*) [Fintype k] [DecidableEq k] (A : Matrix m n ℝ) where
  U : Matrix m k ℝ
  V : Matrix n k ℝ
  values : k → ℝ
  nonneg : ∀ i, 0 ≤ values i
  orthonormalU : Uᵀ * U = 1
  orthonormalV : Vᵀ * V = 1
  product : A = U * diagonal values * Vᵀ

namespace ThinSVD

variable {A : Matrix m n ℝ}

/-- The singular vectors the other way round, with other values. -/
def reverse (svd : ThinSVD k A) (values : k → ℝ) : Matrix n m ℝ :=
  svd.V * diagonal values * svd.Uᵀ

def transpose (svd : ThinSVD k A) : ThinSVD k Aᵀ where
  U := svd.V
  V := svd.U
  values := svd.values
  nonneg := svd.nonneg
  orthonormalU := svd.orthonormalV
  orthonormalV := svd.orthonormalU
  product := by
    have product := congrArg Matrix.transpose svd.product
    rwa [transpose_mul, transpose_mul, transpose_transpose, diagonal_transpose,
      ← Matrix.mul_assoc] at product

variable (svd : ThinSVD k A) (values : k → ℝ)

theorem mul_reverse :
    A * svd.reverse values = svd.U * diagonal (svd.values * values) * svd.Uᵀ := by
  calc A * svd.reverse values
      = svd.U * diagonal svd.values * svd.Vᵀ * svd.reverse values :=
        congrArg (· * svd.reverse values) svd.product
    _ = svd.U * diagonal (svd.values * values) * svd.Uᵀ :=
        mul_of_orthonormal svd.orthonormalV svd.U svd.Uᵀ svd.values values

theorem reverse_mul :
    svd.reverse values * A = svd.V * diagonal (values * svd.values) * svd.Vᵀ := by
  calc svd.reverse values * A
      = svd.reverse values * (svd.U * diagonal svd.values * svd.Vᵀ) :=
        congrArg (svd.reverse values * ·) svd.product
    _ = svd.V * diagonal (values * svd.values) * svd.Vᵀ :=
        mul_of_orthonormal svd.orthonormalU svd.V svd.Vᵀ values svd.values

/-- Different values give different matrices. -/
theorem reverse_injective : Function.Injective svd.reverse := by
  intro values values' same
  have between (values : k → ℝ) : svd.Vᵀ * svd.reverse values * svd.U = diagonal values := by
    rw [reverse]
    calc svd.Vᵀ * (svd.V * diagonal values * svd.Uᵀ) * svd.U
        = (svd.Vᵀ * svd.V) * diagonal values * (svd.Uᵀ * svd.U) := by simp only [Matrix.mul_assoc]
      _ = diagonal values := by
        rw [svd.orthonormalU, svd.orthonormalV, Matrix.one_mul, Matrix.mul_one]
  exact diagonal_injective (by rw [← between values, same, between values'])

theorem inv_cancel : svd.values * svd.values⁻¹ * svd.values = svd.values := by
  funext i
  simp

theorem isPseudoInverse_reverse_inv : IsPseudoInverse A (svd.reverse svd.values⁻¹) where
  outer := by
    calc A * svd.reverse svd.values⁻¹ * A
        = svd.U * diagonal (svd.values * svd.values⁻¹) * svd.Uᵀ *
            (svd.U * diagonal svd.values * svd.Vᵀ) := by
          rw [mul_reverse]
          exact congrArg (_ * ·) svd.product
      _ = svd.U * diagonal svd.values * svd.Vᵀ := by
          rw [mul_of_orthonormal svd.orthonormalU, inv_cancel]
      _ = A := svd.product.symm
  inner := by
    have values : svd.values⁻¹ * svd.values * svd.values⁻¹ = svd.values⁻¹ := by
      funext i
      by_cases zero : svd.values i = 0
      · simp [zero]
      · simp [inv_mul_cancel₀ zero]
    rw [reverse_mul, reverse, mul_of_orthonormal svd.orthonormalV, values]
  left := by rw [mul_reverse, symmetric]
  right := by rw [reverse_mul, symmetric]

/-- With as many singular vectors as rows, an inverse from the right has inverses of all singular
values. -/
theorem mul_reverse_eq_one_iff [DecidableEq m] (rows : k ≃ m) :
    A * svd.reverse values = 1 ↔ ∀ i, svd.values i * values i = 1 := by
  have orthonormal : svd.U * svd.Uᵀ = 1 := (mul_eq_one_comm_of_equiv rows).mp svd.orthonormalU
  have ones : svd.values * values = 1 ↔ ∀ i, svd.values i * values i = 1 := funext_iff
  rw [mul_reverse, ← ones]
  constructor
  · intro whole
    have inside : svd.Uᵀ * (svd.U * diagonal (svd.values * values) * svd.Uᵀ) * svd.U =
        diagonal (svd.values * values) := by
      calc svd.Uᵀ * (svd.U * diagonal (svd.values * values) * svd.Uᵀ) * svd.U
          = (svd.Uᵀ * svd.U) * diagonal (svd.values * values) * (svd.Uᵀ * svd.U) := by
            simp only [Matrix.mul_assoc]
        _ = diagonal (svd.values * values) := by
            rw [svd.orthonormalU, Matrix.one_mul, Matrix.mul_one]
    rw [whole, Matrix.mul_one, svd.orthonormalU] at inside
    exact diagonal_injective (inside.symm.trans diagonal_one.symm)
  · intro whole
    rw [whole, show diagonal (1 : k → ℝ) = 1 from diagonal_one, Matrix.mul_one, orthonormal]

/-- The singular vectors on one side alone have orthogonal rows. -/
theorem rows_orthogonal :
    diagonal svd.values * svd.Vᵀ * (diagonal svd.values * svd.Vᵀ)ᵀ = diagonal (svd.values ^ 2) := by
  calc diagonal svd.values * svd.Vᵀ * (diagonal svd.values * svd.Vᵀ)ᵀ
      = (1 : Matrix k k ℝ) * diagonal svd.values * svd.Vᵀ *
          (svd.V * diagonal svd.values * (1 : Matrix k k ℝ)) := by
        rw [transpose_mul, transpose_transpose, diagonal_transpose, Matrix.one_mul, Matrix.mul_one]
    _ = diagonal (svd.values ^ 2) := by
        rw [mul_of_orthonormal svd.orthonormalV, Matrix.one_mul, Matrix.mul_one, sq]

/-- Independent columns have no singular value that is zero. -/
theorem values_ne_zero (independent : LinearIndependent ℝ A.col) (i : k) : svd.values i ≠ 0 := by
  intro zero
  have images : A * svd.V = svd.U * diagonal svd.values := by
    calc A * svd.V = svd.U * diagonal svd.values * svd.Vᵀ * svd.V :=
          congrArg (· * svd.V) svd.product
      _ = svd.U * diagonal svd.values := by
          rw [Matrix.mul_assoc, svd.orthonormalV, Matrix.mul_one]
  have image : A *ᵥ svd.V.col i = A *ᵥ 0 := by
    rw [mulVec_zero]
    funext j
    have entry := congrFun₂ images j i
    rwa [mul_diagonal, zero, mul_zero] at entry
  have none := mulVec_injective_iff.mpr independent image
  have unit := congrFun₂ svd.orthonormalV i i
  rw [Matrix.mul_apply, one_apply_eq] at unit
  refine zero_ne_one (unit.symm.trans (Finset.sum_eq_zero fun j _ => ?_)).symm
  rw [show svd.V j i = 0 from congrFun none j, mul_zero]

/-- The pseudo-inverse has the inverses of the singular values, where zero counts as its own. -/
theorem isPseudoInverse_reverse_iff :
    IsPseudoInverse A (svd.reverse values) ↔ values = svd.values⁻¹ := by
  constructor
  · intro pseudo
    exact svd.reverse_injective (pseudo.unique svd.isPseudoInverse_reverse_inv)
  · rintro rfl
    exact svd.isPseudoInverse_reverse_inv

end ThinSVD

/-- A matrix with values on its diagonal. -/
def rectangular {rows cols : ℕ} (values : Fin (min rows cols) → ℝ) :
    Matrix (Fin rows) (Fin cols) ℝ :=
  of fun i j => if same : i.val = j.val then values ⟨i, lt_min i.2 (same ▸ j.2)⟩ else 0

theorem transpose_rectangular {rows cols : ℕ} (values : Fin (min rows cols) → ℝ) :
    (rectangular values)ᵀ = rectangular (values ∘ Fin.cast (min_comm cols rows)) := by
  ext i j
  by_cases same : i.val = j.val
  · simp [rectangular, same]
  · simp [rectangular, same, Ne.symm same]

/-- A tall matrix of values picks the first columns. -/
theorem mul_rectangular {rows cols : ℕ} (tall : cols ≤ rows) (U : Matrix (Fin rows) (Fin rows) ℝ)
    (values : Fin (min rows cols) → ℝ) :
    U * rectangular values = U.submatrix id (Fin.castLE tall) *
      diagonal (values ∘ Fin.cast (min_eq_right tall).symm) := by
  ext i j
  rw [mul_diagonal, Matrix.mul_apply, Finset.sum_eq_single (Fin.castLE tall j)]
  · rw [rectangular, of_apply, dif_pos (Fin.val_castLE tall j)]
    rfl
  · intro k _ other
    have other : k.val ≠ j.val := fun same => other (Fin.ext same)
    simp [rectangular, other]
  · simp

/-- A singular value decomposition with square matrices of singular vectors. -/
structure FullSVD {rows cols : ℕ} (A : Matrix (Fin rows) (Fin cols) ℝ) where
  U : Matrix (Fin rows) (Fin rows) ℝ
  V : Matrix (Fin cols) (Fin cols) ℝ
  values : Fin (min rows cols) → ℝ
  nonneg : ∀ i, 0 ≤ values i
  orthonormalU : Uᵀ * U = 1
  orthonormalV : Vᵀ * V = 1
  product : A = U * rectangular values * Vᵀ

namespace FullSVD

variable {rows cols : ℕ} {A : Matrix (Fin rows) (Fin cols) ℝ}

def transpose (svd : FullSVD A) : FullSVD Aᵀ where
  U := svd.V
  V := svd.U
  values := svd.values ∘ Fin.cast (min_comm cols rows)
  nonneg := fun i => svd.nonneg _
  orthonormalU := svd.orthonormalV
  orthonormalV := svd.orthonormalU
  product := by
    have product := congrArg Matrix.transpose svd.product
    rwa [transpose_mul, transpose_mul, transpose_transpose, transpose_rectangular,
      ← Matrix.mul_assoc] at product

/-- The first columns of an orthogonal matrix are orthonormal. -/
theorem orthonormal_first (svd : FullSVD A) (tall : cols ≤ rows) :
    (svd.U.submatrix id (Fin.castLE tall))ᵀ * svd.U.submatrix id (Fin.castLE tall) = 1 := by
  rw [transpose_submatrix, ← submatrix_mul _ _ _ _ _ Function.bijective_id, svd.orthonormalU,
    submatrix_one _ (Fin.castLE_injective tall)]

/-- A tall matrix needs only the first singular vectors. -/
def thin (svd : FullSVD A) (tall : cols ≤ rows) : ThinSVD (Fin cols) A where
  U := svd.U.submatrix id (Fin.castLE tall)
  V := svd.V
  values := svd.values ∘ Fin.cast (min_eq_right tall).symm
  nonneg := fun i => svd.nonneg _
  orthonormalU := svd.orthonormal_first tall
  orthonormalV := svd.orthonormalV
  product := by rw [← mul_rectangular tall, ← svd.product]

end FullSVD

/-- Orthogonal columns are the first of an orthonormal basis, with lengths, if there are not more of
them than rows. -/
theorem exists_orthonormal {rows cols : ℕ} (enough : cols ≤ rows)
    {B : Matrix (Fin rows) (Fin cols) ℝ} {lengths : Fin cols → ℝ}
    (orthogonal : Bᵀ * B = diagonal (lengths ^ 2)) :
    ∃ U : Matrix (Fin rows) (Fin rows) ℝ, Uᵀ * U = 1 ∧
      B = U.submatrix id (Fin.castLE enough) * diagonal lengths := by
  let column (j : Fin cols) : EuclideanSpace ℝ (Fin rows) := WithLp.toLp 2 (Bᵀ j)
  have products (i j : Fin cols) :
      inner ℝ (column i) (column j) = if i = j then lengths i ^ 2 else 0 := by
    have entry := congrFun₂ orthogonal i j
    rw [diagonal_apply, Pi.pow_apply] at entry
    rw [← entry, Matrix.mul_apply, PiLp.inner_apply]
    simp [column, mul_comm]
  let scaled (i : Fin rows) : EuclideanSpace ℝ (Fin rows) :=
    if inside : i < cols then (lengths ⟨i, inside⟩)⁻¹ • column ⟨i, inside⟩ else 0
  let long : Set (Fin rows) := {i | ∃ inside : i < cols, lengths ⟨i, inside⟩ ≠ 0}
  have orthonormal : Orthonormal ℝ (long.domRestrict scaled) := by
    rw [orthonormal_iff_ite]
    rintro ⟨i, inside, nonzero⟩ ⟨j, inside', nonzero'⟩
    have product : inner ℝ (scaled i) (scaled j) = (lengths ⟨i, inside⟩)⁻¹ *
        ((lengths ⟨j, inside'⟩)⁻¹ * if i = j then lengths ⟨i, inside⟩ ^ 2 else 0) := by
      simp only [scaled, dif_pos inside, dif_pos inside', inner_smul_left, inner_smul_right,
        products]
      simp [Fin.ext_iff, mul_left_comm]
    refine product.trans ?_
    by_cases same : i = j
    · subst same
      simp
      field_simp
    · simp [same]
  obtain ⟨basis, agrees⟩ := orthonormal.exists_orthonormalBasis_extension_of_card_eq
    (by simp)
  refine ⟨of fun i j => basis j i, ?_, ?_⟩
  · ext i j
    have entry := orthonormal_iff_ite.mp basis.orthonormal i j
    rw [PiLp.inner_apply] at entry
    rw [Matrix.mul_apply, one_apply]
    simpa [mul_comm] using entry
  · ext i j
    rw [mul_diagonal]
    by_cases zero : lengths j = 0
    · have none : column j = 0 := by
        rw [← @inner_self_eq_zero ℝ, products, if_pos rfl, zero, zero_pow two_ne_zero]
      rw [zero, mul_zero]
      exact congrFun (congrArg WithLp.ofLp none) i
    · have found := agrees (Fin.castLE enough j) ⟨j.2, zero⟩
      simp [found, scaled, column]
      field_simp

theorem nonempty_of_tall {rows cols : ℕ} (tall : cols ≤ rows)
    (A : Matrix (Fin rows) (Fin cols) ℝ) : Nonempty (FullSVD A) := by
  have positive : (Aᵀ * A).PosSemidef := by
    simpa [conjTranspose_eq_transpose_of_trivial] using posSemidef_conjTranspose_mul_self A
  let vectors := positive.isHermitian.eigenvectorUnitary
  let V : Matrix (Fin cols) (Fin cols) ℝ := vectors
  let lengths (j : Fin cols) : ℝ := √(positive.isHermitian.eigenvalues j)
  have orthonormal : Vᵀ * V = 1 := by
    simpa [V, star_eq_conjTranspose, conjTranspose_eq_transpose_of_trivial] using
      Unitary.coe_star_mul_self vectors
  have orthonormal' : V * Vᵀ = 1 := mul_eq_one_comm.mp orthonormal
  have orthogonal : (A * V)ᵀ * (A * V) = diagonal (lengths ^ 2) := by
    have diagonalised := positive.isHermitian.conjStarAlgAut_star_eigenvectorUnitary
    rw [Unitary.conjStarAlgAut_star_apply] at diagonalised
    have squares : RCLike.ofReal ∘ positive.isHermitian.eigenvalues = lengths ^ 2 := by
      funext j
      exact (Real.sq_sqrt (positive.eigenvalues_nonneg j)).symm
    rw [← squares, ← diagonalised, transpose_mul]
    simp [V, vectors, star_eq_conjTranspose, conjTranspose_eq_transpose_of_trivial,
      Matrix.mul_assoc]
  obtain ⟨U, orthonormalU, product⟩ := exists_orthonormal tall orthogonal
  exact ⟨{
    U := U
    V := V
    values := lengths ∘ Fin.cast (min_eq_right tall)
    nonneg := fun j => Real.sqrt_nonneg _
    orthonormalU := orthonormalU
    orthonormalV := orthonormal
    product := by
      have lengths_cast : (lengths ∘ Fin.cast (min_eq_right tall)) ∘
          Fin.cast (min_eq_right tall).symm = lengths := rfl
      rw [mul_rectangular tall, lengths_cast, ← product, Matrix.mul_assoc, orthonormal',
        Matrix.mul_one] }⟩

/-- Every matrix has a singular value decomposition. -/
theorem nonempty_fullSVD {rows cols : ℕ} (A : Matrix (Fin rows) (Fin cols) ℝ) :
    Nonempty (FullSVD A) := by
  rcases le_total cols rows with tall | wide
  · exact nonempty_of_tall tall A
  · obtain ⟨svd⟩ := nonempty_of_tall wide Aᵀ
    exact ⟨svd.transpose⟩

/-- Every matrix has a thin singular value decomposition. -/
theorem nonempty_thinSVD {rows cols : ℕ} (A : Matrix (Fin rows) (Fin cols) ℝ) :
    Nonempty (ThinSVD (Fin (min rows cols)) A) := by
  rcases le_total cols rows with tall | wide
  · rw [min_eq_right tall]
    obtain ⟨svd⟩ := nonempty_fullSVD A
    exact ⟨svd.thin tall⟩
  · rw [min_eq_left wide]
    obtain ⟨svd⟩ := nonempty_fullSVD Aᵀ
    exact ⟨(svd.thin wide).transpose⟩

/-- An upper triangular matrix with orthogonal rows, none of them zero, is diagonal. -/
theorem isDiag_of_orthogonal_rows {p : Type*} [Fintype p] [LinearOrder p] {R : Matrix p p ℝ}
    {squares : p → ℝ} (upper : R.BlockTriangular id) (orthogonal : R * Rᵀ = diagonal squares)
    (nonzero : ∀ i, squares i ≠ 0) : R.IsDiag := by
  have inverse : R * (Rᵀ * diagonal squares⁻¹) = 1 := by
    have ones : squares * squares⁻¹ = 1 := funext fun i => mul_inv_cancel₀ (nonzero i)
    rw [← Matrix.mul_assoc, orthogonal, diagonal_mul_diagonal]
    exact (congrArg diagonal ones).trans diagonal_one
  have invertible : Invertible R := invertibleOfRightInverse R _ inverse
  have lower : Rᵀ.BlockTriangular id := by
    have turned : Rᵀ = R⁻¹ * diagonal squares := by
      rw [← orthogonal, inv_mul_cancel_left_of_invertible]
    rw [turned]
    exact (blockTriangular_inv_of_blockTriangular upper).mul (blockTriangular_diagonal squares)
  intro i j different
  rcases lt_or_gt_of_ne different with above | below
  · exact lower above
  · exact upper below

/-! ### Weights -/

section Weights

variable {W : Matrix n n ℝ} {v d : n → ℝ}

/-- What is orthogonal to a vector makes it longer. -/
theorem le_of_orthogonal (positive : W.PosSemidef) (orthogonal : d ⬝ᵥ W *ᵥ v = 0) :
    v ⬝ᵥ W *ᵥ v ≤ (v + d) ⬝ᵥ W *ᵥ (v + d) := by
  have transposed : Wᵀ = W := by
    rw [← conjTranspose_eq_transpose_of_trivial, positive.isHermitian.eq]
  have symmetric : v ⬝ᵥ W *ᵥ d = 0 := by
    rw [dotProduct_mulVec, ← mulVec_transpose, transposed, dotProduct_comm, orthogonal]
  have nonneg : 0 ≤ d ⬝ᵥ W *ᵥ d := by
    simpa using positive.dotProduct_mulVec_nonneg d
  rw [mulVec_add, dotProduct_add, add_dotProduct, add_dotProduct, symmetric, orthogonal]
  linarith

end Weights

end Decomposition

end Dls2.PseudoInverse
