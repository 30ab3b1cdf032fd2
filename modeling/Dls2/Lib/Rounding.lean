import Mathlib.Algebra.Order.Floor.Ring
import Mathlib.Data.Int.Log
import Mathlib.Data.Rat.Floor
import Mathlib.Tactic.Linarith
import Mathlib.Tactic.NormNum
import Mathlib.Tactic.Ring

/-!
# Rounding to so many binary digits

Numbers are rounded to the nearest one with a significand of `digits` bits, and a number
half way between two of these to the one whose significand is even. The exponent has no
bounds, so nothing overflows and nothing is subnormal.
-/

namespace Dls2.Rounding

universe u

/-- Definitions with the numeral rest on this fact in every module. -/
scoped instance atLeastTwo_two : Nat.AtLeastTwo 2 := ⟨le_rfl⟩

variable {R : Type u} [Field R] [LinearOrder R] [IsStrictOrderedRing R] [FloorRing R]

/-! ### Rounding to an integer -/

/-- The nearest integer, the even one of two. -/
def nearestEven (x : R) : ℤ :=
  if x - ⌊x⌋ < 1 / 2 then ⌊x⌋
  else if 1 / 2 < x - ⌊x⌋ then ⌊x⌋ + 1
  else ⌊x⌋ + ⌊x⌋ % 2

@[simp] theorem nearestEven_intCast (n : ℤ) : nearestEven (n : R) = n := by
  simp [nearestEven]

omit [IsStrictOrderedRing R] in
theorem floor_le_nearestEven (x : R) : ⌊x⌋ ≤ nearestEven x := by
  unfold nearestEven
  split_ifs <;> omega

omit [IsStrictOrderedRing R] in
theorem nearestEven_le_floor_add_one (x : R) : nearestEven x ≤ ⌊x⌋ + 1 := by
  unfold nearestEven
  split_ifs <;> omega

theorem nearestEven_mono {x y : R} (le : x ≤ y) : nearestEven x ≤ nearestEven y := by
  obtain same | less := (Int.floor_le_floor le).eq_or_lt
  · unfold nearestEven
    rw [same]
    split_ifs <;> first | omega | (exfalso; linarith)
  · calc nearestEven x ≤ ⌊x⌋ + 1 := nearestEven_le_floor_add_one x
      _ ≤ ⌊y⌋ := less
      _ ≤ nearestEven y := floor_le_nearestEven y

/-- An even integer is the nearest one up to the half above it. -/
theorem nearestEven_le_iff {x : R} {n : ℤ} (even : Even n) :
    nearestEven x ≤ n ↔ x ≤ n + 1 / 2 := by
  have low := Int.floor_le x
  have high := Int.lt_floor_add_one x
  obtain ⟨half, rfl⟩ := even
  rcases lt_trichotomy ⌊x⌋ (half + half) with below | same | above
  · have cast : (⌊x⌋ : R) + 1 ≤ ((half + half : ℤ) : R) := by exact_mod_cast below
    have rounded := nearestEven_le_floor_add_one x
    exact iff_of_true (by omega) (by linarith)
  · unfold nearestEven
    rw [same] at low high ⊢
    split_ifs <;> constructor <;> intro _ <;> first | omega | linarith
  · have cast : ((half + half : ℤ) : R) + 1 ≤ (⌊x⌋ : R) := by exact_mod_cast above
    have rounded := floor_le_nearestEven x
    exact iff_of_false (by omega) (by linarith)

/-! ### Rounding to digits -/

/-- The weight of the last digit. -/
def unit (digits : ℕ) (x : R) : R := 2 ^ (Int.log 2 |x| - (digits - 1 : ℤ))

/-- The nearest number of so many digits. -/
def toDigits (digits : ℕ) (x : R) : R := nearestEven (x / unit digits x) * unit digits x

theorem unit_pos (digits : ℕ) (x : R) : 0 < unit digits x := zpow_pos (by norm_num) _

theorem unit_of_pos (digits : ℕ) {x : R} (pos : 0 < x) :
    unit digits x = 2 ^ (Int.log 2 x - (digits - 1 : ℤ)) := by
  rw [unit, abs_of_pos pos]

@[simp] theorem toDigits_zero (digits : ℕ) : toDigits digits (0 : R) = 0 := by
  have zero : nearestEven (0 : R) = 0 := by simpa using nearestEven_intCast (R := R) 0
  simp [toDigits, zero]

/-- A multiple of its last digit is not changed. -/
theorem toDigits_of_eq {digits : ℕ} {x : R} {n : ℤ} (whole : x = n * unit digits x) :
    toDigits digits x = x := by
  have quotient : x / unit digits x = n := by
    rw [div_eq_iff (unit_pos digits x).ne']
    exact whole
  rw [toDigits, quotient, nearestEven_intCast, ← whole]

variable {digits : ℕ}

/-- What is at most a multiple of the last digit is rounded to at most that. -/
theorem toDigits_le_of_le {x : R} {n : ℤ} (le : x ≤ n * unit digits x) :
    toDigits digits x ≤ n * unit digits x := by
  have pos := unit_pos digits x
  have bound : nearestEven (x / unit digits x) ≤ n := by
    rw [← nearestEven_intCast (R := R) n]
    exact nearestEven_mono ((div_le_iff₀ pos).mpr le)
  exact mul_le_mul_of_nonneg_right (by exact_mod_cast bound) pos.le

theorem le_toDigits_of_le {x : R} {n : ℤ} (le : n * unit digits x ≤ x) :
    n * unit digits x ≤ toDigits digits x := by
  have pos := unit_pos digits x
  have bound : n ≤ nearestEven (x / unit digits x) := by
    rw [← nearestEven_intCast (R := R) n]
    exact nearestEven_mono ((le_div_iff₀ pos).mpr le)
  exact mul_le_mul_of_nonneg_right (by exact_mod_cast bound) pos.le

/-- A power of two is some number of last digits. -/
theorem zpow_eq_mul_unit {x : R} (pos : 0 < x) (any : 0 < digits) :
    (2 : R) ^ Int.log 2 x = ((2 ^ (digits - 1) : ℤ) : R) * unit digits x := by
  rw [unit_of_pos digits pos]
  push_cast
  rw [← zpow_natCast, ← zpow_add₀ (by norm_num)]
  congr 1
  omega

/-- Rounding stays between the powers of two. -/
theorem zpow_log_le_toDigits {x : R} (pos : 0 < x) (any : 0 < digits) :
    (2 : R) ^ Int.log 2 x ≤ toDigits digits x := by
  have below : (2 : R) ^ Int.log 2 x ≤ x := by
    exact_mod_cast Int.zpow_log_le_self (b := 2) (by norm_num) pos
  rw [zpow_eq_mul_unit pos any] at below ⊢
  exact le_toDigits_of_le below

theorem toDigits_le_zpow_succ_log {x : R} (pos : 0 < x) (any : 0 < digits) :
    toDigits digits x ≤ (2 : R) ^ (Int.log 2 x + 1) := by
  have above : x < (2 : R) ^ (Int.log 2 x + 1) := by
    exact_mod_cast Int.lt_zpow_succ_log_self (b := 2) (by norm_num) x
  have whole : (2 : R) ^ (Int.log 2 x + 1) = ((2 ^ digits : ℤ) : R) * unit digits x := by
    rw [zpow_add_one₀ (by norm_num), zpow_eq_mul_unit pos any]
    obtain ⟨more, rfl⟩ := Nat.exists_eq_succ_of_ne_zero any.ne'
    push_cast
    rw [Nat.succ_eq_add_one, pow_succ]
    ring
  rw [whole] at above ⊢
  exact toDigits_le_of_le above.le

theorem toDigits_pos {x : R} (pos : 0 < x) (any : 0 < digits) : 0 < toDigits digits x :=
  lt_of_lt_of_le (zpow_pos (by norm_num) _) (zpow_log_le_toDigits pos any)

theorem toDigits_nonneg {x : R} (nonneg : 0 ≤ x) (any : 0 < digits) : 0 ≤ toDigits digits x := by
  obtain rfl | pos := nonneg.eq_or_lt
  · simp
  · exact (toDigits_pos pos any).le

/-- Rounding keeps the order. -/
theorem toDigits_mono {x y : R} (pos : 0 < x) (le : x ≤ y) (any : 0 < digits) :
    toDigits digits x ≤ toDigits digits y := by
  have posY := lt_of_lt_of_le pos le
  obtain same | less := (Int.log_mono_right (b := 2) pos le).eq_or_lt
  · have units : unit digits x = unit digits y := by
      rw [unit_of_pos digits pos, unit_of_pos digits posY, same]
    have weight := unit_pos digits y
    unfold toDigits
    rw [units]
    refine mul_le_mul_of_nonneg_right ?_ weight.le
    exact_mod_cast nearestEven_mono (div_le_div_of_nonneg_right le weight.le)
  · calc toDigits digits x ≤ 2 ^ (Int.log 2 x + 1) := toDigits_le_zpow_succ_log pos any
      _ ≤ 2 ^ Int.log 2 y := zpow_le_zpow_right₀ (by norm_num) less
      _ ≤ toDigits digits y := zpow_log_le_toDigits posY any

/-- A natural number that has no more digits is not changed. -/
theorem toDigits_natCast {n : ℕ} (short : n < 2 ^ digits) :
    toDigits digits (n : R) = n := by
  obtain rfl | positive := Nat.eq_zero_or_pos n
  · simp
  have pos : (0 : R) < n := by exact_mod_cast positive
  have log : Nat.log 2 n + 1 ≤ digits := Nat.log_lt_of_lt_pow positive.ne' short
  apply toDigits_of_eq (n := n * 2 ^ (digits - 1 - Nat.log 2 n))
  rw [unit_of_pos digits pos, Int.log_natCast]
  push_cast
  rw [mul_assoc, ← zpow_natCast, ← zpow_add₀ (by norm_num)]
  have exponent : ((digits - 1 - Nat.log 2 n : ℕ) : ℤ) +
      ((Nat.log 2 n : ℤ) - (digits - 1 : ℤ)) = 0 := by omega
  rw [exponent, zpow_zero, mul_one]

/-- A number with an even significand is the nearest one up to half a last digit above it. -/
theorem toDigits_le_iff {x : R} {n exponent : ℤ} (even : Even n) (low : 2 ^ (digits - 1) ≤ n)
    (high : n < 2 ^ digits) (pos : 0 < x) (any : 0 < digits) :
    toDigits digits x ≤ n * 2 ^ (exponent - (digits - 1 : ℤ)) ↔
      x ≤ (n + 1 / 2) * 2 ^ (exponent - (digits - 1 : ℤ)) := by
  have weight : (0 : R) < 2 ^ (exponent - (digits - 1 : ℤ)) := zpow_pos (by norm_num) _
  have bottom : (2 : R) ^ exponent ≤ n * 2 ^ (exponent - (digits - 1 : ℤ)) := by
    have whole : (2 : R) ^ exponent =
        ((2 ^ (digits - 1) : ℤ) : R) * 2 ^ (exponent - (digits - 1 : ℤ)) := by
      push_cast
      rw [← zpow_natCast, ← zpow_add₀ (by norm_num)]
      congr 1
      omega
    rw [whole]
    exact mul_le_mul_of_nonneg_right (by exact_mod_cast low) weight.le
  have top : ((n : R) + 1) * 2 ^ (exponent - (digits - 1 : ℤ)) ≤ 2 ^ (exponent + 1) := by
    have whole : (2 : R) ^ (exponent + 1) =
        ((2 ^ digits : ℤ) : R) * 2 ^ (exponent - (digits - 1 : ℤ)) := by
      push_cast
      rw [← zpow_natCast, ← zpow_add₀ (by norm_num)]
      congr 1
      omega
    rw [whole]
    exact mul_le_mul_of_nonneg_right (by exact_mod_cast high) weight.le
  have under : x < (2 : R) ^ (Int.log 2 x + 1) := by
    exact_mod_cast Int.lt_zpow_succ_log_self (b := 2) (by norm_num) x
  have least : (2 : R) ^ Int.log 2 x ≤ x := by
    exact_mod_cast Int.zpow_log_le_self (b := 2) (by norm_num) pos
  rcases lt_trichotomy (Int.log 2 x) exponent with below | same | above
  · have powers : (2 : R) ^ (Int.log 2 x + 1) ≤ 2 ^ exponent :=
      zpow_le_zpow_right₀ (by norm_num) below
    refine iff_of_true ?_ ?_
    · exact (toDigits_le_zpow_succ_log pos any).trans (powers.trans bottom)
    · linarith
  · have units : unit digits x = 2 ^ (exponent - (digits - 1 : ℤ)) := by
      rw [unit_of_pos digits pos, same]
    rw [toDigits, units, mul_le_mul_iff_left₀ weight, Int.cast_le, nearestEven_le_iff even,
      div_le_iff₀ weight]
  · have powers : (2 : R) ^ (exponent + 1) ≤ 2 ^ Int.log 2 x :=
      zpow_le_zpow_right₀ (by norm_num) above
    have rounded := zpow_log_le_toDigits pos any
    refine iff_of_false ?_ ?_ <;> intro le <;> linarith

end Dls2.Rounding
