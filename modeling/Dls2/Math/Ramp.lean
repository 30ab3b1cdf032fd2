import Mathlib.Algebra.Order.Field.Basic
import Mathlib.Algebra.Order.Field.Rat
import Mathlib.Tactic.FieldSimp
import Mathlib.Tactic.Linarith
import Mathlib.Tactic.Ring

/-!
# Ramps

A ramp should be clamped at the ends of its range. `eval` clamps it at the ends of its domain
instead, which makes no difference for the default ramp.
-/

namespace Dls2.Math

structure Ramp (K : Type*) where
  minDomain : K
  maxDomain : K
  minRange : K
  maxRange : K
deriving DecidableEq, Repr

namespace Ramp

variable {K : Type*} [Field K] [LinearOrder K]

/-- The ramp that is built without arguments. -/
def default : Ramp K := ⟨0, 1, 0, 1⟩

def eval (ramp : Ramp K) (t : K) : K :=
  if t ≤ ramp.minDomain then ramp.minDomain
  else if t ≥ ramp.maxDomain then ramp.maxDomain
  else
    (ramp.maxRange - ramp.minRange) / (ramp.maxDomain - ramp.minDomain) * (t - ramp.minDomain) +
      ramp.minRange

/-- A ramp as it is drawn: it rises from the minimum of its range to the maximum, and is clamped
there outside of its domain. -/
structure Clamped (ramp : Ramp K) : Prop where
  rises : ∀ t1 t2, t1 ≤ t2 → ramp.eval t1 ≤ ramp.eval t2
  bounded : ∀ t, ramp.minRange ≤ ramp.eval t ∧ ramp.eval t ≤ ramp.maxRange
  low : ∀ t, t ≤ ramp.minDomain → ramp.eval t = ramp.minRange
  high : ∀ t, t ≥ ramp.maxDomain → ramp.eval t = ramp.maxRange

variable {ramp : Ramp K}

theorem eval_of_le {t : K} (below : t ≤ ramp.minDomain) : ramp.eval t = ramp.minDomain :=
  if_pos below

theorem eval_of_ge (domain : ramp.minDomain < ramp.maxDomain) {t : K} (above : ramp.maxDomain ≤ t) :
    ramp.eval t = ramp.maxDomain := by
  rw [eval, if_neg (not_le.mpr (domain.trans_le above)), if_pos above]

variable [IsStrictOrderedRing K]

/-- A part of the way through the domain the ramp is the same part of the way through its range. -/
theorem eval_part (domain : ramp.minDomain < ramp.maxDomain) {part : K} (started : 0 < part)
    (unfinished : part < 1) :
    ramp.eval (ramp.minDomain + part * (ramp.maxDomain - ramp.minDomain)) =
      ramp.minRange + part * (ramp.maxRange - ramp.minRange) := by
  have width : 0 < ramp.maxDomain - ramp.minDomain := sub_pos.mpr domain
  have way : 0 < part * (ramp.maxDomain - ramp.minDomain) := mul_pos started width
  have rest : part * (ramp.maxDomain - ramp.minDomain) < ramp.maxDomain - ramp.minDomain :=
    mul_lt_of_lt_one_left width unfinished
  rw [eval, if_neg (by linarith), if_neg (by linarith)]
  field_simp
  ring

/-- Every place inside the domain is some part of the way. -/
theorem exists_part (domain : ramp.minDomain < ramp.maxDomain) {t : K} (after : ramp.minDomain < t)
    (before : t < ramp.maxDomain) :
    ∃ part, 0 < part ∧ part < 1 ∧
      t = ramp.minDomain + part * (ramp.maxDomain - ramp.minDomain) := by
  have width : 0 < ramp.maxDomain - ramp.minDomain := sub_pos.mpr domain
  refine ⟨(t - ramp.minDomain) / (ramp.maxDomain - ramp.minDomain), ?_, ?_, ?_⟩
  · exact div_pos (sub_pos.mpr after) width
  · rw [div_lt_one width]
    linarith
  · rw [div_mul_cancel₀ _ width.ne']
    ring

/-- The three parts of a ramp. -/
theorem eval_cases (domain : ramp.minDomain < ramp.maxDomain) (t : K) :
    (t ≤ ramp.minDomain ∧ ramp.eval t = ramp.minDomain) ∨
    (ramp.maxDomain ≤ t ∧ ramp.eval t = ramp.maxDomain) ∨
    (ramp.minDomain < t ∧ t < ramp.maxDomain ∧ ∃ part, 0 < part ∧ part < 1 ∧
      t = ramp.minDomain + part * (ramp.maxDomain - ramp.minDomain) ∧
      ramp.eval t = ramp.minRange + part * (ramp.maxRange - ramp.minRange)) := by
  by_cases below : t ≤ ramp.minDomain
  · exact .inl ⟨below, eval_of_le below⟩
  · by_cases above : ramp.maxDomain ≤ t
    · exact .inr (.inl ⟨above, eval_of_ge domain above⟩)
    · have after := not_le.mp below
      have before := not_le.mp above
      obtain ⟨part, started, unfinished, rfl⟩ := exists_part domain after before
      exact .inr (.inr ⟨after, before, part, started, unfinished, rfl,
        eval_part domain started unfinished⟩)

/-- A part of a width that is shorter than a given gap. -/
theorem exists_short_part {width gap : K} (nonneg : 0 ≤ width) (positive : 0 < gap) :
    ∃ part, 0 < part ∧ part < 1 ∧ part * width < gap := by
  have sum : 0 < width + gap := by linarith
  refine ⟨gap / (2 * (width + gap)), div_pos positive (by linarith), ?_, ?_⟩
  · rw [div_lt_one (by linarith)]
    linarith
  · have less : width < 2 * (width + gap) := by linarith
    rw [div_mul_eq_mul_div, div_lt_iff₀ (by linarith)]
    exact mul_lt_mul_of_pos_left less positive

/-- A part of the range lies in the range. -/
theorem part_bounds (range : ramp.minRange ≤ ramp.maxRange) {part : K} (started : 0 < part)
    (unfinished : part < 1) :
    ramp.minRange ≤ ramp.minRange + part * (ramp.maxRange - ramp.minRange) ∧
      ramp.minRange + part * (ramp.maxRange - ramp.minRange) ≤ ramp.maxRange := by
  have height : 0 ≤ ramp.maxRange - ramp.minRange := sub_nonneg.mpr range
  have way := mul_nonneg started.le height
  have rest := mul_nonneg (sub_nonneg.mpr unfinished.le) height
  constructor <;> linarith

/-- A ramp that rises does not jump down at its joins. -/
theorem joins_of_rises (domain : ramp.minDomain < ramp.maxDomain)
    (range : ramp.minRange ≤ ramp.maxRange)
    (rises : ∀ t1 t2, t1 ≤ t2 → ramp.eval t1 ≤ ramp.eval t2) :
    ramp.minDomain ≤ ramp.minRange ∧ ramp.maxRange ≤ ramp.maxDomain := by
  have height : 0 ≤ ramp.maxRange - ramp.minRange := sub_nonneg.mpr range
  have width : 0 < ramp.maxDomain - ramp.minDomain := sub_pos.mpr domain
  constructor
  · by_contra jump
    obtain ⟨part, started, unfinished, short⟩ :=
      exists_short_part height (sub_pos.mpr (not_le.mp jump))
    have way := mul_pos started width
    have risen := rises ramp.minDomain
      (ramp.minDomain + part * (ramp.maxDomain - ramp.minDomain)) (by linarith)
    rw [eval_of_le le_rfl, eval_part domain started unfinished] at risen
    linarith
  · by_contra jump
    obtain ⟨part, started, unfinished, short⟩ :=
      exists_short_part height (sub_pos.mpr (not_le.mp jump))
    -- the same part before the end
    have way := mul_pos started width
    have risen := rises (ramp.minDomain + (1 - part) * (ramp.maxDomain - ramp.minDomain))
      ramp.maxDomain (by linarith)
    rw [eval_of_ge domain le_rfl, eval_part domain (by linarith) (by linarith)] at risen
    linarith

/-- The ramp rises exactly if it does not jump down at its joins. -/
theorem rises_iff (domain : ramp.minDomain < ramp.maxDomain)
    (range : ramp.minRange ≤ ramp.maxRange) :
    (∀ t1 t2, t1 ≤ t2 → ramp.eval t1 ≤ ramp.eval t2) ↔
      ramp.minDomain ≤ ramp.minRange ∧ ramp.maxRange ≤ ramp.maxDomain := by
  refine ⟨joins_of_rises domain range, ?_⟩
  rintro ⟨low, high⟩ t1 t2 later
  rcases eval_cases domain t1 with
    ⟨place1, value1⟩ | ⟨place1, value1⟩ | ⟨after, before, part1, started1, unfinished1, rfl, value1⟩
  · rcases eval_cases domain t2 with
      ⟨_, value2⟩ | ⟨_, value2⟩ | ⟨_, _, part2, started2, unfinished2, _, value2⟩
    · rw [value1, value2]
    · rw [value1, value2]
      exact domain.le
    · rw [value1, value2]
      exact low.trans (part_bounds range started2 unfinished2).1
  · rw [value1, eval_of_ge domain (place1.trans later)]
  · rcases eval_cases domain t2 with
      ⟨place2, _⟩ | ⟨_, value2⟩ | ⟨_, _, part2, _, _, rfl, value2⟩
    · linarith
    · rw [value1, value2]
      exact (part_bounds range started1 unfinished1).2.trans high
    · have width : 0 < ramp.maxDomain - ramp.minDomain := sub_pos.mpr domain
      have order : part1 ≤ part2 := le_of_mul_le_mul_right (by linarith) width
      have risen := mul_le_mul_of_nonneg_right order (sub_nonneg.mpr range)
      rw [value1, value2]
      linarith

/-- The ramp keeps to its range exactly if the ends of the domain do. -/
theorem bounded_iff (domain : ramp.minDomain < ramp.maxDomain)
    (range : ramp.minRange ≤ ramp.maxRange) :
    (∀ t, ramp.minRange ≤ ramp.eval t ∧ ramp.eval t ≤ ramp.maxRange) ↔
      ramp.minRange ≤ ramp.minDomain ∧ ramp.maxDomain ≤ ramp.maxRange := by
  constructor
  · intro bounded
    have low := (bounded ramp.minDomain).1
    have high := (bounded ramp.maxDomain).2
    rw [eval_of_le le_rfl] at low
    rw [eval_of_ge domain le_rfl] at high
    exact ⟨low, high⟩
  · rintro ⟨low, high⟩ t
    rcases eval_cases domain t with
      ⟨_, value⟩ | ⟨_, value⟩ | ⟨_, _, part, started, unfinished, _, value⟩
    · rw [value]
      exact ⟨low, domain.le.trans high⟩
    · rw [value]
      exact ⟨low.trans domain.le, high⟩
    · rw [value]
      exact part_bounds range started unfinished

/-- A ramp is clamped at the ends of its range exactly if they are the ends of its domain. -/
theorem clamped_iff (domain : ramp.minDomain < ramp.maxDomain)
    (range : ramp.minRange ≤ ramp.maxRange) :
    ramp.Clamped ↔ ramp.minRange = ramp.minDomain ∧ ramp.maxRange = ramp.maxDomain := by
  constructor
  · intro clamped
    obtain ⟨low, high⟩ := (rises_iff domain range).mp clamped.rises
    obtain ⟨low', high'⟩ := (bounded_iff domain range).mp clamped.bounded
    exact ⟨low'.antisymm low, high.antisymm high'⟩
  · rintro ⟨low, high⟩
    exact {
      rises := (rises_iff domain range).mpr ⟨low.ge, high.le⟩
      bounded := (bounded_iff domain range).mpr ⟨low.le, high.ge⟩
      low := fun t below => (eval_of_le below).trans low.symm
      high := fun t above => (eval_of_ge domain above).trans high.symm }

/-- A ramp from -1 to 4 over the same domain. -/
theorem clamped_iff_same : (⟨-1, 4, -1, 4⟩ : Ramp ℚ).Clamped :=
  (clamped_iff (by decide +kernel) (by decide +kernel)).mpr ⟨rfl, rfl⟩

/-- A ramp from 2 to 3 over the domain from 0 to 1: it is 0 before its domain and 1 behind it,
and between 2 and 3 inside. -/
theorem not_clamped_shifted :
    let ramp : Ramp ℚ := ⟨0, 1, 2, 3⟩
    ramp.eval 0 = 0 ∧ ramp.eval (1 / 2) = 5 / 2 ∧ ramp.eval 1 = 1 ∧ ¬ ramp.Clamped := by
  intro ramp
  have start : ramp.eval 0 = 0 := by decide +kernel
  have middle : ramp.eval (1 / 2) = 5 / 2 := by decide +kernel
  have finish : ramp.eval 1 = 1 := by decide +kernel
  refine ⟨start, middle, finish, fun clamped => ?_⟩
  have low := clamped.low 0 le_rfl
  rw [start] at low
  exact absurd low (by decide +kernel)

end Ramp

end Dls2.Math
