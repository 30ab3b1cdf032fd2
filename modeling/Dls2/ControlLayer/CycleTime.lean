import Mathlib.Algebra.BigOperators.Group.List.Lemmas
import Mathlib.Algebra.Order.BigOperators.Group.List
import Mathlib.Algebra.Order.Field.Rat
import Mathlib.Data.Int.ModEq
import Mathlib.Tactic.Linarith
import Dls2.Lib.CircularBuffer

/-!
# The real-time check of the gather thread

At the end of each cycle the gather thread stores how long the cycle took and warns if the mean
of the stored durations is above 990 microseconds. The mean is summed up in a `double`, but
each summand is a quotient of whole numbers, so up to one microsecond of each duration is lost.
A duration goes through an `int`, and the division takes place in `size_t`.
-/

namespace Dls2.ControlLayer

open CircularBuffer

/-- The number of durations that the gather thread stores. -/
def deltaCapacity : ℕ := 100

/-- A count of microseconds stored as an `int`. -/
def toInt (count : ℕ) : ℤ := (count : ℤ).bmod (2 ^ 32)

/-- An `int` that meets a `size_t`. -/
def toSize (elem : ℤ) : ℕ := (elem % 2 ^ 64).toNat

/-- The loop over the stored durations. Its summands are whole numbers. -/
def meanOf (delta : List ℤ) : ℕ :=
  delta.foldl (fun mean elem => mean + toSize elem / delta.length) 0

/-- What the gather thread knows about its cycles. -/
structure CycleTimes where
  delta : CircularBuffer ℤ deltaCapacity
  /-- The mean that the last cycle has reported, if it has warned. -/
  warning : Option ℕ

namespace CycleTimes

def init : CycleTimes := ⟨CircularBuffer.empty, none⟩

/-- The end of a cycle that took so many microseconds. -/
def endCycle (times : CycleTimes) (duration : ℕ) : CycleTimes :=
  let delta := times.delta.pushBack (toInt duration)
  let mean := meanOf delta.items
  { delta := delta, warning := if mean > 990 then some mean else none }

def run (durations : List ℕ) : CycleTimes := durations.foldl endCycle init

end CycleTimes

/-- The arithmetic mean. -/
def exactMean (durations : List ℕ) : ℚ := durations.sum / durations.length

/-- The durations that the mean is about. -/
def lastDurations (durations : List ℕ) : List ℕ := durations.rtake deltaCapacity

/-- After a run the thread has warned exactly if the mean is above the limit. -/
def WarnsRightly (durations : List ℕ) : Prop :=
  (CycleTimes.run durations).warning.isSome = true ↔ 990 < exactMean (lastDurations durations)

/-- The part of a duration that fits into an `int`. -/
def lowWord (duration : ℕ) : ℕ := duration % 2 ^ 32

/-- A duration without what the conversion and the division take from it. -/
def kept (size duration : ℕ) : ℕ := lowWord duration - lowWord duration % size

/-- The mean is within the limit, or a duration is negative as an `int`, or the mean is above the
limit even if each duration is rounded down to a multiple of their number. -/
def Undisturbed (durations : List ℕ) : Prop :=
  durations.sum ≤ 990 * durations.length ∨
  (∃ duration ∈ durations, 2 ^ 31 ≤ lowWord duration) ∨
  990 * durations.length < (durations.map (kept durations.length)).sum

/-! ### The conversions -/

theorem toSize_toInt_of_lt {duration : ℕ} (low : lowWord duration < 2 ^ 31) :
    toSize (toInt duration) = lowWord duration := by
  unfold lowWord at low ⊢
  unfold toSize toInt
  rw [Int.bmod_def]
  split <;> omega

/-- A negative `int` is a huge `size_t`. -/
theorem le_toSize_toInt {duration : ℕ} (high : 2 ^ 31 ≤ lowWord duration) :
    2 ^ 63 ≤ toSize (toInt duration) := by
  unfold lowWord at high
  unfold toSize toInt
  rw [Int.bmod_def]
  split <;> omega

/-! ### The sum of the quotients -/

theorem lowWord_le (duration : ℕ) : lowWord duration ≤ duration := Nat.mod_le _ _

theorem kept_le (size duration : ℕ) : kept size duration ≤ duration :=
  (Nat.sub_le _ _).trans (lowWord_le duration)

theorem meanOf_eq (delta : List ℤ) :
    meanOf delta = (delta.map fun elem => toSize elem / delta.length).sum := by
  rw [meanOf, ← List.foldl_map, ← List.sum_eq_foldl]

/-- Rounding down to multiples makes the division exact. -/
theorem sum_kept (size : ℕ) (durations : List ℕ) :
    (durations.map (kept size)).sum =
      size * (durations.map fun duration => lowWord duration / size).sum := by
  induction durations with
  | nil => rfl
  | cons duration rest ih =>
    have split := Nat.div_add_mod (lowWord duration) size
    rw [List.map_cons, List.sum_cons, ih, List.map_cons, List.sum_cons, Nat.mul_add, kept]
    omega

theorem meanOf_map_of_low {durations : List ℕ}
    (low : ∀ duration ∈ durations, lowWord duration < 2 ^ 31) :
    durations.length * meanOf (durations.map toInt) =
      (durations.map (kept durations.length)).sum := by
  have quotients : ∀ duration ∈ durations, toSize (toInt duration) / durations.length =
      lowWord duration / durations.length := fun duration member => by
    rw [toSize_toInt_of_lt (low duration member)]
  rw [sum_kept, meanOf_eq, List.map_map, List.length_map, ← List.map_congr_left quotients]
  rfl

/-- One negative `int` is enough for a warning. -/
theorem lt_meanOf_of_high {durations : List ℕ} (few : durations.length ≤ deltaCapacity)
    {duration : ℕ} (member : duration ∈ durations) (high : 2 ^ 31 ≤ lowWord duration) :
    990 < meanOf (durations.map toInt) := by
  have positive : 0 < durations.length := List.length_pos_of_mem member
  have huge := le_toSize_toInt high
  have quotient : 991 ≤ toSize (toInt duration) / durations.length := by
    rw [Nat.le_div_iff_mul_le positive]
    unfold deltaCapacity at few
    omega
  have counted : toSize (toInt duration) / durations.length ≤ meanOf (durations.map toInt) := by
    rw [meanOf_eq, List.map_map, List.length_map]
    exact List.single_le_sum (fun _ _ => Nat.zero_le _) _ (List.mem_map_of_mem member)
  omega

/-- When the loop's mean is above the limit. -/
theorem lt_meanOf_iff {durations : List ℕ} (few : durations.length ≤ deltaCapacity) :
    990 < meanOf (durations.map toInt) ↔
      (∃ duration ∈ durations, 2 ^ 31 ≤ lowWord duration) ∨
      990 * durations.length < (durations.map (kept durations.length)).sum := by
  by_cases high : ∃ duration ∈ durations, 2 ^ 31 ≤ lowWord duration
  · obtain ⟨duration, member, negative⟩ := high
    exact iff_of_true (lt_meanOf_of_high few member negative)
      (.inl ⟨duration, member, negative⟩)
  · have low : ∀ duration ∈ durations, lowWord duration < 2 ^ 31 := by
      simpa using high
    rw [or_iff_right high, ← meanOf_map_of_low low, Nat.mul_comm 990]
    cases durations with
    | nil => simp [meanOf]
    | cons duration rest =>
      exact (Nat.mul_lt_mul_left (Nat.succ_pos rest.length)).symm

theorem lt_exactMean_iff (durations : List ℕ) :
    990 < exactMean durations ↔ 990 * durations.length < durations.sum := by
  cases durations with
  | nil => simp [exactMean]
  | cons duration rest =>
    have positive : (0 : ℚ) < ((duration :: rest).length : ℚ) := by
      exact_mod_cast Nat.succ_pos rest.length
    rw [exactMean, lt_div_iff₀ positive]
    exact_mod_cast Iff.rfl

/-- Within the limit nothing is lost that matters. -/
theorem not_lt_meanOf {durations : List ℕ} (few : durations.length ≤ deltaCapacity)
    (within : durations.sum ≤ 990 * durations.length) :
    ¬ 990 < meanOf (durations.map toInt) := by
  unfold deltaCapacity at few
  rw [lt_meanOf_iff few]
  rintro (⟨duration, member, high⟩ | above)
  · have small : duration ≤ durations.sum := List.single_le_sum (by simp) _ member
    have low := lowWord_le duration
    omega
  · have reduced : (durations.map (kept durations.length)).sum ≤ (durations.map id).sum :=
      List.sum_le_sum fun duration _ => kept_le durations.length duration
    rw [List.map_id] at reduced
    omega

/-! ### Runs -/

namespace CycleTimes

/-- The buffer holds the last durations. -/
theorem items_run (durations : List ℕ) :
    (run durations).delta.items = (lastDurations durations).map toInt := by
  unfold lastDurations
  induction durations using List.reverseRecOn with
  | nil => rfl
  | append_singleton durations duration ih =>
    rw [← rtake_map] at ih ⊢
    rw [run, List.foldl_append, List.map_append, List.map_singleton]
    exact items_pushBack ih (toInt duration)

/-- After each cycle the verdict is about what the buffer holds. -/
theorem isSome_warning_run (durations : List ℕ) :
    (run durations).warning.isSome = true ↔ 990 < meanOf ((lastDurations durations).map toInt) := by
  rw [← items_run]
  induction durations using List.reverseRecOn with
  | nil => decide
  | append_singleton durations duration ih =>
    rw [run, List.foldl_append]
    simp only [List.foldl_cons, List.foldl_nil, endCycle]
    split <;> simp_all

end CycleTimes

/-- The warning follows the mean after every cycle of a run exactly if no cycle of the run is
disturbed by the rounding, and cycle by cycle. -/
theorem warnsRightly_iff (durations : List ℕ) :
    (WarnsRightly durations ↔ Undisturbed (lastDurations durations)) ∧
    ((∀ past, past <+: durations → WarnsRightly past) ↔
      ∀ past, past <+: durations → Undisturbed (lastDurations past)) := by
  have each : ∀ past, WarnsRightly past ↔ Undisturbed (lastDurations past) := by
    intro past
    have few : (lastDurations past).length ≤ deltaCapacity := by simp [lastDurations]
    unfold WarnsRightly Undisturbed
    rw [CycleTimes.isSome_warning_run, lt_exactMean_iff]
    by_cases within : (lastDurations past).sum ≤ 990 * (lastDurations past).length
    · exact iff_of_true (iff_of_false (not_lt_meanOf few within) (not_lt.mpr within))
        (.inl within)
    · rw [or_iff_right within, iff_true_right (not_le.mp within), lt_meanOf_iff few]
  exact ⟨each durations, forall₂_congr fun past _ => each past⟩

/-- A hundred cycles of 999 microseconds: each counts for 9, their sum is 900, and no warning is
issued. -/
theorem not_warnsRightly_long_cycles :
    (CycleTimes.run (List.replicate 100 999)).warning = none ∧
      990 < exactMean (lastDurations (List.replicate 100 999)) ∧
      ¬ WarnsRightly (List.replicate 100 999) := by
  have silent : (CycleTimes.run (List.replicate 100 999)).warning = none := by decide +kernel
  have above : 990 < exactMean (lastDurations (List.replicate 100 999)) := by decide +kernel
  refine ⟨silent, above, fun rightly => ?_⟩
  rw [WarnsRightly, silent] at rightly
  cases rightly.mpr above

end Dls2.ControlLayer
