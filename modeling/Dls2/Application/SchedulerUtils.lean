import Mathlib.Algebra.Order.Ring.Int
import Mathlib.Data.List.Induction
import Mathlib.Tactic.Ring

/-!
# The end of a periodic iteration

Under `SCHED_FIFO` and `SCHED_OTHER` a periodic app sleeps at the end of each
iteration until its `desiredTime`, which moves on by whole periods and skips those
that have passed already. Times are in ticks of the steady clock, which the source
counts in 64 bits: `ticks_fit` says when integers stand for them.
-/

namespace Dls2.Application

/-- What ends `executeEndLoopTask` early: the exception it throws, or a division
whose divisor is zero. -/
inductive SchedulerFailure where
  | invalidArgument (what : String)
  | divisionByZero
  deriving DecidableEq, Repr

/-- The part of `SchedulerUtils` that its end-of-loop task reads and writes.
`effectivePeriod` is `period * curr_time_factor` cast to clock ticks. -/
@[ext] structure SchedulerUtils where
  schedPolicy : String
  effectivePeriod : ℤ
  desiredTime : ℤ
  deriving DecidableEq, Repr

namespace SchedulerUtils

/-- The division of two durations, which truncates. -/
def divide (dividend divisor : ℤ) : Except SchedulerFailure ℤ :=
  if divisor = 0 then .error .divisionByZero else .ok (dividend.tdiv divisor)

def initDesiredTime (utils : SchedulerUtils) (desiredTime : ℤ) : SchedulerUtils :=
  { utils with desiredTime }

/-- `executeEndLoopTask` up to its sleep, when the clock reads `now`. -/
def executeEndLoopTask (utils : SchedulerUtils) (now : ℤ) :
    Except SchedulerFailure SchedulerUtils :=
  if utils.schedPolicy = "SCHED_DEADLINE" then .ok utils
  else if utils.schedPolicy = "SCHED_FIFO" ∨ utils.schedPolicy = "SCHED_OTHER" then
    if utils.effectivePeriod ≤ 0 then
      .error (.invalidArgument (utils.schedPolicy ++ " period must be positive"))
    else
      let desiredTime := utils.desiredTime + utils.effectivePeriod
      if now > desiredTime then do
        let expired ← divide (now - desiredTime) utils.effectivePeriod
        let missedPeriods := expired + 1
        return utils.initDesiredTime (desiredTime + utils.effectivePeriod * missedPeriods)
      else .ok (utils.initDesiredTime desiredTime)
  else .ok utils

/-- The calls at the end of successive iterations, with their clock readings. -/
def run (utils : SchedulerUtils) (readings : List ℤ) : Except SchedulerFailure SchedulerUtils :=
  readings.foldlM executeEndLoopTask utils

/-- A scheduler that sleeps until its desired time, every positive number of ticks. -/
structure Ticking (utils : SchedulerUtils) : Prop where
  timed : utils.schedPolicy = "SCHED_FIFO" ∨ utils.schedPolicy = "SCHED_OTHER"
  positive : 0 < utils.effectivePeriod

/-- What one call does: the desired time moves on by at least one whole period, and
not further than it has to. -/
structure Advances (utils : SchedulerUtils) (now : ℤ) (next : SchedulerUtils) : Prop where
  schedPolicy : next.schedPolicy = utils.schedPolicy
  effectivePeriod : next.effectivePeriod = utils.effectivePeriod
  phase : utils.effectivePeriod ∣ next.desiredTime - utils.desiredTime
  later : utils.desiredTime < next.desiredTime
  reached : now ≤ next.desiredTime
  near : next.desiredTime ≤ max now utils.desiredTime + utils.effectivePeriod

theorem Advances.ticking {utils next : SchedulerUtils} {now : ℤ}
    (advances : Advances utils now next) (ticking : Ticking utils) : Ticking next where
  timed := by rw [advances.schedPolicy]; exact ticking.timed
  positive := by rw [advances.effectivePeriod]; exact ticking.positive

/-- The first whole period after a gap ends within a period of it. -/
theorem skip_expired {period gap : ℤ} (positive : 0 < period) (overrun : 0 < gap) :
    gap < period * (gap.tdiv period + 1) ∧ period * (gap.tdiv period + 1) ≤ gap + period := by
  rw [Int.tdiv_eq_ediv_of_nonneg overrun.le, mul_add, mul_one]
  have division := Int.mul_ediv_add_emod gap period
  have remainder := Int.emod_nonneg gap positive.ne'
  have short := Int.emod_lt_of_pos gap positive
  constructor <;> omega

/-- A call without an overrun moves the desired time on by one period. -/
theorem advances_onTime {utils : SchedulerUtils} {now : ℤ} (positive : 0 < utils.effectivePeriod)
    (onTime : now ≤ utils.desiredTime + utils.effectivePeriod) :
    Advances utils now (utils.initDesiredTime (utils.desiredTime + utils.effectivePeriod)) where
  schedPolicy := rfl
  effectivePeriod := rfl
  phase := by simp [initDesiredTime]
  later := by simpa [initDesiredTime] using positive
  reached := onTime
  near := Int.add_le_add_right (le_max_right _ _) _

theorem advances_overrun {utils : SchedulerUtils} {now : ℤ} (positive : 0 < utils.effectivePeriod)
    (overrun : utils.desiredTime + utils.effectivePeriod < now) :
    Advances utils now (utils.initDesiredTime (utils.desiredTime + utils.effectivePeriod +
      utils.effectivePeriod *
        ((now - (utils.desiredTime + utils.effectivePeriod)).tdiv utils.effectivePeriod + 1))) := by
  have gap : 0 < now - (utils.desiredTime + utils.effectivePeriod) := by omega
  obtain ⟨past, within⟩ := skip_expired positive gap
  have reading : now ≤ max now utils.desiredTime := le_max_left _ _
  constructor
  · rfl
  · rfl
  · refine ⟨1 + ((now - (utils.desiredTime + utils.effectivePeriod)).tdiv
      utils.effectivePeriod + 1), ?_⟩
    simp only [initDesiredTime]
    ring
  · simp only [initDesiredTime]
    omega
  · simp only [initDesiredTime]
    omega
  · simp only [initDesiredTime]
    omega

/-- No call fails, and each advances the desired time. -/
theorem executeEndLoopTask_advances {utils : SchedulerUtils} (ticking : Ticking utils) (now : ℤ) :
    ∃ next, utils.executeEndLoopTask now = .ok next ∧ Advances utils now next := by
  have notDeadline : utils.schedPolicy ≠ "SCHED_DEADLINE" := by
    rcases ticking.timed with fifo | other
    · rw [fifo]; decide
    · rw [other]; decide
  have notZero : utils.effectivePeriod ≠ 0 := ticking.positive.ne'
  unfold executeEndLoopTask
  rw [if_neg notDeadline, if_pos ticking.timed, if_neg (not_le.mpr ticking.positive)]
  by_cases overrun : now > utils.desiredTime + utils.effectivePeriod
  · refine ⟨_, ?_, advances_overrun ticking.positive overrun⟩
    simp only [if_pos overrun, divide, if_neg notZero]
    rfl
  · exact ⟨_, if_neg overrun, advances_onTime ticking.positive (not_lt.mp overrun)⟩

/-- What a call computes when it skips periods lies between zero and the desired time that it
may reach. -/
def TicksFit (utils : SchedulerUtils) (now : ℤ) : Prop :=
  let gap := now - (utils.desiredTime + utils.effectivePeriod)
  let missedPeriods := gap.tdiv utils.effectivePeriod + 1
  0 < gap → 0 < missedPeriods ∧ missedPeriods ≤ utils.effectivePeriod * missedPeriods ∧
    utils.effectivePeriod * missedPeriods ≤ now + utils.effectivePeriod ∧
    gap ≤ now + utils.effectivePeriod

theorem ticks_fit {utils : SchedulerUtils} (positive : 0 < utils.effectivePeriod)
    (started : 0 ≤ utils.desiredTime) (now : ℤ) : utils.TicksFit now := by
  unfold TicksFit
  intro gap missedPeriods overrun
  have expired : 0 ≤ gap.tdiv utils.effectivePeriod := Int.tdiv_nonneg overrun.le positive.le
  have within : utils.effectivePeriod * missedPeriods ≤ gap + utils.effectivePeriod :=
    (skip_expired positive overrun).2
  refine ⟨by omega, ?_, by omega, by omega⟩
  exact le_mul_of_one_le_left (by omega) positive

theorem run_append {utils previous : SchedulerUtils} {readings : List ℤ}
    (runs : utils.run readings = .ok previous) (now : ℤ) :
    utils.run (readings ++ [now]) = previous.executeEndLoopTask now := by
  unfold run at runs ⊢
  rw [List.foldlM_append, runs]
  exact bind_pure (previous.executeEndLoopTask now)

/-- The run up to any point succeeds and has moved by whole periods. -/
theorem run_phase {utils : SchedulerUtils} (ticking : Ticking utils) (readings : List ℤ) :
    ∃ last, utils.run readings = .ok last ∧ Ticking last ∧
      last.effectivePeriod = utils.effectivePeriod ∧
      utils.effectivePeriod ∣ last.desiredTime - utils.desiredTime := by
  induction readings using List.reverseRecOn with
  | nil => exact ⟨utils, rfl, ticking, rfl, by simp⟩
  | append_singleton readings now ih =>
    obtain ⟨last, runs, still, period, phase⟩ := ih
    obtain ⟨next, calls, advances⟩ := executeEndLoopTask_advances still now
    refine ⟨next, ?_, advances.ticking still, advances.effectivePeriod.trans period, ?_⟩
    · rw [run_append runs, calls]
    · have step := advances.phase
      rw [period] at step
      simpa using Int.dvd_add step phase

end SchedulerUtils

/-- However the clock reads at the end of each iteration, no call fails, and every
call keeps the phase and leaves the desired time ahead of the clock, by a period at
most. From a desired time that is not negative, what it computes on the way is in range. -/
theorem desiredTime_keeps_phase (utils : SchedulerUtils)
    (timed : utils.schedPolicy = "SCHED_FIFO" ∨ utils.schedPolicy = "SCHED_OTHER")
    (positive : 0 < utils.effectivePeriod) (before : List ℤ) (now : ℤ) :
    ∃ previous next, utils.run before = .ok previous ∧
      utils.run (before ++ [now]) = .ok next ∧
      utils.effectivePeriod ∣ next.desiredTime - utils.desiredTime ∧
      previous.desiredTime < next.desiredTime ∧
      now ≤ next.desiredTime ∧
      next.desiredTime ≤ max now previous.desiredTime + utils.effectivePeriod ∧
      (0 ≤ previous.desiredTime → previous.TicksFit now) := by
  have ticking : SchedulerUtils.Ticking utils := ⟨timed, positive⟩
  obtain ⟨previous, runs, still, period, -⟩ := SchedulerUtils.run_phase ticking before
  obtain ⟨last, runsOn, -, -, phase⟩ := SchedulerUtils.run_phase ticking (before ++ [now])
  obtain ⟨next, calls, advances⟩ := SchedulerUtils.executeEndLoopTask_advances still now
  rw [SchedulerUtils.run_append runs, calls] at runsOn ⊢
  obtain rfl := Except.ok.inj runsOn
  exact ⟨previous, _, runs, rfl, phase, advances.later, advances.reached,
    period ▸ advances.near, fun started => SchedulerUtils.ticks_fit still.positive started now⟩

theorem desiredTime_keeps_phase_late :
    ∃ previous next, (SchedulerUtils.mk "SCHED_FIFO" 10 0).run [3] = .ok previous ∧
      (SchedulerUtils.mk "SCHED_FIFO" 10 0).run ([3] ++ [40]) = .ok next ∧
      (10 : ℤ) ∣ next.desiredTime - 0 ∧ previous.desiredTime < next.desiredTime ∧
      40 ≤ next.desiredTime ∧ next.desiredTime ≤ max 40 previous.desiredTime + 10 ∧
      (0 ≤ previous.desiredTime → previous.TicksFit 40) :=
  desiredTime_keeps_phase (SchedulerUtils.mk "SCHED_FIFO" 10 0) (by decide) (by decide) [3] 40

end Dls2.Application
