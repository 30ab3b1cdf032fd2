import Dls2.Lib.Dialogue

/-!
# Waiting for a condition

`utils::wait` polls a condition until it holds, a flag is set or the time is over.
`StateMachineWatcher` waits with it for the state of an application and for an application.

The clock is read after each sleep, which is at least as long as it was asked for. The answer
to `sleepFor` is by how much more it has advanced. The source reads `high_resolution_clock`,
which is taken to be steady here: where it is the system clock, somebody may set it.
-/

namespace Dls2.Utils

open Dialogue

universe u w

variable {Question : Type u} {Answer : Question → Type} {Error : Type w}

/-- What a waiting thread uses of its process. -/
structure Waiting {Question : Type u} (Answer : Question → Type) (Error : Type w) where
  stopWait : Program Answer Error Bool
  sleepFor : ℕ → Program Answer Error ℕ
  cerr : String → Program Answer Error Unit

variable (process : Waiting Answer Error)

/-- The loop of `utils::wait` when `elapsed` milliseconds have passed. -/
def waitFrom (func : Program Answer Error Bool) (timeoutMs periodMs : ℕ)
    (positive : 0 < periodMs) (elapsed : ℕ) : Program Answer Error Bool := do
  let stopped ← process.stopWait
  if stopped then return false
  else if _ : elapsed < timeoutMs then
    let ready ← func
    if ready then return true
    else
      let more ← process.sleepFor periodMs
      waitFrom func timeoutMs periodMs positive (elapsed + periodMs + more)
  else return false
termination_by timeoutMs - elapsed
decreasing_by omega

/-- `utils::wait` -/
def wait (func : Program Answer Error Bool) (timeoutMs periodMs : ℕ) (positive : 0 < periodMs) :
    Program Answer Error Bool :=
  waitFrom process func timeoutMs periodMs positive 0

def waitPollPeriodMs : ℕ := 10

theorem waitPollPeriodMs_pos : 0 < waitPollPeriodMs := by decide

/-- `StateMachineWatcher::waitState` -/
def waitState (findState : String → String → Program Answer Error Bool) (app state : String)
    (logTimeout : Bool) : Program Answer Error Bool := do
  let reached ← wait process (findState app state) 5000 waitPollPeriodMs waitPollPeriodMs_pos
  let stopped ← process.stopWait
  if !reached && !stopped && logTimeout then process.cerr (app ++ " not found in state " ++ state)
  return reached && !stopped

/-- `StateMachineWatcher::waitApp` -/
def waitApp (findApp : String → Program Answer Error Bool) (app : String) :
    Program Answer Error Bool := do
  let found ← wait process (findApp app) 5000 waitPollPeriodMs waitPollPeriodMs_pos
  if found then return true
  else
    let stopped ← process.stopWait
    if stopped then return true
    else
      process.cerr (app ++ " not found")
      return false

variable {process} {rules : Rules Answer}

/-- The rule of `waitFrom`: `Inv` holds whenever the flag is asked for, with the time that has
passed, and the loop ends by the flag, by the time or by the condition. -/
theorem meets_waitFrom {func : Program Answer Error Bool} {timeoutMs periodMs : ℕ}
    {positive : 0 < periodMs} {aim : List (Said Answer) → Except Error Bool → Prop}
    (Inv Polls : ℕ → List (Said Answer) → Prop)
    (asks : ∀ elapsed past, Inv elapsed past → process.stopWait.Meets rules
      (Program.Either (aim · (.ok false)) (Polls elapsed) (aim · <| .error ·)) past)
    (late : ∀ elapsed past, timeoutMs ≤ elapsed → Polls elapsed past → aim past (.ok false))
    (polls : ∀ elapsed past, elapsed < timeoutMs → Polls elapsed past → func.Meets rules
      (Program.Either (aim · (.ok true))
        ((process.sleepFor periodMs).Meets rules fun later result => match result with
          | .ok more => Inv (elapsed + periodMs + more) later
          | .error error => aim later (.error error))
        (aim · <| .error ·)) past)
    {elapsed : ℕ} {past : List (Said Answer)} (start : Inv elapsed past) :
    (waitFrom process func timeoutMs periodMs positive elapsed).Meets rules aim past := by
  induction elapsed using waitFrom.induct timeoutMs periodMs positive generalizing past with
  | case1 elapsed ih =>
    rw [waitFrom]
    refine Program.Meets.bind (asks elapsed past start) (fun asked stopped answered => ?_)
      fun asked error thrown => thrown
    cases stopped with
    | true => exact answered
    | false =>
      by_cases early : elapsed < timeoutMs
      · simp only [Bool.false_eq_true, if_false, dif_pos early]
        refine Program.Meets.bind (polls elapsed asked early answered)
          (fun polled ready told => ?_) fun polled error thrown => thrown
        cases ready with
        | true => exact told
        | false =>
          simp only [Bool.false_eq_true, if_false]
          exact Program.Meets.bind told (fun slept more held => ih early more held)
            fun slept error thrown => thrown
      · simp only [Bool.false_eq_true, if_false, dif_neg early]
        exact late elapsed asked (Nat.le_of_not_lt early) answered

end Dls2.Utils
