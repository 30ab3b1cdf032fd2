import Dls2.Application.Requests

/-!
# Shutting down a paused application

`PeriodicApp::run` and `PeriodicApp::deactivating` test the quit request in their
loop guards and wait in `pauseExecution` at the end of the loop body. The wait
itself looks at `is_paused` only. `PeriodicApp::close` ends a pause, and its
comment says that it is there for components that have been paused, but the
thread gets to `close` only after both loops have been left.

A quit request that finds the application unpaused, or in front of a guard, is
served. One that finds it paused behind a guard is not.
-/

namespace Dls2.Application

open Dls2.StateMachine Dls2.Transition

/-- The rest of a loop body: the guard has been passed and `isPaused` is still to
be tested, or `pauseExecution` has been entered. -/
def Pc.behindGuard : Pc → Bool
  | .runCallback | .runCheckFailure | .runCheckPaused _ | .runPauseExecution _
  | .deactivationCallback | .deactivatingCheckPaused _ | .deactivatingPauseExecution _ => true
  | _ => false

/-- The thread is inside `pauseExecution` and its wait condition is false. -/
def Waiting (app : App) : Prop :=
  ((∃ failure, app.pc = .runPauseExecution failure) ∨
    ∃ deactivated, app.pc = .deactivatingPauseExecution deactivated) ∧ app.isPaused = true

/-- An application told to shut down is not waiting in its pause, or one of its
own steps ends the pause. -/
def NotBlocked (app : App) : Prop :=
  app.sm.isRaised .quitRequest = true → ¬ Waiting app ∨
    ∃ result next, app.step .periodic result = some next ∧ next.isPaused = false

/-- A pause and a quit request do not meet behind a guard. -/
def StopsUnpaused (app : App) : AppLabel → Prop
  | .request event => event = .quitRequest → (app.sm.find event).isSome = true →
      app.pc.behindGuard = true → app.isPaused = false
  | .pause => app.pc.behindGuard = true → app.sm.isRaised .quitRequest = false
  | .thread _ | .setFailure | .resume => True

instance (app : App) : (label : AppLabel) → Decidable (StopsUnpaused app label)
  | .request event => inferInstanceAs (Decidable (event = .quitRequest →
      (app.sm.find event).isSome = true → app.pc.behindGuard = true → app.isPaused = false))
  | .pause => inferInstanceAs (Decidable (app.pc.behindGuard = true →
      app.sm.isRaised .quitRequest = false))
  | .thread _ | .setFailure | .resume => isTrue trivial

/-- The invariant of such runs: behind a guard there is no pause together with a
quit request. -/
def NoPauseOnQuit (app : App) : Prop :=
  app.sm.isRaised .quitRequest = true → app.pc.behindGuard = true → app.isPaused = false

/-- The activities start in front of their guards. -/
theorem Pc.behindGuard_activity (kind : AppKind) (state : AppState) :
    (App.activity kind state).behindGuard = false := by
  cases state <;> cases kind <;> rfl

/-- A guard lets the thread through only if it sees no quit request. -/
theorem behindGuard_of_move {kind : AppKind} {result : Bool} {app : App} {pc : Pc}
    (moves : app.move kind result = some pc) (behind : pc.behindGuard = true) :
    app.pc.behindGuard = true ∨ app.sm.isRaised .quitRequest = false := by
  cases place : app.pc with
  | _ =>
    simp only [App.move, place] at moves
    repeat' split at moves
    all_goals simp only [Option.some.injEq, reduceCtorEq] at moves
    all_goals
      subst moves
      simp_all [Pc.behindGuard]

/-- The thread keeps the invariant. -/
theorem NoPauseOnQuit.thread {kind : AppKind} {result : Bool} {app next : App} {state : AppState}
    (holds : NoPauseOnQuit app) (coherent : app.Coherent state)
    (taken : app.step kind result = some next) : NoPauseOnQuit next := by
  intro raised behind
  cases coherent.effect taken with
  | entered place =>
    exact absurd (behind.symm.trans (Pc.behindGuard_activity kind state)) (by simp)
  | moved moves inside =>
    obtain before | unraised := behindGuard_of_move moves behind
    · exact holds raised before
    · exact absurd (raised.symm.trans unraised) (by simp)
  | consumed | lookedUp | wrote | ended | closed | announced | stopped =>
    exact absurd behind (by simp [Pc.behindGuard])

/-- Every step that keeps pauses and quit requests apart keeps the invariant. -/
theorem NoPauseOnQuit.step {kind : AppKind} {app next : App} {label : AppLabel} {state : AppState}
    (holds : NoPauseOnQuit app) (coherent : app.Coherent state) (apart : StopsUnpaused app label)
    (taken : AppStep kind app label next) : NoPauseOnQuit next := by
  cases taken with
  | thread steps => exact holds.thread coherent steps
  | @request event async =>
    intro raised behind
    rw [Machine.isRaised_raiseEvent] at raised
    split at raised
    · exact apart (Eq.symm (by simp_all)) (by simp_all) behind
    · exact holds raised behind
  | setFailure => exact holds
  | pause =>
    intro raised behind
    exact absurd (raised.symm.trans (apart behind)) (by simp)
  | resume =>
    intro _ _
    rfl

/-- The invariant holds along every run that keeps pauses and quit requests apart. -/
theorem reachable_noPauseOnQuit {app : App}
    (reachable : (appSystem .periodic).ReachableUnder StopsUnpaused app) : NoPauseOnQuit app := by
  apply reachable_invariant reachable NoPauseOnQuit
  · simp [NoPauseOnQuit]
  · intro before label next state coherent holds apart taken
    exact holds.step coherent apart taken

/-- The wait is behind a guard. -/
theorem Waiting.behindGuard {app : App} (waiting : Waiting app) : app.pc.behindGuard = true := by
  obtain ⟨_, place⟩ | ⟨_, place⟩ := waiting.1 <;> simp [place, Pc.behindGuard]

/-- A waiting thread has no step at all. -/
theorem Waiting.blocked {app : App} (waiting : Waiting app) (kind : AppKind) (result : Bool) :
    app.step kind result = none := by
  obtain ⟨⟨_, place⟩ | ⟨_, place⟩, paused⟩ := waiting <;> simp [App.step, App.move, place, paused]

/-- A waiting application that was told to shut down is blocked. -/
theorem Waiting.not_notBlocked {app : App} (waiting : Waiting app)
    (raised : app.sm.isRaised .quitRequest = true) : ¬ NotBlocked app := by
  intro free
  obtain runs | ⟨result, next, taken, _⟩ := free raised
  · exact runs waiting
  · exact absurd ((waiting.blocked .periodic result).symm.trans taken) (by simp)

/-- One move of the thread on the way to a state. -/
theorem leads_move {app : App} {goal : App → Prop} (result : Bool) (pc : Pc)
    (moves : app.move .periodic result = some pc)
    (later : (appSystem .periodic).LeadsTo AppLabel.IsThread goal (app.goto pc)) :
    (appSystem .periodic).LeadsTo AppLabel.IsThread goal app :=
  .step _ ⟨result, rfl⟩ (App.step_of_move moves) later

section Blocks

variable {app : App} (paused : app.isPaused = true)
  (raised : app.sm.isRaised .quitRequest = true)
include paused raised

/-- At the test of `isPaused` in `run` the thread turns into the wait. -/
theorem blocks_of_runCheckPaused {failure : Bool} (place : app.pc = .runCheckPaused failure) :
    (appSystem .periodic).LeadsTo AppLabel.IsThread (fun app => ¬ NotBlocked app) app :=
  leads_move true (.runPauseExecution failure)
    (by simp [App.move, place, paused])
    (.here (Waiting.not_notBlocked ⟨.inl ⟨failure, rfl⟩, paused⟩ raised))

/-- So it does in `deactivating`. -/
theorem blocks_of_deactivatingCheckPaused {deactivated : Bool}
    (place : app.pc = .deactivatingCheckPaused deactivated) :
    (appSystem .periodic).LeadsTo AppLabel.IsThread (fun app => ¬ NotBlocked app) app :=
  leads_move true (.deactivatingPauseExecution deactivated)
    (by simp [App.move, place, paused])
    (.here (Waiting.not_notBlocked ⟨.inr ⟨deactivated, rfl⟩, paused⟩ raised))

/-- A paused thread behind a guard goes on into the wait, whatever the user
functions return. -/
theorem blocks_of_behindGuard (behind : app.pc.behindGuard = true) :
    (appSystem .periodic).LeadsTo AppLabel.IsThread (fun app => ¬ NotBlocked app) app := by
  cases place : app.pc with
  | runCallback =>
    apply leads_move true .runCheckFailure (by simp [App.move, place])
    apply leads_move true (.runCheckPaused app.failure) rfl
    exact blocks_of_runCheckPaused paused raised rfl
  | runCheckFailure =>
    apply leads_move true (.runCheckPaused app.failure) (by simp [App.move, place])
    exact blocks_of_runCheckPaused paused raised rfl
  | runCheckPaused failure => exact blocks_of_runCheckPaused paused raised place
  | runPauseExecution failure =>
    exact .here (Waiting.not_notBlocked ⟨.inl ⟨failure, place⟩, paused⟩ raised)
  | deactivationCallback =>
    apply leads_move true (.deactivatingCheckPaused true) (by simp [App.move, place])
    exact blocks_of_deactivatingCheckPaused paused raised rfl
  | deactivatingCheckPaused deactivated =>
    exact blocks_of_deactivatingCheckPaused paused raised place
  | deactivatingPauseExecution deactivated =>
    exact .here (Waiting.not_notBlocked ⟨.inr ⟨deactivated, place⟩, paused⟩ raised)
  | _ => simp [place, Pc.behindGuard] at behind

end Blocks

/-- A step that lets a pause and a quit request meet behind a guard lets the
thread alone block itself. -/
theorem blocks_of_not_stopsUnpaused {app next : App} {label : AppLabel}
    (together : ¬ StopsUnpaused app label) (taken : appStep .periodic app label = some next) :
    (appSystem .periodic).LeadsTo AppLabel.IsThread (fun app => ¬ NotBlocked app) next := by
  cases label with
  | request event =>
    simp only [StopsUnpaused, Classical.not_imp, Bool.not_eq_false] at together
    obtain ⟨rfl, accepted, behind, paused⟩ := together
    simp only [appStep] at taken
    split at taken
    · obtain rfl := Option.some.inj taken
      exact blocks_of_behindGuard paused (by simp [Machine.isRaised_raiseEvent, accepted]) behind
    · cases taken
  | pause =>
    simp only [StopsUnpaused, Classical.not_imp, Bool.not_eq_false] at together
    simp only [appStep, if_true, Option.some.injEq] at taken
    subst taken
    exact blocks_of_behindGuard rfl together.2 together.1
  | thread result | setFailure | resume => exact absurd trivial together

/-- Other steps than the `continue` command leave a waiting application that was
told to shut down as it is. -/
theorem Waiting.step {app next : App} {label : AppLabel} (waiting : Waiting app)
    (raised : app.sm.isRaised .quitRequest = true) (other : label ≠ .resume)
    (taken : appStep .periodic app label = some next) :
    Waiting next ∧ next.sm.isRaised .quitRequest = true := by
  cases appStep_cases taken with
  | thread steps => simp [waiting.blocked] at steps
  | request async => exact ⟨waiting, by simp [Machine.isRaised_raiseEvent, raised]⟩
  | setFailure => exact ⟨waiting, raised⟩
  | pause => exact ⟨⟨waiting.1, rfl⟩, raised⟩
  | resume => exact absurd rfl other

/-- Without a `continue` command the wait never ends. -/
theorem Waiting.runFrom {app final : App} {labels : List AppLabel} (waiting : Waiting app)
    (raised : app.sm.isRaised .quitRequest = true) (others : AppLabel.resume ∉ labels)
    (continued : (appSystem .periodic).runFrom app labels = some final) :
    Waiting final ∧ final.sm.isRaised .quitRequest = true := by
  induction labels generalizing app with
  | nil => exact Option.some.inj continued ▸ ⟨waiting, raised⟩
  | cons label rest ih =>
    obtain ⟨next, taken, later⟩ := System.runFrom_cons_iff.mp continued
    have different : label ≠ .resume := Ne.symm (List.ne_of_not_mem_cons others)
    obtain ⟨waiting, raised⟩ := waiting.step raised different taken
    exact ih waiting raised (List.not_mem_of_not_mem_cons others) later

/-- A periodic application whose pauses and quit requests keep apart is not
blocked when told to shut down. If they meet behind a guard, the thread can go on
into a wait that only the `continue` command ends. -/
theorem notBlocked_of_stopsUnpaused (app : App) :
    ((appSystem .periodic).ReachableUnder StopsUnpaused app → NotBlocked app) ∧
    ∀ label next, (appSystem .periodic).Reachable app → ¬ StopsUnpaused app label →
      (appSystem .periodic).step app label = some next →
      (appSystem .periodic).LeadsTo AppLabel.IsThread (fun app => ¬ NotBlocked app) next := by
  constructor
  · intro reachable raised
    left
    intro waiting
    have apart := reachable_noPauseOnQuit reachable raised waiting.behindGuard
    exact absurd (waiting.2.symm.trans apart) (by simp)
  · intro label next _ together taken
    exact blocks_of_not_stopsUnpaused together taken

/-- A periodic application is activated and paused while it is in `run(time)`. -/
def pausedInRun : List AppLabel :=
  List.replicate 3 (.thread true) ++ [.request .activationRequest] ++
    List.replicate 15 (.thread true) ++ [.pause] ++ List.replicate 3 (.thread true)

/-- Continuing before the quit request keeps the two apart; the quit request
alone does not. -/
theorem resumed_before_quit :
    (∃ app, app.sm.isRaised .quitRequest = true ∧ NotBlocked app) ∧
      ∃ next, next.sm.isRaised .quitRequest = true ∧
        (appSystem .periodic).LeadsTo AppLabel.IsThread (fun app => ¬ NotBlocked app) next := by
  have resumed : ((appSystem .periodic).run (pausedInRun ++ [.resume, .request .quitRequest])).any
      (fun app => app.sm.isRaised .quitRequest) = true := by
    decide
  have admitted : (appSystem .periodic).AdmitsFrom StopsUnpaused (appSystem .periodic).initial
      (pausedInRun ++ [.resume, .request .quitRequest]) := by
    decide
  obtain ⟨app, reachable, raised⟩ := System.exists_reachableUnder_of_run admitted resumed
  constructor
  · exact ⟨app, raised, (notBlocked_of_stopsUnpaused app).1 reachable⟩
  have replay : ((appSystem .periodic).run pausedInRun).any (fun app =>
      (app.pc.behindGuard && app.isPaused && (app.sm.find .quitRequest).isSome) &&
      ((appSystem .periodic).step app (.request .quitRequest)).any fun next =>
        next.sm.isRaised .quitRequest) = true := by
    decide
  obtain ⟨app, reachable, passes⟩ := System.exists_reachable_of_run replay
  simp only [Bool.and_eq_true, Option.any_eq_true] at passes
  obtain ⟨⟨⟨behind, paused⟩, accepted⟩, next, taken, raised⟩ := passes
  refine ⟨next, raised, (notBlocked_of_stopsUnpaused app).2 (.request .quitRequest) next reachable
    (fun apart => ?_) taken⟩
  exact absurd (paused.symm.trans (apart rfl accepted behind)) (by simp)

/-- A paused application that is then told to quit waits, its thread has no step,
and only a `continue` command can change that. -/
theorem paused_blocks_quit : ∃ app, (appSystem .periodic).Reachable app ∧
    app.sm.isRaised .quitRequest = true ∧ ¬ NotBlocked app ∧
    ∀ labels final, AppLabel.resume ∉ labels →
      (appSystem .periodic).runFrom app labels = some final → ¬ NotBlocked final := by
  have passes : ((appSystem .periodic).run (pausedInRun ++ [.request .quitRequest])).any
      (fun app => app.pc == .runPauseExecution false && app.isPaused &&
        app.sm.isRaised .quitRequest) = true := by
    decide
  obtain ⟨app, reachable, holds⟩ := System.exists_reachable_of_run passes
  simp only [Bool.and_eq_true, beq_iff_eq] at holds
  obtain ⟨⟨place, paused⟩, raised⟩ := holds
  have waiting : Waiting app := ⟨.inl ⟨false, place⟩, paused⟩
  refine ⟨app, reachable, raised, waiting.not_notBlocked raised, ?_⟩
  intro labels final others continued
  obtain ⟨waiting, raised⟩ := waiting.runFrom raised others continued
  exact waiting.not_notBlocked raised

end Dls2.Application
