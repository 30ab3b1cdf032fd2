import Dls2.Application.Requests

/-!
# A quit request on its way to QUIT

Between the raise of `quit_request` and QUIT the thread may still pass through
ACTIVATION, RUN, FAIL and DEACTIVATION, because other requests are tested first.
The flag survives all of them: only `nextState(quit_request)` clears it, and what
remains of that call is a table lookup and the write of QUIT.

A user function is started only behind a guard that has just read the flag as
not raised, so the raise leaves room for one more call.
-/

namespace Dls2.Application

open Dls2.StateMachine Dls2.Transition

/-- `nextState(quit_request)` has consumed the flag and not yet written QUIT. -/
def EntersQuit (app : App) : Prop :=
  app.pc = .lookup .quitRequest ∨ app.pc = .write .quitRequest (some .quit)

/-- The quit request is raised, being served, or served. -/
def QuitPending (app : App) : Prop :=
  app.sm.isRaised .quitRequest = true ∨ EntersQuit app ∨ app.sm.state = some .quit

/-- The guard of a user function has been passed; the next step calls it. -/
def Pc.startsCallback : Pc → Bool
  | .checkActivation | .runCallback | .deactivationCallback => true
  | _ => false

/-- Steps in which the thread starts `checkActivation()`, `run(time)` or
`deactivation(time)`. -/
def startsCallback (app : App) : AppLabel → Bool
  | .thread _ => app.pc.startsCallback
  | _ => false

/-- One call is still due when its guard has been passed. -/
def callbacksDue (app : App) : Nat := if app.pc.startsCallback then 1 else 0

/-- No activity starts with a call of a user function. -/
theorem Pc.startsCallback_activity (kind : AppKind) (state : AppState) :
    (App.activity kind state).startsCallback = false := by
  cases state <;> cases kind <;> rfl

/-- While a quit request is pending no further guard lets the thread through to a
user function. -/
theorem startsCallback_move {kind : AppKind} {result : Bool} {app : App} {state : AppState}
    {pc : Pc} (coherent : app.Coherent state) (pending : QuitPending app)
    (moves : app.move kind result = some pc) : pc.startsCallback = false := by
  have located := coherent.located
  have current := coherent.current
  cases place : app.pc with
  | _ =>
    simp only [place, Pc.within, beq_iff_eq] at located
    simp only [App.move, place] at moves
    repeat' split at moves
    all_goals simp only [Option.some.injEq, reduceCtorEq] at moves
    all_goals
      subst moves
      simp_all [Pc.startsCallback, QuitPending, EntersQuit]

/-- The thread keeps a quit request pending, and each call it starts was due. -/
theorem quitPending_thread {kind : AppKind} {result : Bool} {app next : App} {state : AppState}
    (coherent : app.Coherent state) (pending : QuitPending app)
    (taken : app.step kind result = some next) :
    QuitPending next ∧ next.pc.startsCallback = false := by
  cases coherent.effect taken with
  | @consumed event target place async known =>
    refine ⟨?_, rfl⟩
    by_cases quits : event = .quitRequest
    · exact .inr (.inl (.inl (by simp [quits])))
    · obtain raised | enters | quitting := pending
      · exact .inl (by simpa [Machine.isRaised_consumeEvent, Ne.symm quits] using raised)
      · simp [EntersQuit, place] at enters
      · exact .inr (.inr (by simpa using quitting))
  | @lookedUp event target place known =>
    refine ⟨?_, rfl⟩
    obtain raised | enters | quitting := pending
    · exact .inl raised
    · obtain rfl : event = .quitRequest := by simpa [EntersQuit, place] using enters
      obtain rfl := target_of_quitRequest known
      exact .inr (.inl (.inr rfl))
    · exact .inr (.inr quitting)
  | @wrote event target place known =>
    refine ⟨?_, rfl⟩
    obtain raised | enters | quitting := pending
    · exact .inl (by simpa using raised)
    · obtain ⟨rfl, rfl⟩ : event = .quitRequest ∧ target = .quit := by
        simpa [EntersQuit, place] using enters
      exact .inr (.inr rfl)
    · obtain rfl : state = .quit := by simpa [coherent.current] using quitting
      simp at known
  | ended place =>
    exact ⟨pending.imp id (Or.imp (by simp [EntersQuit, place]) id), rfl⟩
  | entered place =>
    exact ⟨pending.imp id (Or.imp (by simp [EntersQuit, place]) id),
      Pc.startsCallback_activity kind state⟩
  | @moved pc moves inside =>
    refine ⟨?_, startsCallback_move coherent pending moves⟩
    obtain raised | enters | quitting := pending
    · exact .inl raised
    · obtain place | place := enters <;> simp [App.move, place] at moves
    · exact .inr (.inr quitting)
  | closed place quitting | announced place quitting | stopped place quitting =>
    exact ⟨.inr (.inr (by simp [coherent.current, quitting])), rfl⟩

/-- What one step of the application or its surroundings does to a pending quit
request and to the calls that are due. -/
theorem quitPending_step {kind : AppKind} {app next : App} {label : AppLabel}
    (holds : (∃ state, app.Coherent state) ∧ QuitPending app)
    (taken : (appSystem kind).step app label = some next) :
    ((∃ state, next.Coherent state) ∧ QuitPending next) ∧
      (if startsCallback app label then 1 else 0) + callbacksDue next ≤ callbacksDue app := by
  obtain ⟨⟨state, coherent⟩, pending⟩ := holds
  suffices kept : QuitPending next ∧
      (if startsCallback app label then 1 else 0) + callbacksDue next ≤ callbacksDue app from
    ⟨⟨coherent.appStep taken, kept.1⟩, kept.2⟩
  cases appStep_cases taken with
  | thread steps =>
    obtain ⟨kept, guarded⟩ := quitPending_thread coherent pending steps
    have spent : callbacksDue next = 0 := by simp [callbacksDue, guarded]
    constructor
    · exact kept
    · rw [spent]
      exact Nat.le_refl (callbacksDue app)
  | request async =>
    constructor
    · obtain raised | enters | quitting := pending
      · exact .inl (by simp [Machine.isRaised_raiseEvent, raised])
      · exact .inr (.inl enters)
      · exact .inr (.inr (by simpa using quitting))
    · simp [startsCallback, callbacksDue]
  | setFailure | pause | resume => exact ⟨pending, by simp [startsCallback, callbacksDue]⟩

/-- From a raised quit request on, in every continuation the request is raised,
being served by `nextState`, or served, and a user function is started at most
once more, if its guard had been passed before. -/
theorem quitRequest_pending_until_quit (kind : AppKind) (before after : App)
    (labels : List AppLabel) (reachable : (appSystem kind).Reachable before)
    (raised : before.sm.isRaised .quitRequest = true)
    (continued : (appSystem kind).runFrom before labels = some after) :
    (after.sm.isRaised .quitRequest = true ∨ EntersQuit after ∨ after.sm.state = some .quit) ∧
      (appSystem kind).countFrom startsCallback before labels ≤ callbacksDue before := by
  have holds : (∃ state, before.Coherent state) ∧ QuitPending before :=
    ⟨reachable_coherent reachable, .inl raised⟩
  constructor
  · have kept := System.runFrom_invariant continued
      (fun app => (∃ state, app.Coherent state) ∧ QuitPending app) holds
      fun holds taken => (quitPending_step holds taken).1
    exact kept.2
  · exact System.countFrom_le _ callbacksDue quitPending_step holds continued

/-- A periodic application is activated, and told to quit when the guards of `run`
have just been passed. -/
def quitBehindGuards : List AppLabel :=
  List.replicate 3 (.thread true) ++ [.request .activationRequest] ++
    List.replicate 15 (.thread true) ++ [.request .quitRequest]

/-- One more `run(time)` is started on the way to QUIT, as the bound admits. -/
theorem quitRequest_behind_guards : ∃ before after,
    (appSystem .periodic).run quitBehindGuards = some before ∧
      before.sm.isRaised .quitRequest = true ∧ after.sm.state = some .quit ∧
      (appSystem .periodic).countFrom startsCallback before
        (List.replicate 10 (.thread true)) = 1 ∧
      (after.sm.isRaised .quitRequest = true ∨ EntersQuit after ∨
        after.sm.state = some .quit) ∧
      (appSystem .periodic).countFrom startsCallback before
        (List.replicate 10 (.thread true)) ≤ callbacksDue before := by
  have replay : ((appSystem .periodic).run quitBehindGuards).any (fun before =>
      (before.sm.isRaised .quitRequest && (appSystem .periodic).countFrom startsCallback before
        (List.replicate 10 (.thread true)) == 1) &&
      ((appSystem .periodic).runFrom before (List.replicate 10 (.thread true))).any fun after =>
        after.sm.state == some .quit) = true := by
    decide
  obtain ⟨before, replayed, passes⟩ := (Option.any_eq_true _ _).mp replay
  simp only [Bool.and_eq_true, beq_iff_eq, Option.any_eq_true] at passes
  obtain ⟨⟨raised, once⟩, after, continued, quits⟩ := passes
  exact ⟨before, after, replayed, raised, quits, once, quitRequest_pending_until_quit .periodic
    before after _ (System.ReachableUnder.initial.replay replayed) raised continued⟩

/-- The flag itself is cleared before QUIT is written: `nextState` consumes the
request first, and the machine is still in RUN. -/
theorem quitRequest_cleared_before_quit : ∃ before after,
    (appSystem .periodic).Reachable before ∧ before.sm.isRaised .quitRequest = true ∧
      (appSystem .periodic).runFrom before (List.replicate 8 (.thread true)) = some after ∧
      after.sm.isRaised .quitRequest = false ∧ after.sm.state = some .run := by
  have replay : ((appSystem .periodic).run quitBehindGuards).any (fun before =>
      before.sm.isRaised .quitRequest &&
      ((appSystem .periodic).runFrom before (List.replicate 8 (.thread true))).any fun after =>
        !after.sm.isRaised .quitRequest && after.sm.state == some .run) = true := by
    decide
  obtain ⟨before, replayed, passes⟩ := (Option.any_eq_true _ _).mp replay
  simp only [Bool.and_eq_true, Bool.not_eq_true', beq_iff_eq, Option.any_eq_true] at passes
  obtain ⟨raised, after, continued, cleared, running⟩ := passes
  exact ⟨before, after, System.ReachableUnder.initial.replay replayed, raised, continued, cleared,
    running⟩

end Dls2.Application
