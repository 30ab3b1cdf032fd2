import Dls2.Application.Requests

/-!
# What has happened in a run

The state machine has no memory about what user functions returned, so a record of the run
is kept beside it: what `checkActivation` and `deactivation(time)` returned last, whether the
machine has been in IDLE since, and whether `setFailure` has been called since it entered
ACTIVATION. Each activity decides alone how it is left; the record ties these decisions
together.
-/

namespace Dls2.Application

open Dls2.StateMachine Dls2.Transition

/-- Steps of a periodic application. A derived class can also assign the protected member
`failure`, so that `checkFailure` can return anything. -/
inductive PeriodicLabel where
  | app (label : AppLabel)
  | assignFailure (failure : Bool)
deriving DecidableEq, Repr

def periodicStep (app : App) : PeriodicLabel → Option App
  | .app label => appStep .periodic app label
  | .assignFailure failure => some { app with failure }

def periodicApp : System App PeriodicLabel where
  initial := App.new
  step := periodicStep

/-- A record of the run. `none` stands for a function that has not been called yet. -/
structure AppHistory where
  /-- `setFailure` has been called since the machine entered ACTIVATION. -/
  failureSet : Bool
  /-- What `checkActivation` returned last. -/
  checkActivation : Option Bool
  /-- The machine has been in IDLE since then. -/
  idleSince : Bool
  /-- What `deactivation(time)` returned last. -/
  deactivation : Option Bool
deriving DecidableEq, Repr

namespace AppHistory

def new : AppHistory := ⟨false, none, false, none⟩

/-- What the user function at a place returns in this step, if it is called. -/
def returned (app : App) (place : Pc) : PeriodicLabel → Option Bool
  | .app (.thread result) => if app.pc = place then some result else none
  | _ => none

/-- The step takes the machine to the state. -/
def enters (app next : App) (state : AppState) : Bool :=
  app.sm.state != some state && next.sm.state == some state

def record (app : App) (label : PeriodicLabel) (next : App) (history : AppHistory) :
    AppHistory where
  failureSet := label == .app .setFailure || (history.failureSet && !enters app next .activation)
  checkActivation := (returned app .checkActivation label).or history.checkActivation
  idleSince := (returned app .checkActivation label).isNone &&
    (history.idleSince || next.sm.state == some .idle)
  deactivation := (returned app .deactivationCallback label).or history.deactivation

/-- The last `checkActivation` returned true, and the machine has not been in IDLE since. -/
def Activated (history : AppHistory) : Prop :=
  history.checkActivation = some true ∧ history.idleSince = false

end AppHistory

/-- Runs of a periodic application with their record. -/
def recordedApp : System (App × AppHistory) PeriodicLabel :=
  periodicApp.withHistory .new AppHistory.record

namespace Pc

/-- The thread is bound for RUN. -/
def activates : Pc → Bool
  | .activationExit activate => activate
  | .lookup event | .write event _ => event == .activated
  | _ => false

/-- `deactivation(time)` has returned true, and the thread is bound for IDLE unless there is
a quit request. -/
def deactivates : Pc → Bool
  | .deactivatingGuard deactivated | .deactivatingCheckPaused deactivated
  | .deactivatingPauseExecution deactivated | .deactivationTestQuit deactivated => deactivated
  | .lookup event | .write event _ => event == .deactivated
  | _ => false

/-- `checkFailure` has returned true, and the thread is bound for FAIL. -/
def fails : Pc → Bool
  | .runGuardDeactivation failure | .runGuardQuit failure | .runCheckPaused failure
  | .runPauseExecution failure | .runExit failure => failure
  | .lookup event | .write event _ => event == .failure
  | _ => false

end Pc

/-- What has bound the thread for a state, if it is bound: it was bound before, or a user
function has just returned true. -/
structure BoundBy (app : App) (label : PeriodicLabel) (next : App) : Prop where
  activated : next.pc.activates = true →
    app.pc.activates = true ∨ AppHistory.returned app .checkActivation label = some true
  deactivated : next.pc.deactivates = true →
    app.pc.deactivates = true ∨ AppHistory.returned app .deactivationCallback label = some true
  failed : next.pc.fails = true → app.pc.fails = true ∨ app.failure = true

section Steps

variable {app next : App} {label : PeriodicLabel} {state : AppState}

theorem boundBy_of_move {result : Bool} {pc : Pc}
    (moves : app.move .periodic result = some pc) :
    BoundBy app (.app (.thread result)) (app.goto pc) := by
  cases place : app.pc with
  | _ =>
    simp only [App.move, place] at moves
    repeat' split at moves
    all_goals first
      | (obtain rfl := Option.some.inj moves
         constructor <;> simp_all [Pc.activates, Pc.deactivates, Pc.fails, AppHistory.returned])
      | cases moves

/-- A place that is not bound for a state has been bound by nothing. -/
theorem boundBy_of_free (activated : next.pc.activates = false)
    (deactivated : next.pc.deactivates = false) (failed : next.pc.fails = false) :
    BoundBy app label next := by
  constructor <;> simp_all

theorem boundBy_of_effect {result : Bool} (effect : app.Effect .periodic result state next) :
    BoundBy app (.app (.thread result)) next := by
  cases effect with
  | @consumed event target place async known =>
    apply boundBy_of_free
    all_goals cases event <;> first | rfl | cases async
  | lookedUp place known =>
    constructor <;> exact fun bound => .inl (by rw [place]; exact bound)
  | moved moves located => exact boundBy_of_move moves
  | entered place => cases state <;> exact boundBy_of_free rfl rfl rfl
  | wrote | ended | closed | announced | stopped => exact boundBy_of_free rfl rfl rfl

/-- Where the machine is after a step: where it was, or where `nextState` has been told to
go. -/
structure Arrives (app : App) (state : AppState) (label : PeriodicLabel) (next : App)
    (reached : AppState) : Prop where
  coherent : next.Coherent reached
  way : reached = state ∨ (∃ result, label = .app (.thread result)) ∧ next.pc = .dispatch ∧
    ∃ event, app.pc = .write event (some reached) ∧ transition state event = some reached
  bound : BoundBy app label next
  failure : next.failure = true →
    app.failure = true ∨ label = .app .setFailure ∨ label = .assignFailure true

/-- What changes neither the place of the thread nor the state. -/
theorem arrives_around (coherent : app.Coherent state) (place : next.pc = app.pc)
    (current : next.sm.state = app.sm.state)
    (table : next.sm.transitions = app.sm.transitions)
    (failure : next.failure = true →
      app.failure = true ∨ label = .app .setFailure ∨ label = .assignFailure true) :
    Arrives app state label next state where
  coherent := ⟨table.trans coherent.table, current.trans coherent.current,
    place ▸ coherent.located⟩
  way := .inl rfl
  bound := by constructor <;> exact fun bound => .inl (place ▸ bound)
  failure := failure

theorem arrives_thread {result : Bool} (coherent : app.Coherent state)
    (steps : app.step .periodic result = some next) :
    ∃ reached, Arrives app state (.app (.thread result)) next reached := by
  have effect := coherent.effect steps
  have bound := boundBy_of_effect effect
  have failure : next.failure = app.failure := by
    cases effect <;> rfl
  rcases effect.coherent coherent with same | ⟨event, target, place, known, moved⟩
  · exact ⟨state, same, .inl rfl, bound, fun set => .inl (failure ▸ set)⟩
  · have dispatched : next.pc = .dispatch := by
      simp only [App.step, place, Option.some.injEq] at steps
      exact steps ▸ rfl
    exact ⟨target, moved, .inr ⟨⟨result, rfl⟩, dispatched, event, place, known⟩, bound,
      fun set => .inl (failure ▸ set)⟩

theorem arrives (coherent : app.Coherent state) (taken : periodicStep app label = some next) :
    ∃ reached, Arrives app state label next reached := by
  cases label with
  | assignFailure failure =>
    obtain rfl := Option.some.inj taken
    exact ⟨state, arrives_around coherent rfl rfl rfl
      fun set => .inr (.inr (congrArg _ set))⟩
  | app label =>
    cases appStep_cases taken with
    | thread steps => exact arrives_thread coherent steps
    | request async =>
      exact ⟨state, arrives_around coherent rfl (by simp) (by simp) .inl⟩
    | setFailure =>
      exact ⟨state, arrives_around coherent rfl rfl rfl fun _ => .inr (.inl rfl)⟩
    | pause | resume => exact ⟨state, arrives_around coherent rfl rfl rfl .inl⟩

/-- A thread bound for RUN is in ACTIVATION. -/
theorem activation_of_activated (known : (transition state .activated).isSome = true) :
    state = .activation := by
  cases state <;> first | rfl | cases known

theorem activation_of_activates (located : app.pc.within state = true)
    (bound : app.pc.activates = true) : state = .activation := by
  cases place : app.pc with
  | activationExit activate => simpa [place, Pc.within] using located
  | lookup event =>
    obtain rfl : event = .activated := by simpa [place, Pc.activates] using bound
    rw [place] at located
    exact activation_of_activated located
  | write event newState =>
    obtain rfl : event = .activated := by simpa [place, Pc.activates] using bound
    simp only [place, Pc.within, Bool.and_eq_true, beq_iff_eq] at located
    exact activation_of_activated (located.2 ▸ located.1)
  | _ => rw [place] at bound; cases bound

/-- RUN is reached by the last step out of an activation. -/
theorem activates_of_write {event : AppEvent} (place : app.pc = .write event (some .run))
    (known : transition state event = some .run) : app.pc.activates = true := by
  rw [place]
  cases state <;> cases event <;> first | rfl | cases known

/-- IDLE is reached from DEACTIVATION by the last step out of a deactivation. -/
theorem deactivates_of_write {event : AppEvent} (place : app.pc = .write event (some .idle))
    (known : transition .deactivation event = some .idle) : app.pc.deactivates = true := by
  rw [place]
  cases event <;> first | rfl | cases known

/-- FAIL is reached by the last step out of a failed run. -/
theorem fails_of_write {event : AppEvent} (place : app.pc = .write event (some .fail))
    (known : transition .run event = some .fail) : app.pc.fails = true := by
  rw [place]
  cases event <;> first | rfl | cases known

end Steps

namespace AppHistory

variable {app next : App} {label : PeriodicLabel} {history : AppHistory} {place : Pc}

theorem returned_of_ne (elsewhere : app.pc ≠ place) : returned app place label = none := by
  unfold returned
  split <;> simp [elsewhere]

/-- Away from `checkActivation` and IDLE, an activation lasts. -/
theorem Activated.record (activated : history.Activated)
    (elsewhere : app.pc ≠ .checkActivation) (awake : next.sm.state ≠ some .idle) :
    (history.record app label next).Activated := by
  obtain ⟨checked, since⟩ := activated
  simp [Activated, AppHistory.record, returned_of_ne elsewhere, checked, since, awake]

/-- It starts when `checkActivation` returns true. -/
theorem Activated.of_returned (checked : returned app .checkActivation label = some true) :
    (history.record app label next).Activated := by
  simp [Activated, AppHistory.record, checked]

end AppHistory

/-- What the record and the place of the thread have to do with each other. -/
structure Guarded (app : App) (history : AppHistory) (state : AppState) : Prop where
  coherent : app.Coherent state
  activated : state = .run ∨ app.pc.activates = true → history.Activated
  deactivated : app.pc.deactivates = true → history.deactivation = some true

namespace Guarded

variable {app next : App} {history : AppHistory} {state : AppState} {label : PeriodicLabel}

theorem initial : Guarded .new .new .initialization :=
  ⟨App.coherent_new, by rintro (running | bound) <;> contradiction, nofun⟩

/-- The thread is not at `checkActivation` in a machine that is bound for RUN or there. -/
theorem elsewhere (guarded : Guarded app history state)
    (bound : state = .run ∨ app.pc.activates = true) : app.pc ≠ .checkActivation := by
  intro place
  have located := guarded.coherent.located
  rw [place] at located bound
  rcases bound with rfl | bound
  · cases located
  · cases bound

theorem step (guarded : Guarded app history state)
    (taken : periodicStep app label = some next) :
    ∃ reached, Guarded next (history.record app label next) reached := by
  obtain ⟨reached, arrival⟩ := arrives guarded.coherent taken
  refine ⟨reached, arrival.coherent, ?_, ?_⟩
  · intro bound
    have awake : next.sm.state ≠ some .idle := by
      rw [arrival.coherent.current]
      rcases bound with rfl | bound
      · simp
      · simp [activation_of_activates arrival.coherent.located bound]
    have before : (state = .run ∨ app.pc.activates = true) ∨
        AppHistory.returned app .checkActivation label = some true := by
      rcases bound with rfl | bound
      · rcases arrival.way with same | ⟨_, _, event, place, known⟩
        · exact .inl (.inl same.symm)
        · exact .inl (.inr (activates_of_write place known))
      · exact (arrival.bound.activated bound).imp_left .inr
    rcases before with before | checked
    · exact (guarded.activated before).record (guarded.elsewhere before) awake
    · exact .of_returned checked
  · intro bound
    rcases arrival.bound.deactivated bound with before | returned
    · have elsewhere : app.pc ≠ .deactivationCallback := by
        intro place
        rw [place] at before
        cases before
      simp [AppHistory.record, AppHistory.returned_of_ne elsewhere, guarded.deactivated before]
    · simp [AppHistory.record, returned]

theorem of_reachable {run : App × AppHistory} (reachable : recordedApp.Reachable run) :
    ∃ state, Guarded run.1 run.2 state := by
  apply reachable.invariant (fun run => ∃ state, Guarded run.1 run.2 state)
  · exact ⟨.initialization, initial⟩
  · rintro before label after ⟨state, guarded⟩ _ taken
    obtain ⟨steps, record⟩ := System.withHistory_step_iff.mp taken
    rw [record]
    exact guarded.step steps

end Guarded

/-- `run(time)` is executed only if the last `checkActivation` returned true and the machine
has not been in IDLE since; it returns from DEACTIVATION to IDLE only if the last
`deactivation(time)` returned true; and it never leaves QUIT. -/
theorem activities_guarded {run next : App × AppHistory} {label : PeriodicLabel}
    (reachable : recordedApp.Reachable run) (taken : recordedApp.step run label = some next) :
    (run.1.pc = .runCallback →
      run.2.checkActivation = some true ∧ run.2.idleSince = false) ∧
    (run.1.sm.state = some .deactivation → next.1.sm.state = some .idle →
      run.2.deactivation = some true) ∧
    (run.1.sm.state = some .quit → next.1.sm.state = some .quit) := by
  obtain ⟨state, guarded⟩ := Guarded.of_reachable reachable
  obtain ⟨steps, record⟩ := System.withHistory_step_iff.mp taken
  obtain ⟨reached, arrival⟩ := arrives guarded.coherent steps
  have current := guarded.coherent.current
  have arrived := arrival.coherent.current
  refine ⟨?_, ?_, ?_⟩
  · intro place
    have located := guarded.coherent.located
    rw [place] at located
    exact guarded.activated (.inl (by simpa [Pc.within] using located))
  · intro before after
    obtain rfl : state = .deactivation := Option.some.inj (current.symm.trans before)
    obtain rfl : reached = .idle := Option.some.inj (arrived.symm.trans after)
    rcases arrival.way with same | ⟨_, _, event, place, known⟩
    · cases same
    · exact guarded.deactivated (deactivates_of_write place known)
  · intro before
    obtain rfl : state = .quit := Option.some.inj (current.symm.trans before)
    rcases arrival.way with rfl | ⟨_, _, event, place, known⟩
    · exact arrived
    · simp at known

/-- A periodic application is activated and gets to `run(time)`. -/
def intoRun : List PeriodicLabel :=
  List.replicate 3 (.app (.thread true)) ++ [.app (.request .activationRequest)] ++
    List.replicate 15 (.app (.thread true))

/-- It is told to deactivate, and is about to return to IDLE. -/
def intoIdle : List PeriodicLabel :=
  intoRun ++ [.app (.request .deactivationRequest)] ++ List.replicate 15 (.app (.thread true))

/-- An application that is about to execute `run(time)`, and one that is about to return to
IDLE. -/
theorem activities_guarded_in_run :
    (∃ run, recordedApp.run intoRun = some run ∧ run.1.pc = .runCallback ∧
      run.2.checkActivation = some true ∧ run.2.idleSince = false) ∧
    ∃ run next, recordedApp.run intoIdle = some run ∧ run.1.sm.state = some .deactivation ∧
      recordedApp.step run (.app (.thread true)) = some next ∧
      next.1.sm.state = some .idle ∧ run.2.deactivation = some true := by
  have running : (recordedApp.run intoRun).any (fun run =>
      run.1.pc == .runCallback && (recordedApp.step run (.app (.thread true))).isSome) = true := by
    decide
  have returning : (recordedApp.run intoIdle).any (fun run =>
      run.1.sm.state == some .deactivation &&
      (recordedApp.step run (.app (.thread true))).any fun next =>
        next.1.sm.state == some .idle) = true := by
    decide
  constructor
  · obtain ⟨run, replayed, passes⟩ := (Option.any_eq_true _ _).mp running
    simp only [Bool.and_eq_true, beq_iff_eq] at passes
    obtain ⟨next, taken⟩ := Option.isSome_iff_exists.mp passes.2
    exact ⟨run, replayed, passes.1, (activities_guarded
      (System.ReachableUnder.initial.replay replayed) taken).1 passes.1⟩
  · obtain ⟨run, replayed, passes⟩ := (Option.any_eq_true _ _).mp returning
    simp only [Bool.and_eq_true, beq_iff_eq, Option.any_eq_true] at passes
    obtain ⟨before, next, taken, after⟩ := passes
    exact ⟨run, next, replayed, before, taken, after, (activities_guarded
      (System.ReachableUnder.initial.replay replayed) taken).2.1 before after⟩

end Dls2.Application
