import Dls2.Application.AppStateMachine

/-!
# The application thread

`App::execute` leaves INITIALIZATION and then runs the activity of the current
state for ever. `App.step` is one step of that thread: a program counter names
the place inside the activity, and every load of a flag, every locked block of
`nextState` and every call of a user function is a step of its own, so that
other threads can act between any two of them.

Commands that activities enable and disable, log messages, scheduling and the
published status are not part of this model: they do not influence the path
through the state machine.
-/

namespace Dls2.Application

open Dls2.StateMachine

/-- Which overrides of `run`, `deactivating` and `close` an application has. -/
inductive AppKind where
  | layer
  | periodic
deriving DecidableEq, Repr

/-- The place the application thread has reached. The names follow the function
and the expression that is evaluated next. -/
inductive Pc where
  /-- `nextState(const AsyncEvent &)` is about to clear the flag. -/
  | consume (event : AppEvent)
  /-- `nextState` is about to look the transition up. -/
  | lookup (event : AppEvent)
  /-- `nextState` is about to write current and desired state. -/
  | write (event : AppEvent) (newState : Option AppState)
  /-- `start` tests `quit` and calls the activity of the current state. -/
  | dispatch
  | idleWait
  | idleTestActivation
  | idleTestQuit
  | activationGuardStop
  | activationGuardQuit
  | checkActivation
  | activationExit (activate : Bool)
  | runGuardDeactivation (failure : Bool)
  | runGuardQuit (failure : Bool)
  /-- `run(time)` of a periodic application, `monitor()` of a layer. -/
  | runCallback
  | runCheckFailure
  | runCheckPaused (failure : Bool)
  | runPauseExecution (failure : Bool)
  | runExit (failure : Bool)
  | runTestQuit
  | deactivatingGuard (deactivated : Bool)
  /-- `deactivation(time)` of a periodic application. -/
  | deactivationCallback
  | deactivatingCheckPaused (deactivated : Bool)
  | deactivatingPauseExecution (deactivated : Bool)
  /-- `App::deactivation` after `deactivating()` has returned. -/
  | deactivationTestQuit (deactivation : Bool)
  | failWait
  | failTestDeactivation
  | failTestQuit
  | quitClose
  | quitShouldQuit
  | quitWait
  | quitStop
  | terminated
deriving DecidableEq, Repr

/-- The members of `App` and `PeriodicApp` that decide the path of the thread. -/
structure App where
  sm : Machine AppState AppEvent
  pc : Pc
  isPaused : Bool
  failure : Bool
  shouldQuit : Bool
  canDie : Bool

namespace App

/-- A constructed application at the start of `execute`. -/
def new : App where
  sm := AppStateMachine.new
  pc := .lookup .initialized
  isPaused := false
  failure := false
  shouldQuit := false
  canDie := false

/-- Continue at another place without touching a member. -/
def goto (app : App) (pc : Pc) : App := { app with pc := pc }

/-- Entry points of the activities. A layer keeps `App::deactivating`, which
returns true at once; INITIALIZATION has an empty activity. -/
def activity (kind : AppKind) : AppState → Pc
  | .initialization => .dispatch
  | .idle => .idleWait
  | .activation => .activationGuardStop
  | .run => .runGuardDeactivation false
  | .deactivation =>
    match kind with
    | .layer => .deactivationTestQuit true
    | .periodic => .deactivatingGuard false
  | .fail => .failWait
  | .quit => .quitClose

/-- `PeriodicApp::close` ends a pause; `App::close` does nothing. -/
def close (kind : AppKind) (app : App) : App :=
  match kind with
  | .layer => app
  | .periodic => { app with isPaused := false }

/-- Where the thread goes inside an activity; `none` while it is blocked and at
the places that change members. `result` is the return value of the user
function called there, if one is called. -/
def move (kind : AppKind) (result : Bool) (app : App) : Option Pc :=
  match app.pc with
  -- App::idle
  | .idleWait =>
    if app.sm.isRaised .activationRequest || app.sm.isRaised .quitRequest then
      some .idleTestActivation
    else none
  | .idleTestActivation =>
    if app.sm.isRaised .activationRequest then some (.consume .activationRequest)
    else some .idleTestQuit
  | .idleTestQuit =>
    if app.sm.isRaised .quitRequest then some (.consume .quitRequest) else some .dispatch
  -- App::activation
  | .activationGuardStop =>
    if app.sm.isRaised .stopActivation then some (.activationExit false)
    else some .activationGuardQuit
  | .activationGuardQuit =>
    if app.sm.isRaised .quitRequest then some (.activationExit false) else some .checkActivation
  | .checkActivation => if result then some (.activationExit true) else some .activationGuardStop
  | .activationExit activate =>
    if activate then some (.lookup .activated)
    else if app.sm.isRaised .stopActivation then some (.consume .stopActivation)
    else some (.consume .quitRequest)
  -- PeriodicApp::run, Layer::run
  | .runGuardDeactivation failure =>
    if app.sm.isRaised .deactivationRequest then some (.runExit failure)
    else some (.runGuardQuit failure)
  | .runGuardQuit failure =>
    if app.sm.isRaised .quitRequest then some (.runExit failure)
    else if failure then some (.runExit failure)
    else some .runCallback
  | .runCallback =>
    match kind with
    | .layer => some (.runGuardDeactivation false)
    | .periodic => some .runCheckFailure
  | .runCheckFailure => some (.runCheckPaused app.failure)
  | .runCheckPaused failure =>
    if app.isPaused then some (.runPauseExecution failure)
    else some (.runGuardDeactivation failure)
  | .runPauseExecution failure =>
    if app.isPaused then none else some (.runGuardDeactivation failure)
  | .runExit failure =>
    if failure then some (.lookup .failure)
    else if app.sm.isRaised .deactivationRequest then some (.consume .deactivationRequest)
    else some .runTestQuit
  | .runTestQuit =>
    if app.sm.isRaised .quitRequest then some (.consume .quitRequest) else some .dispatch
  -- PeriodicApp::deactivating, App::deactivation
  | .deactivatingGuard deactivated =>
    if deactivated then some (.deactivationTestQuit deactivated)
    else if app.sm.isRaised .quitRequest then some (.deactivationTestQuit deactivated)
    else some .deactivationCallback
  | .deactivationCallback => some (.deactivatingCheckPaused result)
  | .deactivatingCheckPaused deactivated =>
    if app.isPaused then some (.deactivatingPauseExecution deactivated)
    else some (.deactivatingGuard deactivated)
  | .deactivatingPauseExecution deactivated =>
    if app.isPaused then none else some (.deactivatingGuard deactivated)
  | .deactivationTestQuit deactivation =>
    if app.sm.isRaised .quitRequest then some (.consume .quitRequest)
    else if deactivation then some (.lookup .deactivated)
    else some (.consume .quitRequest)
  -- App::fail
  | .failWait =>
    if app.sm.isRaised .deactivationRequest || app.sm.isRaised .quitRequest then
      some .failTestDeactivation
    else none
  | .failTestDeactivation =>
    if app.sm.isRaised .deactivationRequest then some (.consume .deactivationRequest)
    else some .failTestQuit
  | .failTestQuit =>
    if app.sm.isRaised .quitRequest then some (.consume .quitRequest) else some .dispatch
  -- App::quit waits until the monitor thread has seen QUIT
  | .quitWait => if app.canDie then some .quitStop else none
  | .consume _ | .lookup _ | .write _ _ | .dispatch | .quitClose | .quitShouldQuit | .quitStop
  | .terminated => none

/-- One step of the application thread; `none` while it is blocked. -/
def step (kind : AppKind) (result : Bool) (app : App) : Option App :=
  match app.pc with
  | .consume event => some { app with sm := app.sm.consumeEvent event, pc := .lookup event }
  | .lookup event =>
    some { app with sm := (app.sm.lookup event).2, pc := .write event (app.sm.lookup event).1 }
  | .write _ newState => some { app with sm := app.sm.writeState newState, pc := .dispatch }
  | .dispatch =>
    if app.sm.quit then some (app.goto .terminated)
    else app.sm.state.map fun state => app.goto (activity kind state)
  | .quitClose => some ((app.close kind).goto .quitShouldQuit)
  | .quitShouldQuit => some { app with shouldQuit := true, pc := .quitWait }
  | .quitStop => some { app with sm := app.sm.stop, pc := .dispatch }
  | _ => (app.move kind result).map app.goto

/-- A move is a step of the thread that changes its place only. -/
theorem step_of_move {kind : AppKind} {result : Bool} {app : App} {pc : Pc}
    (moves : app.move kind result = some pc) : app.step kind result = some (app.goto pc) := by
  cases place : app.pc with
  | consume _ | lookup _ | write _ _ | dispatch | quitClose | quitShouldQuit | quitStop =>
    simp [move, place] at moves
  | _ => simp [step, place, moves]

/-- Undisturbed, the steps from the lookup on make up one call of `nextState`. -/
theorem nextState_steps {kind : AppKind} {app : App} {event : AppEvent}
    (place : app.pc = .lookup event) :
    (app.step kind true).bind (step kind true) =
      some { app with sm := app.sm.nextState event, pc := .dispatch } := by
  simp [step, place, Machine.nextState]

/-- For an asynchronous event they are preceded by the one that consumes it. -/
theorem nextStateAsync_steps {kind : AppKind} {app : App} {event : AppEvent}
    (place : app.pc = .consume event) :
    (app.step kind true).bind (fun next => (next.step kind true).bind (step kind true)) =
      some { app with sm := app.sm.nextStateAsync event, pc := .dispatch } := by
  have consumed : app.step kind true = some
      { app with sm := app.sm.consumeEvent event, pc := .lookup event } := by
    simp [step, place]
  rw [consumed, Option.bind_some, nextState_steps rfl]
  rfl

@[simp] theorem close_sm (kind : AppKind) (app : App) : (app.close kind).sm = app.sm := by
  cases kind <;> rfl

@[simp] theorem goto_sm (app : App) (pc : Pc) : (app.goto pc).sm = app.sm := rfl

@[simp] theorem goto_pc (app : App) (pc : Pc) : (app.goto pc).pc = pc := rfl

@[simp] theorem goto_isPaused (app : App) (pc : Pc) : (app.goto pc).isPaused = app.isPaused := rfl

@[simp] theorem goto_failure (app : App) (pc : Pc) : (app.goto pc).failure = app.failure := rfl

@[simp] theorem goto_shouldQuit (app : App) (pc : Pc) :
    (app.goto pc).shouldQuit = app.shouldQuit := rfl

@[simp] theorem goto_inj {app : App} {first second : Pc} :
    app.goto first = app.goto second ↔ first = second :=
  ⟨fun equal => congrArg App.pc equal, fun equal => equal ▸ rfl⟩

@[simp] theorem goto_canDie (app : App) (pc : Pc) : (app.goto pc).canDie = app.canDie := rfl

end App

/-- The states during which the thread can be at a given place. Inside
`nextState` the transition of the event exists and is the one being taken. -/
def Pc.within : Pc → AppState → Bool
  | .consume event, state => event.isAsync && (transition state event).isSome
  | .lookup event, state => (transition state event).isSome
  | .write event newState, state => newState.isSome && newState == transition state event
  | .dispatch, _ => true
  | .idleWait, state | .idleTestActivation, state | .idleTestQuit, state => state == .idle
  | .activationGuardStop, state | .activationGuardQuit, state | .checkActivation, state
  | .activationExit _, state => state == .activation
  | .runGuardDeactivation _, state | .runGuardQuit _, state | .runCallback, state
  | .runCheckFailure, state | .runCheckPaused _, state | .runPauseExecution _, state
  | .runExit _, state | .runTestQuit, state => state == .run
  | .deactivatingGuard _, state | .deactivationCallback, state
  | .deactivatingCheckPaused _, state | .deactivatingPauseExecution _, state
  | .deactivationTestQuit _, state => state == .deactivation
  | .failWait, state | .failTestDeactivation, state | .failTestQuit, state => state == .fail
  | .quitClose, state | .quitShouldQuit, state | .quitWait, state | .quitStop, state =>
    state == .quit
  | .terminated, _ => true

namespace App

/-- The transition table is still the constructor's, and the machine is in a
state in which the thread can be where it is. -/
structure Coherent (app : App) (state : AppState) : Prop where
  table : app.sm.transitions = transitions
  current : app.sm.state = some state
  located : app.pc.within state = true

theorem coherent_new : new.Coherent .initialization := ⟨rfl, rfl, rfl⟩

namespace Coherent

variable {app next : App} {state : AppState}

/-- The unlocked table lookup of `raiseEvent` sees the constructor's table. -/
theorem find (coherent : app.Coherent state) (event : AppEvent) :
    app.sm.find event = (transition state event).map some := by
  simp [Machine.find, coherent.table, coherent.current]

/-- The lookup of `nextState` finds the transition it is made for. -/
theorem step_lookup {kind : AppKind} {result : Bool} {event : AppEvent} {target : AppState}
    (coherent : app.Coherent state) (place : app.pc = .lookup event)
    (known : transition state event = some target) :
    app.step kind result = some (app.goto (.write event (some target))) := by
  have found : app.sm.find event = some (some target) := by simp [coherent.find, known]
  simp [step, place, Machine.lookup_of_find found, App.goto]

/-- `activity` starts at a place of its own state. -/
theorem activity_within (kind : AppKind) (state : AppState) :
    (activity kind state).within state = true := by
  cases state <;> cases kind <;> rfl

/-- Moving on inside the current activity. -/
theorem goto (coherent : app.Coherent state) {pc : Pc} (located : pc.within state = true) :
    (app.goto pc).Coherent state :=
  ⟨coherent.table, coherent.current, located⟩

end Coherent

/-- Moves stay inside the activity of the current state, or start a `nextState`
for which the state has a transition. -/
theorem Coherent.move_within {kind : AppKind} {result : Bool} {app : App} {state : AppState}
    {pc : Pc} (coherent : app.Coherent state) (moves : app.move kind result = some pc) :
    pc.within state = true := by
  have located := coherent.located
  cases place : app.pc with
  | _ =>
    simp only [place, Pc.within, beq_iff_eq] at located
    simp only [move, place] at moves
    repeat' split at moves
    all_goals first
      | (obtain rfl := Option.some.inj moves
         simp [Pc.within, located, transition, AppEvent.isAsync])
      | cases moves

/-- What one step of the thread does, sorted by the members it changes. The
three steps of `nextState` come with the transition they take; `start` enters an
activity or ends; every other step moves inside its activity, apart from the
ones of `quit` that set a member. -/
inductive Effect (kind : AppKind) (result : Bool) (app : App) (state : AppState) :
    App → Prop where
  | consumed {event : AppEvent} {target : AppState} (place : app.pc = .consume event)
      (async : event.isAsync = true) (known : transition state event = some target) :
      Effect kind result app state { app with sm := app.sm.consumeEvent event, pc := .lookup event }
  | lookedUp {event : AppEvent} {target : AppState} (place : app.pc = .lookup event)
      (known : transition state event = some target) :
      Effect kind result app state (app.goto (.write event (some target)))
  | wrote {event : AppEvent} {target : AppState} (place : app.pc = .write event (some target))
      (known : transition state event = some target) :
      Effect kind result app state
        { app with sm := app.sm.writeState (some target), pc := .dispatch }
  | ended (place : app.pc = .dispatch) : Effect kind result app state (app.goto .terminated)
  | entered (place : app.pc = .dispatch) :
      Effect kind result app state (app.goto (activity kind state))
  | moved {pc : Pc} (moves : app.move kind result = some pc) (located : pc.within state = true) :
      Effect kind result app state (app.goto pc)
  | closed (place : app.pc = .quitClose) (quitting : state = .quit) :
      Effect kind result app state ((app.close kind).goto .quitShouldQuit)
  | announced (place : app.pc = .quitShouldQuit) (quitting : state = .quit) :
      Effect kind result app state { app with shouldQuit := true, pc := .quitWait }
  | stopped (place : app.pc = .quitStop) (quitting : state = .quit) :
      Effect kind result app state { app with sm := app.sm.stop, pc := .dispatch }

/-- Every step has one of these effects. -/
theorem Coherent.effect {kind : AppKind} {result : Bool} {app next : App} {state : AppState}
    (coherent : app.Coherent state) (taken : app.step kind result = some next) :
    app.Effect kind result state next := by
  have located := coherent.located
  cases place : app.pc with
  | consume event =>
    simp only [place, Pc.within, Bool.and_eq_true, Option.isSome_iff_exists] at located
    obtain ⟨async, target, known⟩ := located
    simp only [step, place, Option.some.injEq] at taken
    exact taken ▸ .consumed place async known
  | lookup event =>
    simp only [place, Pc.within, Option.isSome_iff_exists] at located
    obtain ⟨target, known⟩ := located
    have found : app.sm.find event = some (some target) := by simp [coherent.find, known]
    simp only [step, place, Machine.lookup_of_find found, Option.some.injEq] at taken
    exact taken ▸ .lookedUp place known
  | write event newState =>
    simp only [place, Pc.within, Bool.and_eq_true, Option.isSome_iff_exists, beq_iff_eq] at located
    obtain ⟨⟨target, rfl⟩, known⟩ := located
    simp only [step, place, Option.some.injEq] at taken
    exact taken ▸ .wrote place known.symm
  | dispatch =>
    simp only [step, place, coherent.current, Option.map_some] at taken
    split at taken <;> obtain rfl := Option.some.inj taken
    · exact .ended place
    · exact .entered place
  | quitClose =>
    simp only [step, place, Option.some.injEq] at taken
    exact taken ▸ .closed place (by simpa [place, Pc.within] using located)
  | quitShouldQuit =>
    simp only [step, place, Option.some.injEq] at taken
    exact taken ▸ .announced place (by simpa [place, Pc.within] using located)
  | quitStop =>
    simp only [step, place, Option.some.injEq] at taken
    exact taken ▸ .stopped place (by simpa [place, Pc.within] using located)
  | terminated => simp [step, move, place] at taken
  | _ =>
    simp only [step, place, Option.map_eq_some_iff] at taken
    obtain ⟨pc, moves, rfl⟩ := taken
    exact .moved moves (coherent.move_within moves)

/-- A step keeps the application coherent; only the write of `nextState` changes
the state, along the transition table. -/
theorem Effect.coherent {kind : AppKind} {result : Bool} {app next : App} {state : AppState}
    (coherent : app.Coherent state)
    (effect : app.Effect kind result state next) :
    next.Coherent state ∨
      ∃ event target, app.pc = .write event (some target) ∧
        transition state event = some target ∧ next.Coherent target := by
  cases effect with
  | @consumed event target place async known =>
    exact .inl ⟨coherent.table, coherent.current, by simp [Pc.within, known]⟩
  | @lookedUp event target place known =>
    exact .inl (coherent.goto (by simp [Pc.within, known]))
  | @wrote event target place known =>
    exact .inr ⟨event, target, place, known, by simpa using coherent.table, rfl, rfl⟩
  | ended place => exact .inl (coherent.goto rfl)
  | entered place => exact .inl (coherent.goto (Coherent.activity_within kind state))
  | moved moves located => exact .inl (coherent.goto located)
  | closed place quitting =>
    exact .inl ⟨by simpa using coherent.table, by simpa using coherent.current,
      by simp [Pc.within, quitting]⟩
  | announced place quitting =>
    exact .inl ⟨coherent.table, coherent.current, by simp [Pc.within, quitting]⟩
  | stopped place quitting => exact .inl ⟨coherent.table, coherent.current, rfl⟩

end App

end Dls2.Application
