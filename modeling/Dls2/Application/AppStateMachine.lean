import Dls2.StateMachine.Machine

/-!
# The application state machine

States, events and transition table of `AppStateMachine`. The table is read off
the map literal of its constructor; a pair that is not listed there has no
transition.
-/

namespace Dls2.Application

open Dls2.StateMachine

/-- The states of `AppStateMachine`. -/
inductive AppState where
  | initialization
  | idle
  | activation
  | deactivation
  | run
  | fail
  | quit
deriving DecidableEq, Repr

/-- The events of `AppStateMachine`, the asynchronous ones last. -/
inductive AppEvent where
  | initialized
  | deactivated
  | failedActivation
  | activated
  | failure
  | activationRequest
  | deactivationRequest
  | quitRequest
  | stopActivation
deriving DecidableEq, Repr

/-- Events declared as subclasses of `AsyncEvent`. -/
def AppEvent.isAsync : AppEvent → Bool
  | .activationRequest | .deactivationRequest | .quitRequest | .stopActivation => true
  | .initialized | .deactivated | .failedActivation | .activated | .failure => false

/-- The `transitions` map of the constructor, in its order. -/
def transition : AppState → AppEvent → Option AppState
  | .initialization, .initialized => some .idle
  | .idle, .activationRequest => some .activation
  | .activation, .activated => some .run
  | .activation, .failedActivation => some .idle
  | .activation, .stopActivation => some .idle
  | .run, .deactivationRequest => some .deactivation
  | .run, .failure => some .fail
  | .deactivation, .deactivated => some .idle
  | .fail, .deactivationRequest => some .deactivation
  | .idle, .quitRequest => some .quit
  | .activation, .quitRequest => some .quit
  | .run, .quitRequest => some .quit
  | .fail, .quitRequest => some .quit
  | .deactivation, .quitRequest => some .quit
  | _, _ => none

/-- The same table keyed by state pointers; no entry has a null target. -/
def transitions (state : Option AppState) (event : AppEvent) : Option (Option AppState) :=
  state.bind fun current => (transition current event).map some

/-- `AppStateMachine::AppStateMachine`. -/
def AppStateMachine.new : Machine AppState AppEvent :=
  Machine.init .initialization transitions

/-- Nothing leaves QUIT. -/
@[simp] theorem transition_quit (event : AppEvent) : transition .quit event = none := by
  cases event <;> rfl

/-- A quit request leads nowhere else. -/
theorem target_of_quitRequest {state target : AppState}
    (known : transition state .quitRequest = some target) : target = .quit := by
  cases state <;> simp_all [transition]

@[simp] theorem transitions_some (state : AppState) (event : AppEvent) :
    transitions (some state) event = (transition state event).map some := rfl

@[simp] theorem transitions_none (event : AppEvent) : transitions none event = none := rfl

end Dls2.Application
