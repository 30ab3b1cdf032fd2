import Dls2.Application.App
import Dls2.Lib.Transition

/-!
# Requests to a running application

`appSystem` lets the application thread and its surroundings take turns. A
request is one whole `raiseEvent` call; it can arrive between any two steps of
the thread, also inside `nextState`.

The documentation of the state machine promises that an event which the current
state does not handle is discarded, so that there is no memory about past
events. `raiseEvent` decides that against the state at the time of the call. A
flag it has set stays set when the thread leaves the state through another
event: `Heeds` is the condition under which no request arrives that late.

`cycledApp` records beside a run in which activation cycle each flag was raised.
A cycle begins when the machine enters IDLE.
-/

namespace Dls2.Application

open Dls2.StateMachine Dls2.Transition

/-- Steps of an application and of the threads that talk to it. -/
inductive AppLabel where
  /-- A step of the application thread and the result of the function it calls. -/
  | thread (result : Bool)
  /-- A complete `raiseEvent` call. -/
  | request (event : AppEvent)
  | setFailure
  /-- The `pause` command of a periodic application. -/
  | pause
  /-- The `continue` command of a periodic application. -/
  | resume
deriving DecidableEq, Repr

/-- One step of the application together with its surroundings. Only events
derived from `AsyncEvent` can be passed to `raiseEvent`. -/
def appStep (kind : AppKind) (app : App) : AppLabel → Option App
  | .thread result => app.step kind result
  | .request event =>
    if event.isAsync then some { app with sm := (app.sm.raiseEvent event).2 } else none
  | .setFailure => if kind = .periodic then some { app with failure := true } else none
  | .pause => if kind = .periodic then some { app with isPaused := true } else none
  | .resume => if kind = .periodic then some { app with isPaused := false } else none

/-- A new application, its thread and its surroundings. -/
def appSystem (kind : AppKind) : System App AppLabel where
  initial := App.new
  step := appStep kind

/-- What a step does: the thread goes on, or its surroundings change a flag. -/
inductive AppStep (kind : AppKind) (app : App) : AppLabel → App → Prop where
  | thread {result : Bool} {next : App} (steps : app.step kind result = some next) :
      AppStep kind app (.thread result) next
  | request {event : AppEvent} (async : event.isAsync = true) :
      AppStep kind app (.request event) { app with sm := (app.sm.raiseEvent event).2 }
  | setFailure : AppStep kind app .setFailure { app with failure := true }
  | pause : AppStep kind app .pause { app with isPaused := true }
  | resume : AppStep kind app .resume { app with isPaused := false }

theorem appStep_cases {kind : AppKind} {app next : App} {label : AppLabel}
    (taken : appStep kind app label = some next) : AppStep kind app label next := by
  cases label with
  | thread result => exact .thread taken
  | request event =>
    simp only [appStep] at taken
    split at taken
    · obtain rfl := Option.some.inj taken
      exact .request ‹_›
    · cases taken
  | setFailure | pause | resume =>
    simp only [appStep] at taken
    split at taken
    · obtain rfl := Option.some.inj taken
      constructor
    · cases taken

namespace App

/-- Raising an event keeps the table, the state and the place of the thread. -/
theorem Coherent.request {app : App} {state : AppState} (coherent : app.Coherent state)
    (event : AppEvent) :
    ({ app with sm := (app.sm.raiseEvent event).2 } : App).Coherent state :=
  ⟨by simpa using coherent.table, by simpa using coherent.current, coherent.located⟩

/-- Every step leads from a coherent application to a coherent one. -/
theorem Coherent.appStep {kind : AppKind} {app next : App} {label : AppLabel} {state : AppState}
    (coherent : app.Coherent state) (taken : Application.appStep kind app label = some next) :
    ∃ reached, next.Coherent reached := by
  cases appStep_cases taken with
  | thread steps =>
    obtain same | ⟨_, target, _, _, moved⟩ := (coherent.effect steps).coherent coherent
    · exact ⟨state, same⟩
    · exact ⟨target, moved⟩
  | request async => exact ⟨state, coherent.request _⟩
  | setFailure | pause | resume =>
    exact ⟨state, coherent.table, coherent.current, coherent.located⟩

end App

/-- Every reachable application is coherent. -/
theorem reachable_coherent {kind : AppKind} {app : App}
    (reachable : (appSystem kind).Reachable app) : ∃ state, app.Coherent state := by
  apply reachable.invariant (fun app => ∃ state, app.Coherent state)
  · exact ⟨.initialization, App.coherent_new⟩
  · rintro before label next ⟨_, coherent⟩ _ taken
    exact coherent.appStep taken

/-- The invariant rule for properties that also need coherence. -/
theorem reachable_invariant {kind : AppKind} {allowed : App → AppLabel → Prop} {app : App}
    (reachable : (appSystem kind).ReachableUnder allowed app) (Inv : App → Prop)
    (initial : Inv App.new)
    (preserved : ∀ {app label next state}, app.Coherent state → Inv app → allowed app label →
      AppStep kind app label next → Inv next) : Inv app := by
  apply reachable.invariantFrom Inv initial
  intro before label next reached holds admitted taken
  obtain ⟨state, coherent⟩ := reachable_coherent reached.reachable
  exact preserved coherent holds admitted (appStep_cases taken)

/-- The loop of `start` is ended in QUIT only. -/
theorem reachable_ended {kind : AppKind} {app : App} (reachable : (appSystem kind).Reachable app) :
    app.sm.quit = true → app.sm.state = some .quit := by
  apply reachable_invariant reachable (fun app => app.sm.quit = true → app.sm.state = some .quit)
  · simp [App.new, AppStateMachine.new, Machine.init]
  · intro before label next state coherent holds _ step
    cases step with
    | thread steps =>
      cases coherent.effect steps with
      | @wrote event target place known =>
        intro ended
        obtain rfl : state = .quit := by
          simpa [coherent.current] using holds (by simpa using ended)
        simp at known
      | stopped place quitting =>
        intro _
        simpa [quitting] using coherent.current
      | consumed | lookedUp | ended | entered | moved | closed | announced => simpa using holds
    | request async => simpa using holds
    | setFailure | pause | resume => exact holds

/-! ### No memory about past events -/

/-- Every raised flag has a transition from the current state. -/
def FlagsUsable (app : App) : Prop :=
  ∀ event, app.sm.isRaised event = true → (app.sm.find event).isSome = true

/-- The event by which the thread is bound to leave the current activity. The
places that test only the quit request are reached when it is the one raised. -/
def Pc.exit : Pc → Option AppEvent
  | .consume event | .lookup event | .write event _ => some event
  | .idleTestQuit | .runTestQuit | .failTestQuit => some .quitRequest
  | .activationExit true => some .activated
  | _ => none

/-- The thread is still going to clear the flag on its way out. -/
def Pc.clears : Pc → AppEvent → Bool
  | .consume event, other => event == other
  | .idleTestQuit, other | .runTestQuit, other | .failTestQuit, other => other == .quitRequest
  | _, _ => false

/-- Where the thread is bound to go next, if it is bound to leave. -/
def App.boundFor (app : App) : Option AppState :=
  (app.pc.exit.bind app.sm.find).join

/-- A thread bound to leave goes where the table says. -/
theorem App.Coherent.boundFor {app : App} {state : AppState} {exit : AppEvent}
    (coherent : app.Coherent state) (leaves : app.pc.exit = some exit) :
    app.boundFor = transition state exit := by
  cases known : transition state exit <;> simp [App.boundFor, leaves, coherent.find, known]

/-- An accepted request comes before the thread has chosen another way out to IDLE
or to a state without a transition for it. `checkActivation` does not succeed while
`stop_activation` is raised, and `stop_activation` does not end an activation while
a quit request is raised too. -/
def Heeds (app : App) : AppLabel → Prop
  | .request event => (app.sm.find event).isSome = true → app.pc.clears event = false →
      ∀ target, app.boundFor = some target →
        target ≠ .idle ∧ (transition target event).isSome = true
  | .thread result =>
      (app.pc = .checkActivation → result = true → app.sm.isRaised .stopActivation = false) ∧
      (app.pc = .activationExit false → app.sm.isRaised .stopActivation = true →
        app.sm.isRaised .quitRequest = false)
  | .setFailure | .pause | .resume => True

instance Heeds.decidable (app : App) : (label : AppLabel) → Decidable (Heeds app label)
  | .request event => inferInstanceAs (Decidable ((app.sm.find event).isSome = true →
      app.pc.clears event = false → ∀ target, app.boundFor = some target →
        target ≠ .idle ∧ (transition target event).isSome = true))
  | .thread result => inferInstanceAs (Decidable (
      (app.pc = .checkActivation → result = true → app.sm.isRaised .stopActivation = false) ∧
      (app.pc = .activationExit false → app.sm.isRaised .stopActivation = true →
        app.sm.isRaised .quitRequest = false)))
  | .setFailure | .pause | .resume => isTrue trivial

/-- What holds along runs whose steps all heed requests. -/
structure Heedful (app : App) (state : AppState) : Prop where
  coherent : app.Coherent state
  async : ∀ event, app.sm.isRaised event = true → event.isAsync = true
  usable : ∀ event, app.sm.isRaised event = true → (transition state event).isSome = true
  bound : ∀ exit target, app.pc.exit = some exit → transition state exit = some target →
    ∀ event, app.sm.isRaised event = true → app.pc.clears event = true ∨
      (target ≠ .idle ∧ (transition target event).isSome = true)

/-- An activity is not entered at a place that is already bound to leave it. -/
theorem Pc.exit_activity (kind : AppKind) (state : AppState) :
    (App.activity kind state).exit = none := by
  cases state <;> cases kind <;> rfl

/-- No flag is raised in a new application. -/
@[simp] theorem App.new_isRaised (event : AppEvent) : App.new.sm.isRaised event = false := rfl

theorem heedful_new : Heedful App.new .initialization :=
  ⟨App.coherent_new, by simp, by simp, by simp⟩

namespace Heedful

variable {app next : App} {state : AppState}

/-- While the thread stays inside its activity it is enough to look at the new
place; the flags are the same. -/
theorem goto (holds : Heedful app state) {pc : Pc} (located : pc.within state = true)
    (bound : ∀ exit target, pc.exit = some exit → transition state exit = some target →
      ∀ event, app.sm.isRaised event = true → pc.clears event = true ∨
        (target ≠ .idle ∧ (transition target event).isSome = true)) :
    Heedful (app.goto pc) state :=
  ⟨holds.coherent.goto located, holds.async, holds.usable, bound⟩

/-- Inside an activity the thread decides how to leave only after it has seen
the flags that the new state could not use. -/
theorem move {kind : AppKind} {result : Bool} {pc : Pc} (holds : Heedful app state)
    (heeds : Heeds app (.thread result)) (moves : app.move kind result = some pc) :
    Heedful (app.goto pc) state := by
  apply holds.goto (holds.coherent.move_within moves)
  intro exit target leaves known event raised
  have located := holds.coherent.located
  have async := holds.async event raised
  have usable := holds.usable event raised
  have bound : app.pc.exit = some exit → _ := fun before =>
    holds.bound exit target before known event raised
  cases place : app.pc with
  | _ =>
    simp only [place, Pc.within, beq_iff_eq] at located
    simp only [App.move, place] at moves
    repeat' split at moves
    all_goals simp only [Option.some.injEq, reduceCtorEq] at moves
    all_goals
      subst moves located
      simp only [Pc.exit, Option.some.injEq, reduceCtorEq] at leaves
    -- arriving at a place that is bound to leave: the flags seen on the way decide
    all_goals
      subst leaves
      obtain rfl := Option.some.inj known
      simp only [place, Pc.exit, Pc.clears, reduceCtorEq, true_implies, false_implies] at bound ⊢
      cases event <;> simp_all [transition, AppEvent.isAsync, Heeds]

/-- The write of a heedful thread does not lead to IDLE while a flag is raised. -/
theorem bound_write {event other : AppEvent} {target : AppState} (holds : Heedful app state)
    (place : app.pc = .write event (some target)) (known : transition state event = some target)
    (raised : app.sm.isRaised other = true) :
    target ≠ .idle ∧ (transition target other).isSome = true := by
  simpa [place, Pc.clears] using
    holds.bound event target (by simp [place, Pc.exit]) known other raised

/-- The thread keeps flags usable when its step heeds requests. -/
theorem thread {kind : AppKind} {result : Bool} (holds : Heedful app state)
    (heeds : Heeds app (.thread result)) (taken : app.step kind result = some next) :
    ∃ reached, Heedful next reached := by
  have coherent := holds.coherent
  cases coherent.effect taken with
  | @consumed event target place async known =>
    have cleared : ∀ other, (app.sm.consumeEvent event).isRaised other = true →
        other ≠ event ∧ app.sm.isRaised other = true := by
      intro other raised
      rw [Machine.isRaised_consumeEvent] at raised
      split at raised
      · cases raised
      · exact ⟨‹_›, raised⟩
    refine ⟨state, ?_⟩
    constructor
    case coherent => exact ⟨coherent.table, coherent.current, by simp [Pc.within, known]⟩
    case async =>
      intro other raised
      exact holds.async other (cleared other raised).2
    case usable =>
      intro other raised
      exact holds.usable other (cleared other raised).2
    case bound =>
      intro exit goal leaves goes other raised
      obtain ⟨different, before⟩ := cleared other raised
      obtain rfl : event = exit := by simpa [Pc.exit] using leaves
      have bound := holds.bound event goal (by simp [place, Pc.exit]) goes other before
      obtain clears | usable := bound
      · exact absurd (by simpa [place, Pc.clears] using clears) (Ne.symm different)
      · exact .inr usable
  | @lookedUp event target place known =>
    refine ⟨state, ?_⟩
    apply holds.goto (by simp [Pc.within, known])
    intro exit goal leaves goes other raised
    simpa [place, Pc.clears] using
      holds.bound exit goal (by simpa [place, Pc.exit] using leaves) goes other raised
  | @wrote event target place known =>
    have usable : ∀ other, app.sm.isRaised other = true →
        (transition target other).isSome = true := by
      intro other raised
      exact (holds.bound_write place known raised).2
    refine ⟨target, ?_⟩
    constructor
    case coherent => exact ⟨by simpa using coherent.table, rfl, rfl⟩
    case async => simpa using holds.async
    case usable => simpa using usable
    case bound => simp [Pc.exit]
  | ended place => exact ⟨state, holds.goto rfl (by simp [Pc.exit])⟩
  | entered place =>
    exact ⟨state, holds.goto (App.Coherent.activity_within kind state)
      (by simp [Pc.exit_activity])⟩
  | moved moves inside => exact ⟨state, holds.move heeds moves⟩
  | closed place quitting =>
    refine ⟨state, ?_⟩
    constructor
    case coherent =>
      exact ⟨by simpa using coherent.table, by simpa using coherent.current,
        by simp [Pc.within, quitting]⟩
    case async => simpa using holds.async
    case usable => simpa using holds.usable
    case bound => simp [Pc.exit]
  | announced place quitting =>
    exact ⟨state, ⟨coherent.table, coherent.current, by simp [Pc.within, quitting]⟩,
      holds.async, holds.usable, by simp [Pc.exit]⟩
  | stopped place quitting =>
    exact ⟨state, ⟨coherent.table, coherent.current, rfl⟩, holds.async, holds.usable,
      by simp [Pc.exit]⟩

/-- A request that is heeded leaves every flag usable. -/
theorem request {event : AppEvent} (holds : Heedful app state) (async : event.isAsync = true)
    (heeds : Heeds app (.request event)) :
    Heedful { app with sm := (app.sm.raiseEvent event).2 } state := by
  have origin : ∀ other, (app.sm.raiseEvent event).2.isRaised other = true →
      (other = event ∧ (transition state event).isSome = true) ∨
        app.sm.isRaised other = true := by
    intro other raised
    rw [Machine.isRaised_raiseEvent, holds.coherent.find, Option.isSome_map] at raised
    split at raised
    · exact .inl ‹_›
    · exact .inr raised
  constructor
  case coherent => exact holds.coherent.request event
  case async =>
    intro other raised
    obtain ⟨rfl, _⟩ | before := origin other raised
    · exact async
    · exact holds.async other before
  case usable =>
    intro other raised
    obtain ⟨rfl, accepted⟩ | before := origin other raised
    · exact accepted
    · exact holds.usable other before
  case bound =>
    intro exit target leaves known other raised
    obtain ⟨rfl, accepted⟩ | before := origin other raised
    · have leaves : app.pc.exit = some exit := leaves
      cases clears : app.pc.clears other with
      | true => exact .inl rfl
      | false =>
        right
        apply heeds (by simp [holds.coherent.find, accepted]) clears target
        exact (holds.coherent.boundFor leaves).trans known
    · exact holds.bound exit target leaves known other before

end Heedful

/-- Every state reached by steps that heed requests is heedful. -/
theorem reachable_heedful {kind : AppKind} {app : App}
    (reachable : (appSystem kind).ReachableUnder Heeds app) : ∃ state, Heedful app state := by
  apply reachable.invariant (fun app => ∃ state, Heedful app state)
  · exact ⟨.initialization, heedful_new⟩
  · rintro before label next ⟨state, holds⟩ heeds taken
    cases appStep_cases taken with
    | thread steps => exact holds.thread heeds steps
    | request async => exact ⟨state, holds.request async heeds⟩
    | setFailure | pause | resume =>
      exact ⟨state, ⟨holds.coherent.table, holds.coherent.current, holds.coherent.located⟩,
        holds.async, holds.usable, holds.bound⟩

/-- What the thread has seen when it is at a place behind a wait or a loop: a
request that has made it leave. -/
def SeenReason (app : App) : Prop :=
  match app.pc with
  | .idleTestActivation =>
    app.sm.isRaised .activationRequest = true ∨ app.sm.isRaised .quitRequest = true
  | .runExit failure => failure = true ∨ app.sm.isRaised .deactivationRequest = true ∨
      app.sm.isRaised .quitRequest = true
  | .failTestDeactivation =>
    app.sm.isRaised .deactivationRequest = true ∨ app.sm.isRaised .quitRequest = true
  | .idleTestQuit | .runTestQuit | .failTestQuit => app.sm.isRaised .quitRequest = true
  | _ => True

/-- Raising a flag leaves the reason in place. -/
theorem SeenReason.mono {app next : App} (seen : SeenReason app) (same : next.pc = app.pc)
    (raises : ∀ event, app.sm.isRaised event = true → next.sm.isRaised event = true) :
    SeenReason next := by
  unfold SeenReason at seen ⊢
  rw [same]
  split at seen
  · exact seen.imp (raises _) (raises _)
  · exact seen.imp id (Or.imp (raises _) (raises _))
  · exact seen.imp (raises _) (raises _)
  all_goals simp_all

/-- The thread passes its waits and leaves its loops only for a reason. -/
theorem SeenReason.thread {kind : AppKind} {result : Bool} {app next : App} {state : AppState}
    (seen : SeenReason app) (coherent : app.Coherent state)
    (taken : app.step kind result = some next) : SeenReason next := by
  cases coherent.effect taken with
  | consumed | lookedUp | wrote | ended | closed | announced | stopped =>
    simp [SeenReason, App.goto]
  | entered place => cases state <;> cases kind <;> simp [SeenReason, App.activity]
  | moved moves inside =>
    cases place : app.pc with
    | _ =>
      simp only [SeenReason, place] at seen
      simp only [App.move, place] at moves
      repeat' split at moves
      all_goals simp only [Option.some.injEq, reduceCtorEq] at moves
      all_goals
        subst moves
        simp_all [SeenReason]

/-- In every reachable application the thread has a reason for where it is. -/
theorem reachable_seenReason {kind : AppKind} {app : App}
    (reachable : (appSystem kind).Reachable app) : SeenReason app := by
  apply reachable_invariant reachable SeenReason trivial
  intro before label next state coherent seen _ step
  cases step with
  | thread steps => exact seen.thread coherent steps
  | request async =>
    refine seen.mono rfl ?_
    intro other raised
    simp [Machine.isRaised_raiseEvent, raised]
  | setFailure | pause | resume => exact seen.mono rfl fun _ raised => raised

/-- Steps of the application thread itself. -/
def AppLabel.IsThread (label : AppLabel) : Prop := ∃ result, label = .thread result

section Stale

variable {kind : AppKind} {app : App} {state target : AppState} {event exit : AppEvent}

/-- The thread has come to a state with a flag raised and is about to call its activity. -/
structure Arrived (target : AppState) (event : AppEvent) (app : App) : Prop where
  coherent : app.Coherent target
  place : app.pc = .dispatch
  raised : app.sm.isRaised event = true

/-- A write keeps the flags. -/
theorem arrives_of_write (coherent : app.Coherent state)
    (place : app.pc = .write exit (some target)) (raised : app.sm.isRaised event = true) :
    (appSystem kind).LeadsTo AppLabel.IsThread (Arrived target event) app := by
  refine .step _ ⟨true, rfl⟩ (by simp only [appSystem, appStep, App.step, place]; rfl) (.here ?_)
  constructor
  case coherent => exact ⟨by simpa using coherent.table, rfl, rfl⟩
  case place => rfl
  case raised => simpa using raised

theorem arrives_of_lookup (coherent : app.Coherent state) (place : app.pc = .lookup exit)
    (known : transition state exit = some target) (raised : app.sm.isRaised event = true) :
    (appSystem kind).LeadsTo AppLabel.IsThread (Arrived target event) app :=
  .step _ ⟨true, rfl⟩ (coherent.step_lookup place known)
    (arrives_of_write (coherent.goto (by simp [Pc.within, known])) rfl raised)

theorem arrives_of_consume (coherent : app.Coherent state) (place : app.pc = .consume exit)
    (known : transition state exit = some target) (raised : app.sm.isRaised event = true)
    (kept : event ≠ exit) :
    (appSystem kind).LeadsTo AppLabel.IsThread (Arrived target event) app := by
  refine .step _ ⟨true, rfl⟩ (by simp only [appSystem, appStep, App.step, place]; rfl) ?_
  refine arrives_of_lookup ⟨coherent.table, coherent.current, ?_⟩ rfl known ?_
  · simp [Pc.within, known]
  · simpa [Machine.isRaised_consumeEvent, kept] using raised

/-- A thread that is bound for a state takes every flag there which it does not clear. -/
theorem arrives_of_bound (coherent : app.Coherent state) (seen : SeenReason app)
    (leaves : app.pc.exit = some exit) (known : transition state exit = some target)
    (raised : app.sm.isRaised event = true) (kept : app.pc.clears event = false) :
    (appSystem kind).LeadsTo AppLabel.IsThread (Arrived target event) app := by
  have located := coherent.located
  cases place : app.pc with
  | write event' newState =>
    obtain rfl : event' = exit := by simpa [place, Pc.exit] using leaves
    obtain rfl : newState = some target := by
      have written : newState.isSome = true ∧ newState = transition state event' := by
        simpa [place, Pc.within] using located
      exact written.2.trans known
    exact arrives_of_write coherent place raised
  | lookup event' =>
    obtain rfl : event' = exit := by simpa [place, Pc.exit] using leaves
    exact arrives_of_lookup coherent place known raised
  | consume event' =>
    obtain rfl : event' = exit := by simpa [place, Pc.exit] using leaves
    exact arrives_of_consume coherent place known raised
      (fun same => by simp [place, Pc.clears, same] at kept)
  | activationExit activate =>
    cases activate with
    | false => simp [place, Pc.exit] at leaves
    | true =>
      obtain rfl : AppEvent.activated = exit := by simpa [place, Pc.exit] using leaves
      have taken : (appSystem kind).step app (.thread true) =
          some (app.goto (.lookup .activated)) := by
        simp [appSystem, appStep, App.step, App.move, place]
      exact .step _ ⟨true, rfl⟩ taken (arrives_of_lookup
        (coherent.goto (by simp [Pc.within, known])) rfl known raised)
  | idleTestQuit | runTestQuit | failTestQuit =>
    obtain rfl : AppEvent.quitRequest = exit := by simpa [place, Pc.exit] using leaves
    have quitting : app.sm.isRaised .quitRequest = true := by
      simpa [SeenReason, place] using seen
    have taken : (appSystem kind).step app (.thread true) =
        some (app.goto (.consume .quitRequest)) := by
      simp [appSystem, appStep, App.step, App.move, place, quitting]
    exact .step _ ⟨true, rfl⟩ taken (arrives_of_consume
      (coherent.goto (by simp [Pc.within, known, AppEvent.isAsync])) rfl known raised
      (fun same => by simp [place, Pc.clears, same] at kept))
  | _ => simp [place, Pc.exit] at leaves

/-- A flag is stale where the thread has arrived in a state that cannot use it. -/
theorem Arrived.stale (arrived : Arrived target event app)
    (unusable : transition target event = none) : ¬ FlagsUsable app := by
  intro usable
  have found := usable event arrived.raised
  simp [Machine.find, arrived.coherent.table, arrived.coherent.current, unusable] at found

/-- A flag that makes the thread leave the state it is in. -/
def Triggers (state : AppState) (event : AppEvent) (app : App) : Prop :=
  app.sm.state = some state ∧ app.pc = .consume event ∧ app.sm.isRaised event = true

/-- In IDLE a flag that can be used is taken up, unless another one comes first. -/
theorem Arrived.triggers (arrived : Arrived .idle event app) (goesOn : app.sm.quit = false)
    (usable : (transition .idle event).isSome = true) :
    (appSystem kind).LeadsTo AppLabel.IsThread
      (fun later => ∃ first, Triggers .idle first later) app := by
  have current := arrived.coherent.current
  have raised := arrived.raised
  have wakes : app.sm.isRaised .activationRequest = true ∨
      app.sm.isRaised .quitRequest = true := by
    cases event <;> simp [transition] at usable <;> simp [raised]
  have waits : (appSystem kind).step app (.thread true) = some (app.goto .idleWait) := by
    simp [appSystem, appStep, App.step, arrived.place, goesOn, current, App.activity]
  have woken : (appSystem kind).step (app.goto .idleWait) (.thread true) =
      some (app.goto .idleTestActivation) := by
    simp [appSystem, appStep, App.step, App.move, App.goto, wakes]
  refine .step _ ⟨true, rfl⟩ waits (.step _ ⟨true, rfl⟩ woken ?_)
  cases activating : app.sm.isRaised .activationRequest with
  | true =>
    have chosen : (appSystem kind).step (app.goto .idleTestActivation) (.thread true) =
        some (app.goto (.consume .activationRequest)) := by
      simp [appSystem, appStep, App.step, App.move, App.goto, activating]
    exact .step _ ⟨true, rfl⟩ chosen (.here ⟨.activationRequest, current, rfl, activating⟩)
  | false =>
    have quitting : app.sm.isRaised .quitRequest = true := by simpa [activating] using wakes
    have passed : (appSystem kind).step (app.goto .idleTestActivation) (.thread true) =
        some (app.goto .idleTestQuit) := by
      simp [appSystem, appStep, App.step, App.move, App.goto, activating]
    have chosen : (appSystem kind).step (app.goto .idleTestQuit) (.thread true) =
        some (app.goto (.consume .quitRequest)) := by
      simp [appSystem, appStep, App.step, App.move, App.goto, quitting]
    exact .step _ ⟨true, rfl⟩ passed
      (.step _ ⟨true, rfl⟩ chosen (.here ⟨.quitRequest, current, rfl, quitting⟩))

end Stale

/-- A step that does not heed requests leaves the thread bound for a state with a
flag raised which it is not going to clear, and which IDLE or that state cannot use. -/
theorem bound_of_unheeded {kind : AppKind} {app next : App} {label : AppLabel} {state : AppState}
    (coherent : app.Coherent state) (seen : SeenReason app) (unheeded : ¬ Heeds app label)
    (taken : (appSystem kind).step app label = some next) :
    ∃ exit target event, next.Coherent state ∧ SeenReason next ∧ next.pc.exit = some exit ∧
      transition state exit = some target ∧ next.sm.isRaised event = true ∧
      next.pc.clears event = false ∧ (target ≠ .idle → transition target event = none) := by
  cases label with
  | request event =>
    simp only [Heeds, Classical.not_imp, not_forall, Bool.not_eq_true, not_and,
      Option.isSome_eq_false_iff, Option.isNone_iff_eq_none] at unheeded
    obtain ⟨accepted, kept, target, bound, unusable⟩ := unheeded
    obtain ⟨exit, leaves⟩ : ∃ exit, app.pc.exit = some exit := by
      cases leaves : app.pc.exit with
      | none => simp [App.boundFor, leaves] at bound
      | some exit => exact ⟨exit, rfl⟩
    have known : transition state exit = some target := (coherent.boundFor leaves).symm.trans bound
    simp only [appSystem, appStep] at taken
    split at taken
    · obtain rfl := Option.some.inj taken
      refine ⟨exit, target, event, coherent.request event, seen.mono rfl ?_, leaves, known, ?_,
        kept, unusable⟩
      · intro other raised
        simp [Machine.isRaised_raiseEvent, raised]
      · simp [Machine.isRaised_raiseEvent, accepted]
    · cases taken
  | thread result =>
    rw [Heeds, Classical.not_and_iff_not_or_not] at unheeded
    simp only [Classical.not_imp, Bool.not_eq_false] at unheeded
    obtain ⟨place, rfl, raised⟩ | ⟨place, stopping, raised⟩ := unheeded
    · obtain rfl : state = .activation := by
        simpa [place, Pc.within] using coherent.located
      have arrives : app.goto (.activationExit true) = next := by
        simpa [appSystem, appStep, App.step, App.move, place] using taken
      subst arrives
      exact ⟨.activated, .run, .stopActivation, coherent.goto rfl, trivial, rfl, rfl, raised, rfl,
        fun _ => rfl⟩
    · obtain rfl : state = .activation := by
        simpa [place, Pc.within] using coherent.located
      have arrives : app.goto (.consume .stopActivation) = next := by
        simpa [appSystem, appStep, App.step, App.move, place, stopping] using taken
      subst arrives
      exact ⟨.stopActivation, .idle, .quitRequest, coherent.goto rfl, trivial, rfl, rfl, raised,
        rfl, fun elsewhere => absurd rfl elsewhere⟩
  | setFailure | pause | resume => exact absurd trivial unheeded

/-! ### Activation cycles -/

/-- The activation cycle the machine is in, and the one in which each flag was raised. -/
structure Cycles where
  current : Nat
  accepted : AppEvent → Nat

/-- A cycle begins when the machine enters IDLE; a flag that is newly raised is one of the
cycle in which that happens. -/
def Cycles.record (before : App) (_ : AppLabel) (after : App) (cycles : Cycles) : Cycles where
  current :=
    if after.sm.state = some .idle ∧ before.sm.state ≠ some .idle then cycles.current + 1
    else cycles.current
  accepted event :=
    if after.sm.isRaised event = true ∧ before.sm.isRaised event = false then cycles.current
    else cycles.accepted event

/-- An application, its thread and its surroundings with the record of its cycles. -/
def cycledApp (kind : AppKind) : System (App × Cycles) AppLabel :=
  (appSystem kind).withHistory ⟨0, fun _ => 0⟩ Cycles.record

/-- No memory about past events: every raised flag can be used in the current state,
and a request makes the machine leave a state only in the cycle in which it was accepted. -/
structure Memoryless (run : App × Cycles) : Prop where
  usable : FlagsUsable run.1
  ownCycle : ∀ state event, Triggers state event run.1 → run.2.accepted event = run.2.current

/-- A step of the thread raises no flag. -/
theorem isRaised_of_thread {kind : AppKind} {app next : App} {result : Bool} {state : AppState}
    {event : AppEvent} (coherent : app.Coherent state) (taken : app.step kind result = some next)
    (raised : next.sm.isRaised event = true) : app.sm.isRaised event = true := by
  cases coherent.effect taken with
  | consumed =>
    rw [Machine.isRaised_consumeEvent] at raised
    split at raised
    · cases raised
    · exact raised
  | lookedUp | ended | entered | moved | announced => exact raised
  | wrote | closed | stopped => simpa using raised

section Cycles

variable {kind : AppKind} {before after : App} {label : AppLabel}

/-- Without its record a run is one of the application. -/
theorem reachable_of_cycled {run : App × Cycles} (reachable : (cycledApp kind).Reachable run) :
    (appSystem kind).Reachable run.1 := by
  apply reachable.invariant (fun run => (appSystem kind).Reachable run.1) .initial
  intro run label next prior _ taken
  exact .step prior trivial (System.withHistory_step_iff.mp taken).1

/-- No flag was raised in a cycle to come. -/
theorem accepted_le_current {run : App × Cycles} (reachable : (cycledApp kind).Reachable run)
    (event : AppEvent) : run.2.accepted event ≤ run.2.current := by
  apply reachable.invariant (fun run => run.2.accepted event ≤ run.2.current) (Nat.le_refl 0)
  intro run label next bounded _ taken
  obtain ⟨_, recorded⟩ := System.withHistory_step_iff.mp taken
  simp only [recorded, Cycles.record]
  split <;> split <;> omega

/-- A heedful application does not enter IDLE with a flag raised. -/
theorem Heedful.enters_idle {state : AppState} {event : AppEvent} (holds : Heedful before state)
    (taken : (appSystem kind).step before label = some after)
    (raised : after.sm.isRaised event = true) :
    ¬ (after.sm.state = some .idle ∧ before.sm.state ≠ some .idle) := by
  rintro ⟨inside, outside⟩
  cases appStep_cases taken with
  | thread steps =>
    have raisedBefore := isRaised_of_thread holds.coherent steps raised
    cases holds.coherent.effect steps with
    | @wrote exit target place known =>
      obtain rfl : target = .idle := by simpa using inside
      exact (holds.bound_write place known raisedBefore).1 rfl
    | consumed | lookedUp | ended | entered | moved | closed | announced | stopped =>
      exact outside (by simpa using inside)
  | request async => exact outside (by simpa using inside)
  | setFailure | pause | resume => exact outside inside

/-- Along runs that heed requests every raised flag is one of the current cycle. -/
theorem accepted_eq_current {run : App × Cycles}
    (reachable : (cycledApp kind).ReachableUnder (fun run => Heeds run.1) run) (event : AppEvent) :
    run.1.sm.isRaised event = true → run.2.accepted event = run.2.current := by
  apply reachable.invariantFrom
    (fun run => run.1.sm.isRaised event = true → run.2.accepted event = run.2.current)
  · intro raised
    simp [cycledApp, appSystem, System.withHistory] at raised
  · intro run label next reached fresh heeds taken raised
    obtain ⟨steps, recorded⟩ := System.withHistory_step_iff.mp taken
    obtain ⟨state, holds⟩ := reachable_heedful reached.unrecorded
    simp only [recorded, Cycles.record, if_neg (holds.enters_idle steps raised)]
    split
    · rfl
    · next old =>
      apply fresh
      simpa [raised] using old

/-- What a run that does not heed requests keeps of its past: a raised flag of an earlier
cycle, once the machine is in IDLE. -/
def Overdue (run : App × Cycles) : Prop :=
  (∃ state, run.1.Coherent state) ∧ ∀ event, run.1.sm.isRaised event = true →
    run.2.accepted event ≤ run.2.current ∧
    (run.1.sm.state = some .idle → run.2.accepted event < run.2.current)

/-- The thread alone raises no flag anew. -/
theorem Overdue.thread {run next : App × Cycles} (overdue : Overdue run)
    (own : label.IsThread) (taken : (cycledApp kind).step run label = some next) :
    Overdue next := by
  obtain ⟨result, rfl⟩ := own
  obtain ⟨⟨state, coherent⟩, past⟩ := overdue
  obtain ⟨steps, recorded⟩ := System.withHistory_step_iff.mp taken
  have moved : appStep kind run.1 (.thread result) = some next.1 := steps
  refine ⟨coherent.appStep moved, ?_⟩
  intro event raised
  have raisedBefore := isRaised_of_thread coherent steps raised
  have ⟨bounded, idle⟩ := past event raisedBefore
  have same : next.2.accepted event = run.2.accepted event := by
    simp [recorded, Cycles.record, raisedBefore]
  by_cases enters : next.1.sm.state = some .idle ∧ run.1.sm.state ≠ some .idle
  · have later : next.2.current = run.2.current + 1 := by
      simp [recorded, Cycles.record, enters]
    exact ⟨by omega, fun _ => by omega⟩
  · have still : next.2.current = run.2.current := by
      simp only [recorded, Cycles.record, if_neg enters]
    rw [same, still]
    refine ⟨bounded, fun inside => idle ?_⟩
    by_contra outside
    exact enters ⟨inside, outside⟩

end Cycles

/-- A step that does not heed requests lets the thread alone reach a state with a
flag that has no transition, or one in which a request of an earlier cycle makes
the machine leave. -/
theorem remembers_of_unheeded {kind : AppKind} {run next : App × Cycles} {label : AppLabel}
    (reachable : (cycledApp kind).Reachable run) (unheeded : ¬ Heeds run.1 label)
    (taken : (cycledApp kind).step run label = some next) :
    (cycledApp kind).LeadsTo AppLabel.IsThread (fun later => ¬ Memoryless later) next := by
  obtain ⟨steps, recorded⟩ := System.withHistory_step_iff.mp taken
  have prior := reachable_of_cycled reachable
  have reached : (appSystem kind).Reachable next.1 := .step prior trivial steps
  obtain ⟨state, coherent⟩ := reachable_coherent prior
  obtain ⟨exit, target, event, arriving, seen, leaves, known, raised, kept, unusable⟩ :=
    bound_of_unheeded coherent (reachable_seenReason prior) unheeded steps
  have arrives : (appSystem kind).LeadsTo AppLabel.IsThread (Arrived target event) next.1 :=
    arrives_of_bound arriving seen leaves known raised kept
  cases usable : transition target event with
  | none =>
    have stale : (appSystem kind).LeadsTo AppLabel.IsThread (fun later => ¬ FlagsUsable later)
        next.1 :=
      arrives.andThen fun later arrived => .here (arrived.stale usable)
    exact (stale.recorded next.2).andThen fun later stale =>
      .here fun memoryless => stale memoryless.usable
  | some further =>
    obtain rfl : target = .idle := by
      by_contra elsewhere
      simp [unusable elsewhere] at usable
    have triggers : (appSystem kind).LeadsTo AppLabel.IsThread
        (fun later => ∃ first, Triggers .idle first later) next.1 := by
      refine (arrives.keeping reached fun prior _ moves => .step prior trivial moves).andThen ?_
      rintro later ⟨arrived, prior⟩
      refine arrived.triggers ?_ (by simp [usable])
      by_contra ended
      have quitting := reachable_ended prior (by simpa using ended)
      simp [arrived.coherent.current] at quitting
    have outside : next.1.sm.state ≠ some .idle := by
      intro inside
      obtain rfl : state = .idle := by simpa [arriving.current] using inside
      cases exit <;> simp [transition] at known
    have overdue : Overdue next := by
      refine ⟨⟨state, arriving⟩, ?_⟩
      intro event _
      exact ⟨accepted_le_current (.step reachable trivial taken) event,
        fun inside => absurd inside outside⟩
    refine ((triggers.recorded next.2).keeping overdue Overdue.thread).andThen ?_
    rintro later ⟨⟨first, leaves⟩, past⟩
    refine .here fun memoryless => ?_
    have same := memoryless.ownCycle _ first leaves
    exact absurd same (Nat.ne_of_lt ((past.2 first leaves.2.2).2 leaves.1))

/-- Along runs that heed requests every raised flag can be used in the current
state, and no request triggers a transition in a later activation cycle. A step
that does not heed requests lets the thread go on to a state where one of the two
fails. -/
theorem flags_usable_of_heeds (kind : AppKind) :
    (∀ run, (cycledApp kind).ReachableUnder (fun run => Heeds run.1) run → Memoryless run) ∧
    ∀ run label next, (cycledApp kind).Reachable run → ¬ Heeds run.1 label →
      (cycledApp kind).step run label = some next →
      (cycledApp kind).LeadsTo AppLabel.IsThread (fun later => ¬ Memoryless later) next := by
  refine ⟨?_, ?_⟩
  · intro run reachable
    obtain ⟨state, holds⟩ := reachable_heedful reachable.unrecorded
    constructor
    case usable =>
      intro event raised
      simpa [holds.coherent.find] using holds.usable event raised
    case ownCycle =>
      rintro state event ⟨_, _, raised⟩
      exact accepted_eq_current reachable event raised
  · intro run label next
    exact remembers_of_unheeded

/-- A layer is told to activate and gets to `checkActivation`. -/
def intoCheck : List AppLabel :=
  List.replicate 3 (.thread true) ++ [.request .activationRequest] ++
    List.replicate 8 (.thread true)

/-- A `stop_activation` arrives there, while `checkActivation` is about to return
true. -/
def stopDuringCheck : List AppLabel :=
  intoCheck ++ [.request .stopActivation] ++ List.replicate 4 (.thread true)

/-- The layer is deactivated and activated again. -/
def secondActivation : List AppLabel :=
  [.thread true, .request .deactivationRequest] ++ List.replicate 10 (.thread true) ++
    [.request .activationRequest] ++ List.replicate 8 (.thread true)

/-- A deactivation request in RUN can be used. The step behind a late
`stop_activation` leads to a flag that cannot. -/
theorem flags_usable_in_run :
    (∃ run : App × Cycles, run.1.sm.isRaised .deactivationRequest = true ∧ Memoryless run) ∧
      ∃ next : App × Cycles, next.1.sm.isRaised .stopActivation = true ∧
        (cycledApp .layer).LeadsTo AppLabel.IsThread (fun later => ¬ Memoryless later) next := by
  have requested : ((appSystem .layer).run (intoCheck ++ List.replicate 4 (.thread true) ++
      [.request .deactivationRequest])).any (fun app => app.sm.isRaised .deactivationRequest) =
        true := by
    decide
  have heeded : (appSystem .layer).AdmitsFrom Heeds (appSystem .layer).initial
      (intoCheck ++ List.replicate 4 (.thread true) ++ [.request .deactivationRequest]) := by
    decide
  obtain ⟨app, reachable, raised⟩ := System.exists_reachableUnder_of_run heeded requested
  obtain ⟨cycles, recorded⟩ := reachable.recorded
  refine ⟨⟨(app, cycles), raised, (flags_usable_of_heeds .layer).1 (app, cycles) recorded⟩, ?_⟩
  have replay : ((appSystem .layer).run (intoCheck ++ [.request .stopActivation])).any (fun app =>
      (app.pc == .checkActivation && app.sm.isRaised .stopActivation) &&
      ((appSystem .layer).step app (.thread true)).any fun next =>
        next.sm.isRaised .stopActivation) = true := by
    decide
  obtain ⟨app, reachable, passes⟩ := System.exists_reachable_of_run replay
  obtain ⟨cycles, recorded⟩ := reachable.recorded
  simp only [Bool.and_eq_true, beq_iff_eq, Option.any_eq_true] at passes
  obtain ⟨⟨place, raised⟩, next, taken, kept⟩ := passes
  refine ⟨(next, cycles.record app (.thread true) next), kept,
    (flags_usable_of_heeds .layer).2 (app, cycles) (.thread true) _ recorded (fun heeds => ?_)
      (System.withHistory_step_iff.mpr ⟨taken, rfl⟩)⟩
  exact absurd (raised.symm.trans (heeds.1 place rfl)) (by simp)

/-- A layer is activated, deactivated, and told to quit when `deactivation` has
already tested for that. -/
def quitBehindTest : List AppLabel :=
  intoCheck ++ List.replicate 5 (.thread true) ++ [.request .deactivationRequest] ++
    List.replicate 7 (.thread true) ++ [.request .quitRequest]

/-- Flags can outlive their state and their cycle: `stop_activation` is still raised
in RUN, and it ends the next activation although nobody has asked for that. A quit
request that comes when DEACTIVATION is left for IDLE ends the next activation. -/
theorem requests_go_stale :
    (∃ app later, (appSystem .layer).Reachable app ∧ app.sm.state = some .run ∧
      app.sm.isRaised .stopActivation = true ∧ ¬ FlagsUsable app ∧
      (appSystem .layer).runFrom app secondActivation = some later ∧
      later.sm.state = some .activation ∧ later.pc = .consume .stopActivation) ∧
    ∃ run : App × Cycles, (cycledApp .layer).Reachable run ∧
      Triggers .activation .quitRequest run.1 ∧
      run.2.accepted .quitRequest < run.2.current := by
  constructor
  · have replay : ((appSystem .layer).run stopDuringCheck).any (fun app =>
        (app.sm.state == some .run && app.sm.isRaised .stopActivation &&
          (app.sm.find .stopActivation).isNone) &&
        ((appSystem .layer).runFrom app secondActivation).any fun later =>
          later.sm.state == some .activation && later.pc == .consume .stopActivation) = true := by
      decide
    obtain ⟨app, replayed, passes⟩ := (Option.any_eq_true _ _).mp replay
    simp only [Bool.and_eq_true, beq_iff_eq, Option.isNone_iff_eq_none,
      Option.any_eq_true] at passes
    obtain ⟨⟨⟨running, raised⟩, absent⟩, later, replayedLater, again, leaves⟩ := passes
    refine ⟨app, later, System.ReachableUnder.initial.replay replayed, running, raised, ?_,
      replayedLater, again, leaves⟩
    intro usable
    simpa [absent] using usable .stopActivation raised
  · have replay : ((cycledApp .layer).run (quitBehindTest ++ List.replicate 3 (.thread true) ++
        [.request .activationRequest] ++ List.replicate 9 (.thread true))).any (fun run =>
          run.1.sm.state == some .activation && run.1.pc == .consume .quitRequest &&
          run.1.sm.isRaised .quitRequest &&
          decide (run.2.accepted .quitRequest < run.2.current)) = true := by
      decide
    obtain ⟨run, reachable, passes⟩ := System.exists_reachable_of_run replay
    simp only [Bool.and_eq_true, beq_iff_eq, decide_eq_true_eq] at passes
    obtain ⟨⟨⟨activating, leaves⟩, raised⟩, older⟩ := passes
    exact ⟨run, reachable, ⟨activating, leaves, raised⟩, older⟩

end Dls2.Application
