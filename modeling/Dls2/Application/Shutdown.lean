import Dls2.Application.Requests
import Dls2.Lib.Pending

/-!
# The shutdown handshake

`App::quit` waits until the monitor thread has sampled the same name for the
current and the desired state, namely `quit`. The desired state is written by
`nextState`, and by every `raiseEvent` call between its unlocked table lookup and
the store of its flag. A call whose lookup was made before QUIT can write
afterwards.

Here calls of `raiseEvent` are taken apart into these steps, any number of them
can be in progress, and the monitor thread takes part.
-/

namespace Dls2.Application

open Dls2.Pending Dls2.StateMachine Dls2.Transition

/-- The names given to the states by their constructors. -/
def AppState.name : AppState → String
  | .initialization => "initialization"
  | .idle => "idle"
  | .activation => "activation"
  | .deactivation => "deactivation"
  | .run => "run"
  | .fail => "fail"
  | .quit => "quit"

/-- What a call of `raiseEvent` in progress has done: it has found the transition,
or it has also written the desired state. -/
inductive RaisePhase where
  | found (target : Option AppState)
  | written
deriving DecidableEq, Repr

/-- A call of `raiseEvent` in progress. -/
structure RaiseCall where
  event : AppEvent
  phase : RaisePhase
deriving DecidableEq, Repr

/-- The places of `monitorApp` that matter for the handshake. -/
inductive MonitorPc where
  | readState
  | readDesiredState (currentState : String)
  | testQuit (currentState desiredState : String)
  | letDie
  | finished
deriving DecidableEq, Repr

/-- An application, its monitor thread, and the `raiseEvent` calls in progress. -/
structure Process where
  app : App
  monitor : MonitorPc
  calls : List RaiseCall

/-- Steps of the process. `app` covers the application thread and the commands
that do not raise an event. -/
inductive ProcessLabel where
  | app (label : AppLabel)
  /-- A thread calls `raiseEvent` and looks the transition up. -/
  | call (event : AppEvent)
  /-- The call with this index goes on. -/
  | advance (index : Nat)
  | monitor
deriving DecidableEq, Repr

namespace Process

/-- The lookup of `raiseEvent`; a call without a transition returns at once. -/
def lookup (event : AppEvent) (process : Process) : Process :=
  match process.app.sm.find event with
  | none => process
  | some target => { process with calls := process.calls ++ [⟨event, .found target⟩] }

/-- The other two steps of a call: the locked write, and the store of the flag,
after which the call is over. -/
def advance (index : Nat) (call : RaiseCall) (process : Process) : Process :=
  match call.phase with
  | .found target =>
    { process with
      app := { process.app with sm := process.app.sm.writeDesired target }
      calls := process.calls.set index { call with phase := .written } }
  | .written =>
    { process with
      app := { process.app with sm := process.app.sm.storeEvent call.event true }
      calls := process.calls.eraseIdx index }

/-- One step of `monitorApp`: two locked reads, the exit condition, and the locked
write of `can_die`. -/
def monitorApp (process : Process) : Option Process :=
  match process.monitor with
  | .readState => process.app.sm.state.map fun state =>
    { process with monitor := .readDesiredState state.name }
  | .readDesiredState currentState => process.app.sm.desiredState.map fun desiredState =>
    { process with monitor := .testQuit currentState desiredState.name }
  | .testQuit currentState desiredState =>
    if process.app.shouldQuit && currentState == desiredState && currentState == "quit" then
      some { process with monitor := .letDie }
    else some { process with monitor := .readState }
  | .letDie => some { process with
      app := { process.app with canDie := true }, monitor := .finished }
  | .finished => none

/-- One step of the process; whole `raiseEvent` calls are not steps here. -/
def step (kind : AppKind) (process : Process) : ProcessLabel → Option Process
  | .app (.request _) => none
  | .app label => (appStep kind process.app label).map fun app => { process with app := app }
  | .call event => if event.isAsync then some (process.lookup event) else none
  | .advance index => process.calls[index]?.map fun call => process.advance index call
  | .monitor => process.monitorApp

/-- Undisturbed, the three steps of an accepted call are one call of `raiseEvent`. -/
theorem raiseEvent_steps {kind : AppKind} {process : Process} {event : AppEvent}
    {target : Option AppState} (idle : process.calls = []) (async : event.isAsync = true)
    (found : process.app.sm.find event = some target) :
    (process.step kind (.call event)).bind (fun next =>
      (next.step kind (.advance 0)).bind fun next => next.step kind (.advance 0)) =
        some { process with
          app := { process.app with sm := (process.app.sm.raiseEvent event).2 } } := by
  have called : process.step kind (.call event) =
      some { process with calls := [⟨event, .found target⟩] } := by
    simp [step, async, lookup, found, idle]
  rw [called]
  simp [step, advance, Machine.raiseEvent, found, idle]

end Process

/-- An application that starts with its monitor thread and no call in progress. -/
def processSystem (kind : AppKind) : System Process ProcessLabel where
  initial := ⟨App.new, .readState, []⟩
  step := Process.step kind

/-- The call is still going to write QUIT. -/
def RaiseCall.WritesQuit (call : RaiseCall) : Prop := call.phase = .found (some .quit)

instance : DecidablePred RaiseCall.WritesQuit := fun call =>
  inferInstanceAs (Decidable (call.phase = .found (some .quit)))

/-- The call is going to write another desired state. -/
def RaiseCall.WritesOther (call : RaiseCall) : Prop :=
  match call.phase with
  | .found target => target ≠ some .quit
  | .written => False

instance : DecidablePred RaiseCall.WritesOther
  | ⟨_, .found target⟩ => inferInstanceAs (Decidable (target ≠ some .quit))
  | ⟨_, .written⟩ => isFalse id

/-- Such a call still has its write before it. -/
theorem RaiseCall.WritesOther.target {call : RaiseCall} (other : call.WritesOther) :
    ∃ target, call.phase = .found target ∧ target ≠ some .quit := by
  unfold RaiseCall.WritesOther at other
  split at other
  · exact ⟨_, ‹_›, other⟩
  · exact other.elim

/-- In QUIT no call writes another desired state, unless one in progress is still
going to write QUIT. -/
def WritesLast (process : Process) : ProcessLabel → Prop
  | .advance index => process.app.sm.state = some .quit →
      ∀ call ∈ process.calls[index]?, call.WritesOther →
        ∃ other ∈ process.calls.eraseIdx index, other.WritesQuit
  | .app _ | .call _ | .monitor => True

instance WritesLast.decidable (process : Process) :
    (label : ProcessLabel) → Decidable (WritesLast process label)
  | .advance index => inferInstanceAs (Decidable (process.app.sm.state = some .quit →
      ∀ call ∈ process.calls[index]?, call.WritesOther →
        ∃ other ∈ process.calls.eraseIdx index, other.WritesQuit))
  | .app _ | .call _ | .monitor => isTrue trivial

/-- The invariant of such runs. -/
structure Settling (process : Process) : Prop where
  desired : process.app.sm.state = some .quit →
    process.app.sm.desiredState = some .quit ∨ ∃ call ∈ process.calls, call.WritesQuit
  finished : process.monitor = .finished → process.app.canDie = true

/-- QUIT has been reached, and no call that is left can set the desired state right. -/
structure Unsettled (process : Process) : Prop where
  coherent : process.app.Coherent .quit
  desired : process.app.sm.desiredState ≠ some .quit
  calls : ∀ call ∈ process.calls, ¬ call.WritesQuit

/-- The thread writes current and desired state together, and both only in
`nextState`; it does not touch `can_die`. -/
theorem App.Effect.states {kind : AppKind} {result : Bool} {app next : App} {state : AppState}
    (effect : app.Effect kind result state next) :
    next.canDie = app.canDie ∧
      ((next.sm.state = app.sm.state ∧ next.sm.desiredState = app.sm.desiredState) ∨
        ∃ event target, transition state event = some target ∧
          next.sm.state = some target ∧ next.sm.desiredState = some target) := by
  cases effect with
  | @wrote event target place known =>
    exact ⟨rfl, .inr ⟨event, target, known, rfl, rfl⟩⟩
  | closed place quitting => cases kind <;> exact ⟨rfl, .inl ⟨rfl, rfl⟩⟩
  | consumed | lookedUp | ended | entered | moved | announced | stopped =>
    exact ⟨rfl, .inl ⟨rfl, rfl⟩⟩

/-- The same for every step of the application that is not a `raiseEvent` call. -/
theorem App.Coherent.states {kind : AppKind} {app next : App} {state : AppState}
    {label : AppLabel} (coherent : app.Coherent state) (own : ∀ event, label ≠ .request event)
    (taken : Application.appStep kind app label = some next) :
    next.canDie = app.canDie ∧
      ((next.sm.state = app.sm.state ∧ next.sm.desiredState = app.sm.desiredState) ∨
        ∃ event target, transition state event = some target ∧
          next.sm.state = some target ∧ next.sm.desiredState = some target) := by
  cases appStep_cases taken with
  | thread steps => exact (coherent.effect steps).states
  | request async => exact absurd rfl (own _)
  | setFailure | pause | resume => exact ⟨rfl, .inl ⟨rfl, rfl⟩⟩

/-- A step of the application inside its process. -/
theorem Process.step_app {kind : AppKind} {process next : Process} {label : AppLabel}
    (taken : process.step kind (.app label) = some next) :
    (∀ event, label ≠ .request event) ∧
      ∃ app, appStep kind process.app label = some app ∧ next = { process with app := app } := by
  cases label with
  | request event => cases taken
  | thread result | setFailure | pause | resume =>
    obtain ⟨app, stepped, rfl⟩ := Option.map_eq_some_iff.mp taken
    exact ⟨by simp, app, stepped, rfl⟩

/-- The monitor thread leaves the state machine alone. -/
theorem Process.monitorApp_effect {process next : Process}
    (taken : process.monitorApp = some next) :
    next.app.sm = process.app.sm ∧ next.app.pc = process.app.pc ∧ next.calls = process.calls ∧
      (next.monitor = .finished → next.app.canDie = true) := by
  simp only [Process.monitorApp] at taken
  split at taken
  · obtain ⟨state, -, rfl⟩ := Option.map_eq_some_iff.mp taken
    simp
  · obtain ⟨state, -, rfl⟩ := Option.map_eq_some_iff.mp taken
    simp
  · split at taken <;> obtain rfl := Option.some.inj taken <;> simp
  · obtain rfl := Option.some.inj taken
    simp
  · cases taken

/-- Calls and the monitor thread leave the place of the application thread, the
current state and the table alone. -/
theorem Process.coherent_advance {process : Process} {state : AppState} (index : Nat)
    (call : RaiseCall) (coherent : process.app.Coherent state) :
    (process.advance index call).app.Coherent state := by
  unfold Process.advance
  split <;> exact ⟨coherent.table, coherent.current, coherent.located⟩

theorem Process.coherent_monitorApp {process next : Process} {state : AppState}
    (coherent : process.app.Coherent state) (taken : process.monitorApp = some next) :
    next.app.Coherent state := by
  obtain ⟨machine, place, _, _⟩ := Process.monitorApp_effect taken
  exact ⟨machine ▸ coherent.table, machine ▸ coherent.current, place ▸ coherent.located⟩

@[simp] theorem Process.app_lookup (event : AppEvent) (process : Process) :
    (process.lookup event).app = process.app := by
  unfold Process.lookup
  split <;> rfl

/-- Every reachable process has a coherent application. -/
theorem reachable_process_coherent {kind : AppKind} {process : Process}
    (reachable : (processSystem kind).Reachable process) :
    ∃ state, process.app.Coherent state := by
  apply reachable.invariant (fun process => ∃ state, process.app.Coherent state)
  · exact ⟨.initialization, App.coherent_new⟩
  rintro before label next ⟨state, coherent⟩ _ taken
  cases label with
  | app label =>
    obtain ⟨_, app, stepped, rfl⟩ := Process.step_app taken
    exact coherent.appStep stepped
  | call event =>
    simp only [processSystem, Process.step] at taken
    split at taken
    · obtain rfl := Option.some.inj taken
      exact ⟨state, by simpa using coherent⟩
    · cases taken
  | advance index =>
    obtain ⟨call, _, rfl⟩ := Option.map_eq_some_iff.mp taken
    exact ⟨state, Process.coherent_advance index call coherent⟩
  | monitor => exact ⟨state, Process.coherent_monitorApp coherent taken⟩

namespace Settling

variable {process next : Process}

/-- The thread and the commands keep the invariant. -/
theorem app {kind : AppKind} {label : AppLabel} (holds : Settling process)
    (coherent : ∃ state, process.app.Coherent state)
    (taken : process.step kind (.app label) = some next) : Settling next := by
  obtain ⟨own, app, stepped, rfl⟩ := Process.step_app taken
  obtain ⟨state, coherent⟩ := coherent
  obtain ⟨canDie, same | ⟨event, target, _, moved, desired⟩⟩ := coherent.states own stepped
  · constructor
    case desired =>
      intro quits
      rw [same.2]
      exact holds.desired (same.1.symm.trans quits)
    case finished =>
      intro finished
      exact canDie.trans (holds.finished finished)
  · constructor
    case desired =>
      intro quits
      exact .inl (desired.trans (moved.symm.trans quits))
    case finished =>
      intro finished
      exact canDie.trans (holds.finished finished)

/-- A new call keeps the invariant. -/
theorem lookup (holds : Settling process) (event : AppEvent) :
    Settling (process.lookup event) := by
  unfold Process.lookup
  cases process.app.sm.find event with
  | none => exact holds
  | some target =>
    constructor
    case desired =>
      intro quits
      obtain agreed | ⟨call, member, writes⟩ := holds.desired quits
      · exact .inl agreed
      · exact .inr ⟨call, List.mem_append_left _ member, writes⟩
    case finished => exact holds.finished

/-- A call that goes on keeps the invariant when it does not write last. -/
theorem advance {index : Nat} {call : RaiseCall} (holds : Settling process)
    (atIndex : process.calls[index]? = some call) (last : WritesLast process (.advance index)) :
    Settling (process.advance index call) := by
  cases phase : call.phase with
  | found target =>
    simp only [Process.advance, phase]
    constructor
    case desired =>
      intro quits
      by_cases quit : target = some .quit
      · exact .inl quit
      · obtain ⟨other, member, writes⟩ := last quits call (by simp [atIndex])
          (by simpa [RaiseCall.WritesOther, phase] using quit)
        exact .inr ⟨other, mem_set_of_mem_eraseIdx member, writes⟩
    case finished => exact holds.finished
  | written =>
    simp only [Process.advance, phase]
    constructor
    case desired =>
      intro quits
      obtain agreed | ⟨other, member, writes⟩ := holds.desired quits
      · exact .inl agreed
      · have different : other ≠ call := by
          rintro rfl
          exact absurd (writes.symm.trans phase) (by simp)
        exact .inr ⟨other, mem_eraseIdx_of_ne member atIndex different, writes⟩
    case finished => exact holds.finished

/-- The monitor thread keeps the invariant. -/
theorem monitor (holds : Settling process) (taken : process.monitorApp = some next) :
    Settling next := by
  obtain ⟨machine, _, calls, finished⟩ := Process.monitorApp_effect taken
  constructor
  case desired =>
    rw [machine, calls]
    exact holds.desired
  case finished => exact finished

end Settling

/-- The invariant holds along every run in which no call writes last. -/
theorem reachable_settling {kind : AppKind} {process : Process}
    (reachable : (processSystem kind).ReachableUnder WritesLast process) : Settling process := by
  induction reachable with
  | initial =>
    exact ⟨by simp [processSystem, App.new, AppStateMachine.new, Machine.init],
      by simp [processSystem]⟩
  | @step process next label prior last taken holds =>
    cases label with
    | app label => exact holds.app (reachable_process_coherent prior.reachable) taken
    | call event =>
      simp only [processSystem, Process.step] at taken
      split at taken
      · exact Option.some.inj taken ▸ holds.lookup event
      · cases taken
    | advance index =>
      obtain ⟨call, atIndex, rfl⟩ := Option.map_eq_some_iff.mp taken
      exact holds.advance atIndex last
    | monitor => exact holds.monitor taken

namespace Unsettled

variable {kind : AppKind} {process next : Process}

/-- In QUIT the thread and the commands write neither the state nor the desired
state. -/
theorem app {label : AppLabel} (holds : Unsettled process)
    (taken : process.step kind (.app label) = some next) : Unsettled next := by
  obtain ⟨own, app, stepped, rfl⟩ := Process.step_app taken
  obtain ⟨_, same | ⟨event, target, known, _, _⟩⟩ := holds.coherent.states own stepped
  · obtain ⟨reached, coherent⟩ := holds.coherent.appStep stepped
    obtain rfl : reached = .quit :=
      Option.some.inj (coherent.current.symm.trans (same.1.trans holds.coherent.current))
    exact ⟨coherent, same.2 ▸ holds.desired, holds.calls⟩
  · simp at known

/-- A call that goes on writes no QUIT. -/
theorem advance {index : Nat} {call : RaiseCall} (holds : Unsettled process)
    (atIndex : process.calls[index]? = some call) : Unsettled (process.advance index call) := by
  have unwilling := holds.calls call (List.mem_of_getElem? atIndex)
  have coherent := Process.coherent_advance index call holds.coherent
  cases phase : call.phase with
  | found target =>
    simp only [Process.advance, phase] at coherent ⊢
    constructor
    case coherent => exact coherent
    case desired =>
      intro quits
      obtain rfl : target = some .quit := quits
      exact unwilling phase
    case calls =>
      intro other member
      obtain before | rfl := List.mem_or_eq_of_mem_set member
      · exact holds.calls other before
      · simp [RaiseCall.WritesQuit]
  | written =>
    simp only [Process.advance, phase] at coherent ⊢
    refine ⟨coherent, holds.desired, ?_⟩
    intro other member
    exact holds.calls other (List.mem_of_mem_eraseIdx member)

/-- Every step leaves an unsettled process unsettled. -/
theorem step {label : ProcessLabel} (holds : Unsettled process)
    (taken : process.step kind label = some next) : Unsettled next := by
  cases label with
  | app label => exact holds.app taken
  | call event =>
    simp only [Process.step] at taken
    split at taken
    · obtain rfl := Option.some.inj taken
      simpa [Process.lookup, holds.coherent.find] using holds
    · cases taken
  | advance index =>
    obtain ⟨call, atIndex, rfl⟩ := Option.map_eq_some_iff.mp taken
    exact holds.advance atIndex
  | monitor =>
    obtain ⟨machine, _, calls, _⟩ := Process.monitorApp_effect taken
    exact ⟨Process.coherent_monitorApp holds.coherent taken, machine ▸ holds.desired,
      calls ▸ holds.calls⟩

/-- So does every run. -/
theorem runFrom {labels : List ProcessLabel} (holds : Unsettled process)
    (continued : (processSystem kind).runFrom process labels = some next) : Unsettled next :=
  System.runFrom_invariant continued Unsettled holds fun holds taken => holds.step taken

end Unsettled

/-- A call that writes last leaves the process unsettled. -/
theorem unsettled_of_not_writesLast {kind : AppKind} {process next : Process}
    {label : ProcessLabel} (reachable : (processSystem kind).Reachable process)
    (late : ¬ WritesLast process label) (taken : process.step kind label = some next) :
    Unsettled next := by
  obtain ⟨state, coherent⟩ := reachable_process_coherent reachable
  cases label with
  | advance index =>
    simp only [WritesLast, Classical.not_imp, not_forall, not_exists, not_and] at late
    obtain ⟨quits, call, member, other, alone⟩ := late
    obtain ⟨target, phase, differs⟩ := other.target
    obtain rfl : state = .quit := Option.some.inj (coherent.current.symm.trans quits)
    obtain ⟨moved, atIndex, rfl⟩ := Option.map_eq_some_iff.mp taken
    obtain rfl : call = moved := Option.some.inj (member.symm.trans atIndex)
    have coherent := Process.coherent_advance index call coherent
    simp only [Process.advance, phase] at coherent ⊢
    refine ⟨coherent, differs, ?_⟩
    intro later among writes
    obtain before | rfl := List.mem_or_eq_of_mem_set among
    · apply alone later (mem_eraseIdx_of_ne before atIndex _) writes
      rintro rfl
      exact differs (RaisePhase.found.inj (phase.symm.trans writes))
    · exact absurd writes (by simp [RaiseCall.WritesQuit])
  | app label | call event | monitor => exact absurd trivial late

/-! ### The monitor thread -/

/-- Steps of the monitor thread. -/
def ProcessLabel.IsMonitor (label : ProcessLabel) : Prop := label = .monitor

/-- The process waits in QUIT for the monitor thread, and the two states agree. -/
structure Agreed (process : Process) : Prop where
  current : process.app.sm.state = some .quit
  desired : process.app.sm.desiredState = some .quit
  shouldQuit : process.app.shouldQuit = true

namespace Agreed

variable {kind : AppKind} {process : Process}

/-- With the exit condition found true the monitor lets the application die. -/
theorem lets_die_of_letDie (place : process.monitor = .letDie) :
    (processSystem kind).LeadsTo ProcessLabel.IsMonitor
      (fun process => process.app.canDie = true) process :=
  .step ⟨{ process.app with canDie := true }, .finished, process.calls⟩ rfl
    (by simp [processSystem, Process.step, Process.monitorApp, place]) (.here rfl)

/-- One cycle of the monitor thread finds the exit condition true. -/
theorem lets_die_of_readState (agreed : Agreed process) (place : process.monitor = .readState) :
    (processSystem kind).LeadsTo ProcessLabel.IsMonitor
      (fun process => process.app.canDie = true) process := by
  refine .step { process with monitor := .readDesiredState "quit" } rfl
    (by simp [processSystem, Process.step, Process.monitorApp, place, agreed.current,
      AppState.name]) ?_
  refine .step { process with monitor := .testQuit "quit" "quit" } rfl
    (by simp [processSystem, Process.step, Process.monitorApp, agreed.desired,
      AppState.name]) ?_
  refine .step { process with monitor := .letDie } rfl
    (by simp [processSystem, Process.step, Process.monitorApp, agreed.shouldQuit]) ?_
  exact lets_die_of_letDie rfl

/-- The monitor thread alone lets the application die, wherever it is. -/
theorem lets_die (agreed : Agreed process)
    (finished : process.monitor = .finished → process.app.canDie = true) :
    (processSystem kind).LeadsTo ProcessLabel.IsMonitor
      (fun process => process.app.canDie = true) process := by
  have test : ∀ currentState desiredState,
      (processSystem kind).LeadsTo ProcessLabel.IsMonitor
        (fun process => process.app.canDie = true)
        { process with monitor := .testQuit currentState desiredState } := by
    intro currentState desiredState
    by_cases exit : currentState = desiredState ∧ currentState = "quit"
    · obtain ⟨rfl, rfl⟩ := exit
      refine .step { process with monitor := .letDie } rfl
        (by simp [processSystem, Process.step, Process.monitorApp, agreed.shouldQuit]) ?_
      exact lets_die_of_letDie rfl
    · have stays : ¬ (process.app.shouldQuit && currentState == desiredState &&
          currentState == "quit") = true := by
        simp only [Bool.and_eq_true, beq_iff_eq]
        rintro ⟨⟨_, same⟩, quit⟩
        exact exit ⟨same, quit⟩
      refine .step { process with monitor := .readState } rfl
        (by simp only [processSystem, Process.step, Process.monitorApp, if_neg stays]) ?_
      exact lets_die_of_readState ⟨agreed.current, agreed.desired, agreed.shouldQuit⟩ rfl
  cases place : process.monitor with
  | readState => exact agreed.lets_die_of_readState place
  | readDesiredState currentState =>
    refine .step { process with monitor := .testQuit currentState "quit" } rfl
      (by simp [processSystem, Process.step, Process.monitorApp, place, agreed.desired,
        AppState.name]) ?_
    exact test currentState "quit"
  | testQuit currentState desiredState =>
    have same : { process with monitor := .testQuit currentState desiredState } = process := by
      rw [← place]
    exact same ▸ test currentState desiredState
  | letDie => exact lets_die_of_letDie place
  | finished => exact .here (finished place)

end Agreed

/-- As long as no call writes last, a process in QUIT with `should_quit` set and no
call in progress has agreeing states, and its monitor thread lets it die. After a
call that writes last the two states disagree for ever. -/
theorem agreed_of_writesLast (kind : AppKind) :
    (∀ process, (processSystem kind).ReachableUnder WritesLast process →
      process.app.sm.state = some .quit → process.app.shouldQuit = true → process.calls = [] →
      process.app.sm.desiredState = some .quit ∧
        (processSystem kind).LeadsTo ProcessLabel.IsMonitor
          (fun process => process.app.canDie = true) process) ∧
    ∀ process label next labels final, (processSystem kind).Reachable process →
      ¬ WritesLast process label → (processSystem kind).step process label = some next →
      (processSystem kind).runFrom next labels = some final →
      final.app.sm.state = some .quit ∧ final.app.sm.desiredState ≠ some .quit := by
  constructor
  · intro process reachable quits announced idle
    have settling := reachable_settling reachable
    have desired : process.app.sm.desiredState = some .quit := by
      simpa [idle] using settling.desired quits
    exact ⟨desired, Agreed.lets_die ⟨quits, desired, announced⟩ settling.finished⟩
  · intro process label next labels final reachable late taken continued
    have unsettled := (unsettled_of_not_writesLast reachable late taken).runFrom continued
    exact ⟨unsettled.coherent.current, unsettled.desired⟩

/-- In IDLE an activation request looks its transition up; a quit request
overtakes it and is served. -/
def overtaken : List ProcessLabel :=
  List.replicate 3 (.app (.thread true)) ++
    [.call .activationRequest, .call .quitRequest, .advance 1, .advance 1] ++
    List.replicate 9 (.app (.thread true))

/-- A quit request alone ends the handshake. The step that writes the overtaken
request leaves the states different for ever. -/
theorem agreed_after_quit :
    (∃ process : Process, process.app.sm.desiredState = some .quit ∧
      (processSystem .layer).LeadsTo ProcessLabel.IsMonitor
        (fun process => process.app.canDie = true) process) ∧
    ∃ next : Process,
      next.app.sm.state = some .quit ∧ next.app.sm.desiredState ≠ some .quit := by
  have served : ((processSystem .layer).run (List.replicate 3 (.app (.thread true)) ++
      [.call .quitRequest, .advance 0, .advance 0] ++
      List.replicate 9 (.app (.thread true)))).any (fun process =>
        (process.app.sm.state == some .quit && process.app.shouldQuit) && process.calls == []) =
        true := by
    decide
  have admitted : (processSystem .layer).AdmitsFrom WritesLast (processSystem .layer).initial
      (List.replicate 3 (.app (.thread true)) ++
      [.call .quitRequest, .advance 0, .advance 0] ++
      List.replicate 9 (.app (.thread true))) := by
    decide
  obtain ⟨process, reachable, passes⟩ := System.exists_reachableUnder_of_run admitted served
  simp only [Bool.and_eq_true, beq_iff_eq] at passes
  obtain ⟨⟨quits, announced⟩, idle⟩ := passes
  constructor
  · exact ⟨process, (agreed_of_writesLast .layer).1 process reachable quits announced idle⟩
  have late : ((processSystem .layer).run overtaken).any (fun process =>
      decide (¬ WritesLast process (.advance 0)) &&
      ((processSystem .layer).step process (.advance 0)).isSome) = true := by
    decide
  obtain ⟨process, reachable, passes⟩ := System.exists_reachable_of_run late
  simp only [Bool.and_eq_true, decide_eq_true_eq, Option.isSome_iff_exists] at passes
  obtain ⟨late, next, taken⟩ := passes
  exact ⟨next, (agreed_of_writesLast .layer).2 process (.advance 0) next [] next reachable late
    taken rfl⟩

/-- An overtaken activation request leaves ACTIVATION as the desired state of a
machine that has ended in QUIT, with no call in progress. -/
theorem overtaken_request_disagrees : ∃ process, (processSystem .layer).Reachable process ∧
    process.app.sm.state = some .quit ∧ process.app.shouldQuit = true ∧ process.calls = [] ∧
    process.app.sm.desiredState = some .activation := by
  have passes : ((processSystem .layer).run (overtaken ++ [.advance 0, .advance 0])).any
      (fun process => (process.app.sm.state == some .quit && process.app.shouldQuit) &&
        (process.calls == [] && process.app.sm.desiredState == some .activation)) = true := by
    decide
  obtain ⟨process, reachable, holds⟩ := System.exists_reachable_of_run passes
  simp only [Bool.and_eq_true, beq_iff_eq] at holds
  obtain ⟨⟨quits, announced⟩, idle, desired⟩ := holds
  exact ⟨process, reachable, quits, announced, idle, desired⟩

end Dls2.Application
