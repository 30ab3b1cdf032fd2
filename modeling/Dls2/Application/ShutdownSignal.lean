import Dls2.Application.Shutdown
import Dls2.StateMachine.Calls
import Dls2.StateMachine.WaitAsynchEvent

/-!
# Shutdown signals

A process started by the launcher turns SIGINT and SIGTERM into a quit request. The
handler writes a byte into a nonblocking pipe. A worker thread empties the pipe, keeps
in `pending` that there was something in it, and calls back until the application has
left INITIALIZATION; the callback raises the request.

The application thread may be any sequence of `nextState` calls, since applications
override the activities; `Launched.simulates_step` shows that the ones of `App` are
among them. Other threads raise events at any time. The destructor is modelled up to
its first step, which tells the worker to stop.
-/

namespace Dls2.Application

open Dls2.StateMachine Dls2.Transition

/-- The place of the application thread in `nextState`, while it is inside. -/
inductive TransitPc where
  | outside
  | consume (event : AppEvent)
  | lookup (event : AppEvent)
  | write (newState : Option AppState)
deriving DecidableEq, Repr

/-- The place of the worker thread. -/
inductive WorkerPc where
  | notStarted
  /-- `while(!stopping)`. -/
  | loop (pending : Bool)
  | poll (pending : Bool)
  | read (pending : Bool)
  /-- `pending && !stopping`. -/
  | test (pending : Bool)
  /-- The callback reads the name of the state. -/
  | getStateName
  /-- The callback of the console sends the command `shutdown`. -/
  | callCommand (state : String)
  | testQuit (state : String)
  /-- `stop` calls `raiseEvent`; the override of the console sets a flag of its own first. -/
  | lookup
  | raise (call : PendingRaise AppState AppEvent)
  | returned
deriving DecidableEq, Repr

/-- The worker has read a byte and has not handed the request over yet. -/
def WorkerPc.holdsPending : WorkerPc → Bool
  | .loop pending | .poll pending | .read pending | .test pending => pending
  | .getStateName | .callCommand _ | .testQuit _ | .lookup | .raise _ => true
  | .notStarted | .returned => false

/-- A launched process. `pipe` counts the bytes in the pipe. `handled` and `accepted`
record that a signal has been handled and that a quit request has been raised. -/
structure Launched where
  sm : Machine AppState AppEvent
  thread : TransitPc
  calls : List (PendingRaise AppState AppEvent)
  pipe : Nat
  worker : WorkerPc
  stopping : Bool
  handled : Bool
  accepted : Bool

inductive LaunchedLabel where
  /-- The handler runs, in whatever thread. -/
  | signal
  /-- `ShutdownSignal::start`. -/
  | start
  /-- A step of the worker. `ready` is whether `poll` reports input that is there, and
  whether `read` succeeds. -/
  | worker (ready : Bool)
  /-- The first step of the destructor. -/
  | destroy
  /-- The application thread calls `nextState`. -/
  | nextState (event : AppEvent)
  | nextStateAsync (event : AppEvent)
  /-- The application thread goes on inside `nextState`. -/
  | thread
  | stop
  /-- Another thread calls `raiseEvent`. -/
  | raiseEvent (event : AppEvent)
  | advance (index : Nat)
deriving DecidableEq, Repr

/-- The call is about to set the flag of the quit request. -/
def acceptsQuit (call : PendingRaise AppState AppEvent) : Bool :=
  call.event == .quitRequest && call.place == .store

namespace Launched

/-- The process before the application is loaded. -/
def new : Launched where
  sm := AppStateMachine.new
  thread := .outside
  calls := []
  pipe := 0
  worker := .notStarted
  stopping := false
  handled := false
  accepted := false

/-- `handle`: a full pipe refuses the byte. -/
def handle (capacity : Nat) (launched : Launched) : Launched :=
  { launched with
    pipe := if launched.pipe < capacity then launched.pipe + 1 else launched.pipe
    handled := true }

/-- A call of `raiseEvent` makes one step. -/
def raiseStep (launched : Launched) (call : PendingRaise AppState AppEvent) : Launched :=
  { launched with
    sm := call.effect launched.sm
    accepted := launched.accepted || acceptsQuit call }

/-- One step of the worker. -/
def workerStep (isConsole : Bool) (launched : Launched) (ready : Bool) : Option Launched :=
  match launched.worker with
  | .notStarted | .returned => none
  | .loop pending => some { launched with
      worker := if launched.stopping then .returned else .poll pending }
  | .poll pending => some { launched with
      worker := if ready && decide (0 < launched.pipe) then .read pending else .test pending }
  | .read pending =>
    if ready && decide (0 < launched.pipe) then
      some { launched with pipe := launched.pipe - min 64 launched.pipe, worker := .test true }
    else some { launched with worker := .test pending }
  | .test pending => some { launched with
      worker := if pending && !launched.stopping then .getStateName else .loop pending }
  | .getStateName => launched.sm.state.map fun state =>
      { launched with worker :=
          if state.name = "initialization" then .loop true
          else if isConsole then .callCommand state.name
          else .testQuit state.name }
  | .callCommand state => some { launched with worker := .testQuit state }
  | .testQuit state => some { launched with
      worker := if state ≠ "quit" then .lookup else .returned }
  | .lookup =>
    match launched.sm.find .quitRequest with
    | none => some { launched with worker := .returned }
    | some target => some { launched with worker := .raise ⟨.quitRequest, .writeDesired target⟩ }
  | .raise call =>
    match call.continued with
    | some continued => some { launched.raiseStep call with worker := .raise continued }
    | none => some { launched.raiseStep call with worker := .returned }

/-- The application thread goes on inside `nextState`. -/
def threadStep (launched : Launched) : Option Launched :=
  match launched.thread with
  | .outside => none
  | .consume event => some { launched with
      sm := launched.sm.consumeEvent event
      thread := .lookup event }
  | .lookup event => some { launched with
      sm := (launched.sm.lookup event).2
      thread := .write (launched.sm.lookup event).1 }
  | .write newState => some { launched with
      sm := launched.sm.writeState newState
      thread := .outside }

/-- The lookup of another thread's `raiseEvent`. -/
def raiseEvent (launched : Launched) (event : AppEvent) : Launched :=
  match launched.sm.find event with
  | none => launched
  | some target => { launched with calls := launched.calls ++ [⟨event, .writeDesired target⟩] }

/-- Another thread's `raiseEvent` goes on. -/
def advance (launched : Launched) (index : Nat) (call : PendingRaise AppState AppEvent) :
    Launched :=
  match call.continued with
  | some continued =>
    { launched.raiseStep call with calls := launched.calls.set index continued }
  | none => { launched.raiseStep call with calls := launched.calls.eraseIdx index }

def step (isConsole : Bool) (capacity : Nat) (launched : Launched) :
    LaunchedLabel → Option Launched
  | .signal => some (launched.handle capacity)
  | .start =>
    if launched.worker = .notStarted then some { launched with worker := .loop false } else none
  | .worker ready => launched.workerStep isConsole ready
  | .destroy => some { launched with stopping := true }
  | .nextState event =>
    if launched.thread = .outside then some { launched with thread := .lookup event } else none
  | .nextStateAsync event =>
    if launched.thread = .outside ∧ event.isAsync = true then
      some { launched with thread := .consume event }
    else none
  | .thread => launched.threadStep
  | .stop =>
    if launched.thread = .outside then some { launched with sm := launched.sm.stop } else none
  | .raiseEvent event => if event.isAsync then some (launched.raiseEvent event) else none
  | .advance index => launched.calls[index]?.map fun call => launched.advance index call

end Launched

/-- A process of the launcher with a pipe of the given capacity. -/
def launcherSystem (isConsole : Bool) (capacity : Nat) : System Launched LaunchedLabel where
  initial := .new
  step := Launched.step isConsole capacity

/-- A machine has stayed in its state or gone on along the table. -/
def Onward (before after : Option AppState) : Prop :=
  after = before ∨ ∃ state event target, before = some state ∧ after = some target ∧
    transition state event = some target

namespace Onward

variable {before after : Option AppState}

/-- No transition leads back to INITIALIZATION. -/
theorem ne_initialization (onward : Onward before after) (left : before ≠ some .initialization) :
    after ≠ some .initialization := by
  obtain rfl | ⟨state, event, target, rfl, rfl, known⟩ := onward
  · exact left
  · rintro same
    obtain rfl := Option.some.inj same
    cases state <;> cases event <;> cases known

/-- No transition leaves QUIT. -/
theorem quit (onward : Onward before after) (quits : before = some .quit) :
    after = some .quit := by
  obtain rfl | ⟨state, event, target, rfl, rfl, known⟩ := onward
  · exact quits
  · obtain rfl := Option.some.inj quits
    simp at known

end Onward

/-- The invariant of the machine: its targets are the constructor's, and what the
application thread is about to write is one of them. -/
structure Launched.Coherent (launched : Launched) : Prop where
  keeps : KeepsTargets transitions launched.sm
  target : ∀ target, launched.thread = .write (some target) →
    ∃ state event, launched.sm.state = some state ∧ transition state event = some target

namespace Launched

variable {isConsole : Bool} {capacity : Nat} {launched next : Launched} {label : LaunchedLabel}

/-- Steps that leave state, table and thread alone keep it. -/
theorem Coherent.same (coherent : Coherent launched)
    (transitions : next.sm.transitions = launched.sm.transitions)
    (state : next.sm.state = launched.sm.state) (thread : next.thread = launched.thread) :
    Coherent next where
  keeps := ⟨transitions ▸ coherent.keeps.targets, state ▸ coherent.keeps.state⟩
  target := by
    rw [thread, state]
    exact coherent.target

/-- A step of the worker leaves state, table and thread alone. -/
theorem workerStep_same {ready : Bool} (taken : launched.workerStep isConsole ready = some next) :
    next.sm.transitions = launched.sm.transitions ∧ next.sm.state = launched.sm.state ∧
      next.thread = launched.thread := by
  cases place : launched.worker with
  | notStarted | returned => simp [workerStep, place] at taken
  | loop pending | poll pending | test pending | callCommand state | testQuit state =>
    simp only [workerStep, place, Option.some.injEq] at taken
    subst taken
    exact ⟨rfl, rfl, rfl⟩
  | getStateName =>
    simp only [workerStep, place, Option.map_eq_some_iff] at taken
    obtain ⟨_, _, rfl⟩ := taken
    exact ⟨rfl, rfl, rfl⟩
  | read pending | lookup =>
    simp only [workerStep, place] at taken
    split at taken
    · obtain rfl := Option.some.inj taken
      exact ⟨rfl, rfl, rfl⟩
    · obtain rfl := Option.some.inj taken
      exact ⟨rfl, rfl, rfl⟩
  | raise call =>
    simp only [workerStep, place] at taken
    split at taken
    · obtain rfl := Option.some.inj taken
      simp [raiseStep]
    · obtain rfl := Option.some.inj taken
      simp [raiseStep]

/-- The application thread takes the transition it has looked up. -/
theorem Coherent.threadStep (coherent : Coherent launched)
    (taken : launched.threadStep = some next) :
    Coherent next ∧ Onward launched.sm.state next.sm.state := by
  unfold Launched.threadStep at taken
  split at taken
  · cases taken
  · obtain rfl := Option.some.inj taken
    exact ⟨⟨coherent.keeps.consumeEvent _, by simp⟩, .inl rfl⟩
  · rename_i event place
    obtain rfl := Option.some.inj taken
    refine ⟨⟨coherent.keeps.lookup event, ?_⟩, .inl (by simp)⟩
    intro target found
    simp only [TransitPc.write.injEq, Machine.lookup_target, Option.join_eq_some_iff] at found
    have known := (coherent.keeps.targets _ _ _).mp found
    obtain ⟨state, current⟩ := Option.ne_none_iff_exists'.mp coherent.keeps.state
    refine ⟨state, event, by simpa using current, ?_⟩
    simpa [current] using known
  · rename_i newState place
    obtain rfl := Option.some.inj taken
    refine ⟨⟨coherent.keeps.writeState newState, by simp⟩, ?_⟩
    cases newState with
    | none => exact .inl rfl
    | some target =>
      obtain ⟨state, event, current, known⟩ := coherent.target target place
      exact .inr ⟨state, event, target, current, rfl, known⟩

/-- Every step keeps the machine coherent and moves it along the table. -/
theorem Coherent.step (coherent : Coherent launched)
    (taken : launched.step isConsole capacity label = some next) :
    Coherent next ∧ Onward launched.sm.state next.sm.state := by
  cases label with
  | signal | destroy =>
    obtain rfl := Option.some.inj taken
    exact ⟨coherent.same rfl rfl rfl, .inl rfl⟩
  | start =>
    obtain ⟨_, runs⟩ := Option.ite_none_right_eq_some.mp taken
    obtain rfl := Option.some.inj runs
    exact ⟨coherent.same rfl rfl rfl, .inl rfl⟩
  | worker ready =>
    obtain ⟨transitions, state, thread⟩ := workerStep_same taken
    exact ⟨coherent.same transitions state thread, .inl state⟩
  | nextState event | nextStateAsync event =>
    obtain ⟨_, runs⟩ := Option.ite_none_right_eq_some.mp taken
    obtain rfl := Option.some.inj runs
    exact ⟨⟨coherent.keeps, by simp⟩, .inl rfl⟩
  | thread => exact coherent.threadStep taken
  | stop =>
    obtain ⟨_, runs⟩ := Option.ite_none_right_eq_some.mp taken
    obtain rfl := Option.some.inj runs
    exact ⟨coherent.same rfl rfl rfl, .inl rfl⟩
  | raiseEvent event =>
    obtain ⟨_, runs⟩ := Option.ite_none_right_eq_some.mp taken
    obtain rfl := Option.some.inj runs
    unfold Launched.raiseEvent
    split
    · exact ⟨coherent, .inl rfl⟩
    · exact ⟨coherent.same rfl rfl rfl, .inl rfl⟩
  | advance index =>
    obtain ⟨call, _, rfl⟩ := Option.map_eq_some_iff.mp taken
    unfold Launched.advance
    split
    · exact ⟨coherent.same (by simp [raiseStep]) (by simp [raiseStep]) rfl,
        .inl (by simp [raiseStep])⟩
    · exact ⟨coherent.same (by simp [raiseStep]) (by simp [raiseStep]) rfl,
        .inl (by simp [raiseStep])⟩

end Launched

/-! ### No signal is lost -/

/-- What the worker has learned about the state: past the test in the callback it has
left INITIALIZATION, and a name `quit` was that of the state QUIT. -/
def WorkerPc.Learned (state : Option AppState) : WorkerPc → Prop
  | .callCommand name | .testQuit name =>
    state ≠ some .initialization ∧ (name = "quit" → state = some .quit)
  | .lookup | .raise _ => state ≠ some .initialization
  | .notStarted | .loop _ | .poll _ | .read _ | .test _ | .getStateName | .returned => True

/-- The other threads do not make it wrong. -/
theorem WorkerPc.Learned.onward {before after : Option AppState} {worker : WorkerPc}
    (learned : worker.Learned before) (onward : Onward before after) : worker.Learned after := by
  cases worker with
  | callCommand name | testQuit name =>
    exact ⟨onward.ne_initialization learned.1, fun quit => onward.quit (learned.2 quit)⟩
  | lookup | raise _ => exact onward.ne_initialization learned
  | notStarted | loop _ | poll _ | read _ | test _ | getStateName | returned => trivial

/-- The property: the request is in the pipe, or with the worker, or raised, or
superfluous. -/
def Launched.Kept (launched : Launched) : Prop :=
  0 < launched.pipe ∨ launched.worker.holdsPending = true ∨ launched.accepted = true ∨
    launched.sm.state = some .quit

/-- The invariant that carries it. A call of the worker that is past its store has been
accepted. -/
structure Launched.Secured (launched : Launched) : Prop where
  coherent : launched.Coherent
  learned : launched.worker.Learned launched.sm.state
  raised : ∀ call, launched.worker = .raise call →
    call.event = .quitRequest ∧ (call.place = .notifyAll → launched.accepted = true)
  kept : launched.stopping = false → launched.handled = true → launched.Kept

namespace Launched.Secured

variable {isConsole : Bool} {capacity : Nat} {launched next : Launched} {label : LaunchedLabel}

theorem new : Secured .new where
  coherent := ⟨⟨fun _ _ _ => Iff.rfl, Option.some_ne_none _⟩, by simp [Launched.new]⟩
  learned := trivial
  raised := by simp [Launched.new]
  kept := by simp [Launched.new]

/-- Without a quit transition the machine is in QUIT, or has not left INITIALIZATION. -/
theorem quit_of_not_find (coherent : launched.Coherent)
    (left : launched.sm.state ≠ some .initialization)
    (missing : launched.sm.find .quitRequest = none) : launched.sm.state = some .quit := by
  obtain ⟨state, current⟩ := Option.ne_none_iff_exists'.mp coherent.keeps.state
  have none : ∀ target, transition state .quitRequest ≠ some target := by
    intro target known
    have kept := (coherent.keeps.targets (some state) .quitRequest target).mpr (by simp [known])
    simp [Machine.find, current, kept] at missing
  rw [current] at left ⊢
  cases state with
  | quit => rfl
  | initialization => exact absurd rfl left
  | idle | activation | deactivation | run | fail => exact absurd rfl (none .quit)

/-- A worker that goes on with its request. -/
theorem carry (secured : Secured launched) (pipe : Nat) {worker : WorkerPc}
    (holds : worker.holdsPending = true) (learned : worker.Learned launched.sm.state)
    (raised : ∀ call, worker = .raise call →
      call.event = .quitRequest ∧ (call.place = .notifyAll → launched.accepted = true)) :
    Secured { launched with pipe := pipe, worker := worker } where
  coherent := secured.coherent.same rfl rfl rfl
  learned := learned
  raised := raised
  kept _ _ := .inr (.inl holds)

/-- A worker that goes on with the same `pending` and has learned nothing. -/
theorem goOn (secured : Secured launched) {worker : WorkerPc}
    (same : worker.holdsPending = launched.worker.holdsPending)
    (learned : worker.Learned launched.sm.state) (silent : ∀ call, worker ≠ .raise call) :
    Secured { launched with worker := worker } where
  coherent := secured.coherent.same rfl rfl rfl
  learned := learned
  raised call raising := absurd raising (silent call)
  kept alive handled := by
    have kept := secured.kept alive handled
    unfold Launched.Kept at kept ⊢
    rwa [same]

/-- A worker that is done leaves the request to the machine, or is told to stop. -/
theorem finish (secured : Secured launched)
    (handed : launched.stopping = true ∨ launched.accepted = true ∨
      launched.sm.state = some .quit) :
    Secured { launched with worker := .returned } where
  coherent := secured.coherent.same rfl rfl rfl
  learned := trivial
  raised call raising := by cases raising
  kept alive _ := by
    obtain stopping | accepted | quits := handed
    · simp [stopping] at alive
    · exact .inr (.inr (.inl accepted))
    · exact .inr (.inr (.inr quits))

/-- A step of some call of `raiseEvent` loses nothing. -/
theorem raiseStep (secured : Secured launched) (call : PendingRaise AppState AppEvent) :
    Secured (launched.raiseStep call) where
  coherent := secured.coherent.same (by simp [Launched.raiseStep]) (by simp [Launched.raiseStep])
    rfl
  learned := by simpa [Launched.raiseStep] using secured.learned
  raised other raising := by
    obtain ⟨event, accepted⟩ := secured.raised other raising
    exact ⟨event, fun place => by simp [Launched.raiseStep, accepted place]⟩
  kept alive handled := by
    have kept := secured.kept alive handled
    unfold Launched.Kept at kept ⊢
    simp only [Launched.raiseStep, PendingRaise.state_effect, Bool.or_eq_true]
    exact kept.imp_right (Or.imp_right (Or.imp_left .inl))

/-- The two names the callback compares with belong to one state each. -/
theorem name_eq_initialization_iff {state : AppState} :
    state.name = "initialization" ↔ state = .initialization := by
  cases state <;> simp [AppState.name]

theorem name_eq_quit_iff {state : AppState} : state.name = "quit" ↔ state = .quit := by
  cases state <;> simp [AppState.name]

/-- The worker goes on with a call of `raiseEvent`. -/
theorem workerRaise {ready : Bool} {call : PendingRaise AppState AppEvent}
    (secured : Secured launched) (place : launched.worker = .raise call)
    (taken : launched.workerStep isConsole ready = some next) : Secured next := by
  have learned := secured.learned
  rw [place] at learned
  obtain ⟨event, accepted⟩ := secured.raised call place
  have secured := secured.raiseStep call
  obtain ⟨called, stage⟩ := call
  obtain rfl : called = .quitRequest := event
  cases stage with
  | writeDesired target =>
    simp only [workerStep, place, PendingRaise.continued, Option.some.injEq] at taken
    subst taken
    refine secured.carry _ rfl (by simpa [Launched.raiseStep, WorkerPc.Learned] using learned) ?_
    rintro call same
    obtain rfl := WorkerPc.raise.inj same
    exact ⟨rfl, fun place => by cases place⟩
  | store =>
    simp only [workerStep, place, PendingRaise.continued, Option.some.injEq] at taken
    subst taken
    refine secured.carry _ rfl (by simpa [Launched.raiseStep, WorkerPc.Learned] using learned) ?_
    rintro call same
    obtain rfl := WorkerPc.raise.inj same
    exact ⟨rfl, fun _ => by simp [Launched.raiseStep, acceptsQuit]⟩
  | notifyAll =>
    simp only [workerStep, place, PendingRaise.continued, Option.some.injEq] at taken
    subst taken
    have accepted : (launched.raiseStep ⟨.quitRequest, .notifyAll⟩).accepted = true := by
      simp [Launched.raiseStep, accepted rfl]
    exact secured.finish (.inr (.inl accepted))

/-- A step of the worker hands the request on. -/
theorem worker {ready : Bool} (secured : Secured launched)
    (taken : launched.workerStep isConsole ready = some next) : Secured next := by
  have learned := secured.learned
  cases place : launched.worker with
  | notStarted | returned => simp [workerStep, place] at taken
  | loop pending =>
    simp only [workerStep, place, Option.some.injEq] at taken
    subst taken
    split
    · exact secured.finish (.inl ‹_›)
    · exact secured.goOn (by simp [place, WorkerPc.holdsPending]) trivial (by simp)
  | poll pending =>
    simp only [workerStep, place, Option.some.injEq] at taken
    subst taken
    split
    · exact secured.goOn (by simp [place, WorkerPc.holdsPending]) trivial (by simp)
    · exact secured.goOn (by simp [place, WorkerPc.holdsPending]) trivial (by simp)
  | read pending =>
    simp only [workerStep, place] at taken
    split at taken
    · obtain rfl := Option.some.inj taken
      exact secured.carry _ rfl trivial (by simp)
    · obtain rfl := Option.some.inj taken
      exact secured.goOn (by simp [place, WorkerPc.holdsPending]) trivial (by simp)
  | test pending =>
    simp only [workerStep, place, Option.some.injEq] at taken
    subst taken
    split
    · exact secured.carry launched.pipe rfl trivial (by simp)
    · exact secured.goOn (by simp [place, WorkerPc.holdsPending]) trivial (by simp)
  | getStateName =>
    simp only [workerStep, place, Option.map_eq_some_iff] at taken
    obtain ⟨state, current, rfl⟩ := taken
    split
    · exact secured.carry launched.pipe rfl trivial (by simp)
    · rename_i left
      have learned : launched.sm.state ≠ some .initialization ∧
          (state.name = "quit" → launched.sm.state = some .quit) := by
        rw [current]
        exact ⟨fun same => left (name_eq_initialization_iff.mpr (Option.some.inj same)),
          fun quit => congrArg some (name_eq_quit_iff.mp quit)⟩
      split
      · exact secured.carry launched.pipe rfl learned (by simp)
      · exact secured.carry launched.pipe rfl learned (by simp)
  | callCommand name =>
    simp only [workerStep, place, Option.some.injEq] at taken
    subst taken
    rw [place] at learned
    exact secured.carry launched.pipe rfl learned (by simp)
  | testQuit name =>
    simp only [workerStep, place, Option.some.injEq] at taken
    subst taken
    rw [place] at learned
    split
    · exact secured.carry launched.pipe rfl learned.1 (by simp)
    · rename_i quit
      exact secured.finish (.inr (.inr (learned.2 (not_not.mp quit))))
  | lookup =>
    rw [place] at learned
    simp only [workerStep, place] at taken
    split at taken
    · rename_i missing
      obtain rfl := Option.some.inj taken
      exact secured.finish (.inr (.inr (quit_of_not_find secured.coherent learned missing)))
    · obtain rfl := Option.some.inj taken
      refine secured.carry launched.pipe rfl learned ?_
      rintro call same
      obtain rfl := WorkerPc.raise.inj same
      exact ⟨rfl, fun place => by cases place⟩
  | raise call => exact secured.workerRaise place taken

/-- Every step keeps the invariant. -/
theorem step (secured : Secured launched) (positive : 0 < capacity)
    (taken : launched.step isConsole capacity label = some next) : Secured next := by
  obtain ⟨coherent, onward⟩ := secured.coherent.step taken
  cases label with
  | worker ready => exact secured.worker taken
  | signal =>
    obtain rfl := Option.some.inj taken
    refine ⟨coherent, secured.learned, secured.raised, fun _ _ => .inl ?_⟩
    simp only [handle]
    split
    · exact Nat.succ_pos _
    · omega
  | start =>
    obtain ⟨idle, runs⟩ := Option.ite_none_right_eq_some.mp taken
    obtain rfl := Option.some.inj runs
    exact secured.goOn (by simp [idle, WorkerPc.holdsPending]) trivial (by simp)
  | destroy =>
    obtain rfl := Option.some.inj taken
    exact ⟨coherent, secured.learned, secured.raised, fun alive => by simp at alive⟩
  | nextState event | nextStateAsync event | stop =>
    obtain ⟨_, runs⟩ := Option.ite_none_right_eq_some.mp taken
    obtain rfl := Option.some.inj runs
    exact ⟨coherent, secured.learned, secured.raised, secured.kept⟩
  | thread =>
    have same : next.worker = launched.worker ∧ next.pipe = launched.pipe ∧
        next.stopping = launched.stopping ∧ next.handled = launched.handled ∧
        next.accepted = launched.accepted := by
      simp only [Launched.step, threadStep] at taken
      split at taken
      · cases taken
      all_goals
        obtain rfl := Option.some.inj taken
        exact ⟨rfl, rfl, rfl, rfl, rfl⟩
    obtain ⟨worker, pipe, stopping, handled, accepted⟩ := same
    refine ⟨coherent, ?_, ?_, ?_⟩
    · rw [worker]
      exact secured.learned.onward onward
    · rw [worker, accepted]
      exact secured.raised
    · rw [stopping, handled]
      intro alive was
      have kept := secured.kept alive was
      unfold Kept at kept ⊢
      rw [pipe, worker, accepted]
      exact kept.imp_right (Or.imp_right (Or.imp_right onward.quit))
  | raiseEvent event =>
    obtain ⟨_, runs⟩ := Option.ite_none_right_eq_some.mp taken
    obtain rfl := Option.some.inj runs
    unfold Launched.raiseEvent
    split
    · exact secured
    · exact ⟨secured.coherent.same rfl rfl rfl, secured.learned, secured.raised, secured.kept⟩
  | advance index =>
    obtain ⟨call, _, rfl⟩ := Option.map_eq_some_iff.mp taken
    have secured := secured.raiseStep call
    unfold Launched.advance
    split
    · exact ⟨secured.coherent.same rfl rfl rfl, secured.learned, secured.raised, secured.kept⟩
    · exact ⟨secured.coherent.same rfl rfl rfl, secured.learned, secured.raised, secured.kept⟩

end Launched.Secured

/-- In every process of the launcher, after a signal has been handled and until the
destructor begins, the request is in the pipe, pending in the worker or accepted, or
the machine is in QUIT. -/
theorem shutdown_signal_kept (isConsole : Bool) (capacity : Nat) (launched : Launched)
    (positive : 0 < capacity)
    (reachable : (launcherSystem isConsole capacity).Reachable launched)
    (handled : launched.handled = true) (alive : launched.stopping = false) :
    0 < launched.pipe ∨ launched.worker.holdsPending = true ∨ launched.accepted = true ∨
      launched.sm.state = some .quit := by
  have secured : launched.Secured := by
    apply reachable.invariant Launched.Secured Launched.Secured.new
    intro before label after secured _ taken
    exact secured.step positive taken
  exact secured.kept alive handled

/-- A signal that arrives before the worker is started, in a pipe for one byte, is
pending during INITIALIZATION. -/
theorem early_signal_kept : ∃ launched : Launched,
    launched.sm.state = some .initialization ∧ launched.worker = .loop true ∧
      (0 < launched.pipe ∨ launched.worker.holdsPending = true ∨ launched.accepted = true ∨
        launched.sm.state = some .quit) := by
  have passes : ((launcherSystem false 1).run ([.signal, .signal, .start] ++
      List.replicate 5 (.worker true))).any (fun launched =>
        (launched.handled && !launched.stopping) &&
          (launched.sm.state == some .initialization && launched.worker == .loop true)) = true := by
    decide
  obtain ⟨launched, reachable, holds⟩ := System.exists_reachable_of_run passes
  simp only [Bool.and_eq_true, Bool.not_eq_true', beq_iff_eq] at holds
  obtain ⟨⟨handled, alive⟩, initial, waits⟩ := holds
  exact ⟨launched, initial, waits,
    shutdown_signal_kept false 1 launched (by decide) reachable handled alive⟩

/-! ### The application thread is one of the threads considered -/

/-- Where a place of the application thread lies relative to `nextState`. -/
def Pc.transit : Pc → TransitPc
  | .consume event => .consume event
  | .lookup event => .lookup event
  | .write _ newState => .write newState
  | _ => .outside

/-- The process with the machine and the thread of an application. -/
def Launched.withApp (launched : Launched) (app : App) : Launched :=
  { launched with sm := app.sm, thread := app.pc.transit }

/-- Moves happen outside `nextState`, and end there or at its beginning. -/
theorem App.transit_of_move {kind : AppKind} {result : Bool} {app : App} {pc : Pc}
    (moves : app.move kind result = some pc) :
    app.pc.transit = .outside ∧ ∀ newState, pc.transit ≠ .write newState := by
  cases place : app.pc with
  | _ =>
    simp only [move, place] at moves
    repeat' split at moves
    all_goals first
      | (obtain rfl := Option.some.inj moves
         simp [Pc.transit])
      | cases moves

/-- Every step of `App.step` is one of the application thread considered here, or
invisible. -/
theorem Launched.simulates_step {kind : AppKind} {result : Bool} {app next : App}
    {state : AppState} (launched : Launched) (isConsole : Bool) (capacity : Nat)
    (coherent : app.Coherent state) (taken : app.step kind result = some next) :
    ∃ labels, (launcherSystem isConsole capacity).runFrom (launched.withApp app) labels =
      some (launched.withApp next) := by
  cases coherent.effect taken with
  | @consumed event target place async known =>
    exact ⟨[.thread], by simp [launcherSystem, step, threadStep, withApp, place, Pc.transit]⟩
  | @lookedUp event target place known =>
    have found : app.sm.find event = some (some target) := by simp [coherent.find, known]
    exact ⟨[.thread], by simp [launcherSystem, step, threadStep, withApp, place, Pc.transit,
      Machine.lookup_of_find found]⟩
  | @wrote event target place known =>
    exact ⟨[.thread], by simp [launcherSystem, step, threadStep, withApp, place, Pc.transit]⟩
  | ended place => exact ⟨[], by simp [withApp, place, Pc.transit]⟩
  | entered place =>
    have outside : (App.activity kind state).transit = .outside := by
      cases state <;> cases kind <;> rfl
    have before : app.pc.transit = .outside := by rw [place]; rfl
    exact ⟨[], by simp [withApp, before, outside]⟩
  | @moved pc moves located =>
    obtain ⟨outside, notWrite⟩ := App.transit_of_move moves
    cases entry : pc.transit with
    | outside => exact ⟨[], by simp [withApp, outside, entry]⟩
    | consume event =>
      obtain rfl : pc = .consume event := by cases pc <;> simp_all [Pc.transit]
      have async : event.isAsync = true := by simp_all [Pc.within]
      exact ⟨[.nextStateAsync event], by
        simp [launcherSystem, step, withApp, outside, async, entry]⟩
    | lookup event =>
      exact ⟨[.nextState event], by simp [launcherSystem, step, withApp, outside, entry]⟩
    | write newState => exact absurd entry (notWrite newState)
  | closed place quitting => exact ⟨[], by simp [withApp, place, Pc.transit]⟩
  | announced place quitting => exact ⟨[], by simp [withApp, place, Pc.transit]⟩
  | stopped place quitting =>
    exact ⟨[.stop], by simp [launcherSystem, step, withApp, place, Pc.transit]⟩

end Dls2.Application
