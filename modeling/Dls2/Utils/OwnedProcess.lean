import Dls2.Lib.Assoc
import Dls2.Lib.EventLog

/-!
# Owned processes and their shutdown

`running` asks the operating system about the leader of a process and, where it has a group
of its own, about the group; two latches keep what has been found to be gone.
`shutdownProcesses` interrupts, terminates and kills the processes, polls them for a while
after each signal, and looks at them once more before it reports that some are left.

What the operating system and the clock answer is part of a step, so that leaders and
members of groups can exit at any point.
-/

namespace Dls2.Utils

open Dls2.Assoc Dls2.Transition

/-- `leaderExited` and `finished` are the latches. `finished` is for a process with a group
of its own, whose handle is given up then. -/
structure OwnedProcess where
  ownGroup : Bool
  leaderExited : Bool
  finished : Bool
deriving DecidableEq, Repr

/-- What the operating system says while `running` is executed: whether the leader is
running, `none` for an error, and whether there is a process in the group. -/
structure Answer where
  leader : Option Bool
  group : Bool
deriving DecidableEq, Repr

namespace OwnedProcess

/-- The latch of the leader after it has been asked about, unless it is set already; `none`
for an error. -/
def askLeader (process : OwnedProcess) (answer : Answer) : Option Bool :=
  if process.leaderExited then some true else answer.leader.map (!·)

/-- `OwnedProcess::running`; `none` where it throws. -/
def running (process : OwnedProcess) (answer : Answer) : Option (Bool × OwnedProcess) :=
  if process.finished then some (false, process)
  else (process.askLeader answer).map fun leaderExited =>
    let process := { process with leaderExited }
    if !process.ownGroup then (!process.leaderExited, process)
    else if answer.group then (true, process)
    else (false, { process with finished := true })

/-- Nothing is asked any more. -/
def Gone (process : OwnedProcess) : Prop :=
  process.finished = true ∨ process.ownGroup = false ∧ process.leaderExited = true

/-- The operating system finds the process, and reports no error. -/
def Found (process : OwnedProcess) (answer : Answer) : Prop :=
  ¬ process.Gone ∧ if process.ownGroup then
    (process.askLeader answer).isSome = true ∧ answer.group = true
  else answer.leader = some true

instance (process : OwnedProcess) : Decidable process.Gone :=
  inferInstanceAs (Decidable (_ ∨ _))

instance (process : OwnedProcess) (answer : Answer) : Decidable (process.Found answer) :=
  inferInstanceAs (Decidable (_ ∧ ite _ _ _))

variable {process after : OwnedProcess} {answer : Answer} {result : Bool}

/-- A process that is gone stays so, and is not running. -/
theorem Gone.running (gone : process.Gone) (answer : Answer) :
    process.running answer = some (false, process) := by
  obtain ⟨ownGroup, leaderExited, finished⟩ := process
  rcases gone with gone | ⟨shared, exited⟩
  · simp_all [OwnedProcess.running]
  · cases finished <;> simp_all [OwnedProcess.running, askLeader]

/-- What `running` says of a process is whether it is found, and is what the latches say from
then on. -/
theorem running_cases (ran : process.running answer = some (result, after)) :
    (result = true ↔ process.Found answer) ∧ (result = true ↔ ¬ after.Gone) := by
  obtain ⟨ownGroup, leaderExited, finished⟩ := process
  unfold OwnedProcess.running at ran
  split at ran
  next done =>
    obtain ⟨rfl, rfl⟩ := Prod.mk.inj (Option.some.inj ran)
    simp_all [Found, Gone]
  next undone =>
    obtain ⟨exited, asked, goes⟩ := Option.map_eq_some_iff.mp ran
    cases ownGroup with
    | false =>
      obtain ⟨rfl, rfl⟩ := Prod.mk.inj goes
      cases leaderExited <;> cases leader : answer.leader <;> simp_all [Found, Gone, askLeader]
    | true =>
      cases group : answer.group with
      | true =>
        simp only [group] at goes
        obtain ⟨rfl, rfl⟩ := Prod.mk.inj goes
        simp_all [Found, Gone]
      | false =>
        simp only [group] at goes
        obtain ⟨rfl, rfl⟩ := Prod.mk.inj goes
        simp_all [Found, Gone]

/-- A process that is found is running. -/
theorem Found.running (found : process.Found answer) :
    ∃ after, process.running answer = some (true, after) := by
  have answered : ∃ exited, process.askLeader answer = some exited := by
    obtain ⟨left, found⟩ := found
    split at found
    · exact Option.isSome_iff_exists.mp found.1
    · simp [askLeader, found]
  obtain ⟨exited, answered⟩ := answered
  have unfinished : process.finished = false := by
    by_contra finished
    exact found.1 (.inl (by simpa using finished))
  obtain ⟨⟨result, after⟩, ran⟩ : ∃ outcome, process.running answer = some outcome := by
    simp [OwnedProcess.running, unfinished, answered]
  obtain rfl := (running_cases ran).1.mpr found
  exact ⟨after, ran⟩

end OwnedProcess

/-- The signals of `shutdownProcesses`, in its order. -/
inductive Signal where
  | interrupt
  | terminate
  | kill
deriving DecidableEq, Repr

namespace Signal

/-- The signal that is sent next to what is left. -/
def next : Signal → Option Signal
  | .interrupt => some .terminate
  | .terminate => some .kill
  | .kill => none

/-- How long the processes are polled after a signal. -/
def duration (grace : Int) : Signal → Int
  | .interrupt => grace
  | .terminate | .kill => 2000

end Signal

/-- The place `shutdownProcesses` has reached; `rest` are the processes that the loop has
still to visit. -/
inductive Place where
  /-- `signal` is about to ask about the next process. -/
  | signal (value : Signal) (rest : List String)
  /-- It is about to send the signal. -/
  | send (value : Signal) (name : String) (rest : List String)
  /-- `wait` is about to read the clock for its deadline. -/
  | wait (value : Signal)
  /-- It is polling the processes. -/
  | poll (value : Signal) (deadline : Int) (rest : List String) (anyRunning : Bool)
  /-- The last loop is about to ask about the next process. -/
  | check (rest : List String)
  /-- It is about to detach one. -/
  | detach (name : String) (rest : List String)
  | returned (result : Bool)
  | raised
deriving DecidableEq, Repr

structure Shutdown where
  processes : Map String OwnedProcess
  place : Place

/-- What happens in a step: a process is asked about, a signal is sent, which can fail, the
clock is read, or nothing from outside is needed. -/
inductive ShutdownLabel where
  | running (answer : Answer)
  | signal (fails : Bool)
  | now (time : Int)
  | proceed
deriving DecidableEq, Repr

/-- Where a process is asked about. -/
inductive Check where
  | signalling
  | polling
  | last
deriving DecidableEq, Repr

namespace Shutdown

def goto (shutdown : Shutdown) (place : Place) : Shutdown := { shutdown with place }

def names (shutdown : Shutdown) : List String := shutdown.processes.keys

/-- The process that is asked about next. -/
def asks : Place → Option (Check × String)
  | .signal _ (name :: _) => some (.signalling, name)
  | .poll _ _ (name :: _) _ => some (.polling, name)
  | .check (name :: _) => some (.last, name)
  | _ => none

/-- Where it goes on with the answer. -/
def answered (result : Bool) : Place → Place
  | .signal value (name :: rest) => if result then .send value name rest else .signal value rest
  | .poll value deadline (_ :: rest) anyRunning => .poll value deadline rest (anyRunning || result)
  | .check (name :: rest) => if result then .detach name rest else .check rest
  | place => place

/-- After the deadline. -/
def escalate (names : List String) (value : Signal) : Place :=
  match value.next with
  | some value => .signal value names
  | none => .check names

/-- One step of `shutdownProcesses`. -/
def step (grace : Int) (shutdown : Shutdown) : ShutdownLabel → Option Shutdown
  | .running answer => do
    let (_, name) ← asks shutdown.place
    let process ← shutdown.processes.lookup name
    match process.running answer with
    | some (result, process) =>
      return ⟨modify name (fun _ => process) shutdown.processes, answered result shutdown.place⟩
    | none => return shutdown.goto .raised
  | .signal fails =>
    match shutdown.place with
    | .send value name rest => do
      let process ← shutdown.processes.lookup name
      if !process.finished && fails then return shutdown.goto .raised
      else return shutdown.goto (.signal value rest)
    | _ => none
  | .now time =>
    match shutdown.place with
    | .wait value =>
      some (shutdown.goto (.poll value (time + value.duration grace) shutdown.names false))
    | .poll value deadline [] true =>
      if deadline ≤ time then some (shutdown.goto (escalate shutdown.names value))
      else some (shutdown.goto (.poll value deadline shutdown.names false))
    | _ => none
  | .proceed =>
    match shutdown.place with
    | .signal value [] => some (shutdown.goto (.wait value))
    | .poll _ _ [] false => some (shutdown.goto (.returned true))
    | .check [] => some (shutdown.goto (.returned false))
    | .detach _ rest => some (shutdown.goto (.check rest))
    | _ => none

end Shutdown

/-- A call of `shutdownProcesses`. -/
def shutdownProcesses (processes : Map String OwnedProcess) (grace : Int) :
    System Shutdown ShutdownLabel where
  initial := ⟨processes, .signal .interrupt processes.keys⟩
  step := Shutdown.step grace

/-- What is to be seen of a call. -/
inductive ShutdownEvent where
  | observed (check : Check) (name : String) (running : Bool)
  | sent (name : String) (value : Signal)
  | detached (name : String)
deriving DecidableEq, Repr

/-- The event of a step. -/
def Shutdown.event (shutdown : Shutdown) : ShutdownLabel → Option ShutdownEvent
  | .running answer => do
    let (check, name) ← asks shutdown.place
    let process ← shutdown.processes.lookup name
    let (result, _) ← process.running answer
    return .observed check name result
  | .signal _ =>
    match shutdown.place with
    | .send value name _ => do
      let process ← shutdown.processes.lookup name
      if process.finished then none else some (.sent name value)
    | _ => none
  | .now _ => none
  | .proceed =>
    match shutdown.place with
    | .detach name _ => some (.detached name)
    | _ => none

namespace Shutdown

@[simp] theorem goto_names (shutdown : Shutdown) (place : Place) :
    (shutdown.goto place).names = shutdown.names := rfl

/-- A process is asked about in one of the three loops. -/
theorem asks_cases {place : Place} {check : Check} {name : String}
    (asked : asks place = some (check, name)) :
    (∃ value rest, place = .signal value (name :: rest) ∧ check = .signalling) ∨
    (∃ value deadline rest anyRunning,
      place = .poll value deadline (name :: rest) anyRunning ∧ check = .polling) ∨
    ∃ rest, place = .check (name :: rest) ∧ check = .last := by
  unfold asks at asked
  split at asked
  · cases asked
    exact .inl ⟨_, _, rfl, rfl⟩
  · cases asked
    exact .inr (.inl ⟨_, _, _, _, rfl, rfl⟩)
  · cases asked
    exact .inr (.inr ⟨_, rfl, rfl⟩)
  · cases asked

/-- What a step does and shows. -/
inductive Step (shutdown : Shutdown) : Shutdown → Option ShutdownEvent → Prop where
  | observed {check : Check} {name : String} {process after : OwnedProcess} {answer : Answer}
      {result : Bool} (asks : asks shutdown.place = some (check, name))
      (entry : shutdown.processes.lookup name = some process)
      (ran : process.running answer = some (result, after)) :
      Step shutdown
        ⟨modify name (fun _ => after) shutdown.processes, answered result shutdown.place⟩
        (some (.observed check name result))
  | raised {check : Check} {name : String} (asks : asks shutdown.place = some (check, name)) :
      Step shutdown (shutdown.goto .raised) none
  | sent {value : Signal} {name : String} {rest : List String} {process : OwnedProcess}
      {next : Place} (place : shutdown.place = .send value name rest)
      (entry : shutdown.processes.lookup name = some process)
      (goes : next = .signal value rest ∨ next = .raised) :
      Step shutdown (shutdown.goto next)
        (if process.finished then none else some (.sent name value))
  | waits {value : Signal} (place : shutdown.place = .signal value []) :
      Step shutdown (shutdown.goto (.wait value)) none
  | polls {value : Signal} {deadline : Int} (place : shutdown.place = .wait value ∨
      ∃ deadline, shutdown.place = .poll value deadline [] true) :
      Step shutdown (shutdown.goto (.poll value deadline shutdown.names false)) none
  | escalates {value : Signal} {deadline : Int}
      (place : shutdown.place = .poll value deadline [] true) :
      Step shutdown (shutdown.goto (escalate shutdown.names value)) none
  | stopped {value : Signal} {deadline : Int}
      (place : shutdown.place = .poll value deadline [] false) :
      Step shutdown (shutdown.goto (.returned true)) none
  | failed (place : shutdown.place = .check []) :
      Step shutdown (shutdown.goto (.returned false)) none
  | detached {name : String} {rest : List String} (place : shutdown.place = .detach name rest) :
      Step shutdown (shutdown.goto (.check rest)) (some (.detached name))

section Cases

variable {grace : Int} {shutdown next : Shutdown}

theorem step_running {answer : Answer}
    (taken : shutdown.step grace (.running answer) = some next) :
    Step shutdown next (shutdown.event (.running answer)) := by
  simp only [step, Option.bind_eq_bind, Option.bind_eq_some_iff] at taken
  obtain ⟨⟨check, name⟩, asked, process, entry, goes⟩ := taken
  cases ran : process.running answer with
  | none =>
    simp only [ran] at goes
    obtain rfl := Option.some.inj goes
    have silent : shutdown.event (.running answer) = none := by
      simp [event, asked, entry, ran]
    exact silent ▸ .raised asked
  | some outcome =>
    obtain ⟨result, after⟩ := outcome
    simp only [ran] at goes
    obtain rfl := Option.some.inj goes
    have shown : shutdown.event (.running answer) = some (.observed check name result) := by
      simp [event, asked, entry, ran]
    exact shown ▸ .observed asked entry ran

theorem step_signal {fails : Bool} (taken : shutdown.step grace (.signal fails) = some next) :
    Step shutdown next (shutdown.event (.signal fails)) := by
  cases place : shutdown.place with
  | send value name rest =>
    simp only [step, place, Option.bind_eq_bind, Option.bind_eq_some_iff] at taken
    obtain ⟨process, entry, goes⟩ := taken
    have shown : shutdown.event (.signal fails) =
        if process.finished then none else some (.sent name value) := by
      simp [event, place, entry]
    rw [shown]
    split at goes
    · obtain rfl := Option.some.inj goes
      exact .sent place entry (.inr rfl)
    · obtain rfl := Option.some.inj goes
      exact .sent place entry (.inl rfl)
  | _ => simp [step, place] at taken

theorem step_now {time : Int} (taken : shutdown.step grace (.now time) = some next) :
    Step shutdown next (shutdown.event (.now time)) := by
  cases place : shutdown.place with
  | wait value =>
    simp only [step, place, Option.some.injEq] at taken
    exact taken ▸ .polls (.inl place)
  | poll value deadline rest anyRunning =>
    cases rest with
    | cons name rest => simp [step, place] at taken
    | nil =>
      cases anyRunning with
      | false => simp [step, place] at taken
      | true =>
        simp only [step, place] at taken
        split at taken
        · obtain rfl := Option.some.inj taken
          exact .escalates place
        · obtain rfl := Option.some.inj taken
          exact .polls (.inr ⟨deadline, place⟩)
  | _ => simp [step, place] at taken

theorem step_proceed (taken : shutdown.step grace .proceed = some next) :
    Step shutdown next (shutdown.event .proceed) := by
  cases place : shutdown.place with
  | signal value rest =>
    cases rest with
    | cons name rest => simp [step, place] at taken
    | nil =>
      simp only [step, place, Option.some.injEq] at taken
      have silent : shutdown.event .proceed = none := by simp [event, place]
      exact silent ▸ taken ▸ .waits place
  | poll value deadline rest anyRunning =>
    cases rest with
    | cons name rest => simp [step, place] at taken
    | nil =>
      cases anyRunning with
      | true => simp [step, place] at taken
      | false =>
        simp only [step, place, Option.some.injEq] at taken
        have silent : shutdown.event .proceed = none := by simp [event, place]
        exact silent ▸ taken ▸ .stopped place
  | check rest =>
    cases rest with
    | cons name rest => simp [step, place] at taken
    | nil =>
      simp only [step, place, Option.some.injEq] at taken
      have silent : shutdown.event .proceed = none := by simp [event, place]
      exact silent ▸ taken ▸ .failed place
  | detach name rest =>
    simp only [step, place, Option.some.injEq] at taken
    have shown : shutdown.event .proceed = some (.detached name) := by simp [event, place]
    exact shown ▸ taken ▸ .detached place
  | _ => simp [step, place] at taken

theorem step_cases {label : ShutdownLabel} (taken : shutdown.step grace label = some next) :
    Step shutdown next (shutdown.event label) := by
  cases label with
  | running answer => exact step_running taken
  | signal fails => exact step_signal taken
  | now time => exact step_now taken
  | proceed => exact step_proceed taken

end Cases

end Shutdown

end Dls2.Utils
