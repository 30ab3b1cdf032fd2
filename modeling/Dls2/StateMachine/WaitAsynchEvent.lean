import Dls2.Application.AppStateMachine
import Dls2.Lib.CondVar

/-!
# Waiting for an asynchronous event

`waitAsynchEvent` tests the flags of its events under `async_mutex` and sleeps on
`async_cv` while none is raised. `raiseEvent` stores a flag and notifies without the
mutex, so both can happen after the flag has been tested and before the thread
sleeps. The notification is then lost.

Any number of `raiseEvent` calls are in progress here, and every step of a call is a
step of its own. The machine, the events and the calls that have begun before the
wait are arbitrary.
-/

namespace Dls2.StateMachine

open Dls2.Application Dls2.CondVar Dls2.Transition

/-- What a call of `raiseEvent` does next, once it has found a transition. -/
inductive RaisePlace (State : Type) where
  /-- The locked write of the desired state. -/
  | writeDesired (target : Option State)
  /-- The store of the flag. -/
  | store
  | notifyAll
deriving DecidableEq, Repr

/-- A call of `raiseEvent` in progress. -/
structure PendingRaise (State Event : Type) where
  event : Event
  place : RaisePlace State
deriving DecidableEq, Repr

namespace PendingRaise

variable {State Event : Type}

/-- What the call does next, until it is over. -/
def continued (call : PendingRaise State Event) : Option (PendingRaise State Event) :=
  match call.place with
  | .writeDesired _ => some { call with place := .store }
  | .store => some { call with place := .notifyAll }
  | .notifyAll => none

variable [DecidableEq Event]

/-- The next step of the call on the machine. -/
def effect (call : PendingRaise State Event) (machine : Machine State Event) :
    Machine State Event :=
  match call.place with
  | .writeDesired target => machine.writeDesired target
  | .store => machine.storeEvent call.event true
  | .notifyAll => machine

@[simp] theorem state_effect (call : PendingRaise State Event) (machine : Machine State Event) :
    (call.effect machine).state = machine.state := by
  cases place : call.place <;> simp [effect, place]

@[simp] theorem transitions_effect (call : PendingRaise State Event)
    (machine : Machine State Event) : (call.effect machine).transitions = machine.transitions := by
  cases place : call.place <;> simp [effect, place]

end PendingRaise

/-- A machine, a thread inside `waitAsynchEvent`, and the `raiseEvent` calls in
progress. -/
structure Waiting (State Event : Type) where
  machine : Machine State Event
  waiter : WaitPc Event
  calls : List (PendingRaise State Event)

inductive WaitLabel (Event : Type) where
  /-- The waiting thread goes on. -/
  | waiter
  /-- A thread calls `raiseEvent` and looks the transition up. -/
  | raiseEvent (event : Event)
  /-- The call with this index goes on. -/
  | advance (index : Nat)
deriving DecidableEq, Repr

/-- Steps of the waiting thread. -/
def WaitLabel.IsWaiter {Event : Type} (label : WaitLabel Event) : Prop := label = .waiter

namespace Waiting

variable {State Event : Type}

/-- The lookup of `raiseEvent`; a call without a transition returns at once. -/
def raiseEvent (waiting : Waiting State Event) (event : Event) : Waiting State Event :=
  match waiting.machine.find event with
  | none => waiting
  | some target =>
    { waiting with calls := waiting.calls ++ [⟨event, .writeDesired target⟩] }

/-- An event of the list is raised, no call is in progress, and the thread sleeps. -/
structure SleepsThrough (events : List Event) (waiting : Waiting State Event) : Prop where
  asleep : waiting.waiter = .asleep
  raised : ∃ event ∈ events, waiting.machine.isRaised event = true
  idle : waiting.calls = []

/-- The thread will not see an event that is raised. -/
abbrev Misses (events : List Event) (waiting : Waiting State Event) : Prop :=
  Missed events waiting.machine.isRaised waiting.waiter

/-- No call notifies while the thread, past the flag of a raised event, is not asleep
yet, unless another call is in progress. -/
def Heard (events : List Event) (waiting : Waiting State Event) : WaitLabel Event → Prop
  | .advance index => ∀ call ∈ waiting.calls[index]?, call.place = .notifyAll →
      Misses events waiting → waiting.waiter = .asleep ∨ waiting.calls.eraseIdx index ≠ []
  | .waiter | .raiseEvent _ => True

variable [DecidableEq Event]

/-- The other steps of a call; with the notification it is over. -/
def advance (waiting : Waiting State Event) (index : Nat) (call : PendingRaise State Event) :
    Waiting State Event :=
  match call.continued with
  | some continued =>
    { waiting with
      machine := call.effect waiting.machine
      calls := waiting.calls.set index continued }
  | none =>
    { waiting with
      waiter := waiting.waiter.notify
      calls := waiting.calls.eraseIdx index }

def step (isAsync : Event → Bool) (events : List Event) (waiting : Waiting State Event) :
    WaitLabel Event → Option (Waiting State Event)
  | .waiter => (waiting.waiter.step events waiting.machine.isRaised).map fun waiter =>
      { waiting with waiter := waiter }
  | .raiseEvent event => if isAsync event then some (waiting.raiseEvent event) else none
  | .advance index => waiting.calls[index]?.map fun call => waiting.advance index call

/-- Undisturbed, the steps of a call that finds a transition are one `raiseEvent`. -/
theorem raiseEvent_steps {isAsync : Event → Bool} {events : List Event}
    {waiting : Waiting State Event} {event : Event} {target : Option State}
    (idle : waiting.calls = []) (async : isAsync event = true)
    (found : waiting.machine.find event = some target) :
    (waiting.step isAsync events (.raiseEvent event)).bind (fun next =>
      (next.step isAsync events (.advance 0)).bind fun next =>
        (next.step isAsync events (.advance 0)).bind fun next =>
          next.step isAsync events (.advance 0)) =
      some { waiting with
        machine := (waiting.machine.raiseEvent event).2
        waiter := waiting.waiter.notify } := by
  simp [step, async, raiseEvent, found, idle, advance, PendingRaise.continued,
    PendingRaise.effect, Machine.raiseEvent]

end Waiting

section Runs

variable {State Event : Type} [DecidableEq Event] {isAsync : Event → Bool} {events : List Event}
  {waiting next : Waiting State Event} {label : WaitLabel Event}

/-- A thread enters `waitAsynchEvent`. -/
def waitSystem (isAsync : Event → Bool) (machine : Machine State Event) (events : List Event)
    (calls : List (PendingRaise State Event)) :
    System (Waiting State Event) (WaitLabel Event) where
  initial := ⟨machine, .testing events, calls⟩
  step := Waiting.step isAsync events

namespace Waiting

/-- As long as every notification is heard, a call is in progress whenever the thread
has missed an event. -/
theorem pending_of_misses (pending : waiting.Misses events → waiting.calls ≠ [])
    (heard : waiting.Heard events label)
    (taken : waiting.step isAsync events label = some next) :
    next.Misses events → next.calls ≠ [] := by
  cases label with
  | waiter =>
    obtain ⟨pc, steps, rfl⟩ := Option.map_eq_some_iff.mp taken
    exact fun misses => pending (misses.of_step steps)
  | raiseEvent event =>
    obtain ⟨_, same⟩ := Option.ite_none_right_eq_some.mp taken
    obtain rfl := Option.some.inj same
    unfold Waiting.raiseEvent
    split
    · exact pending
    · simp
  | advance index =>
    obtain ⟨call, atIndex, rfl⟩ := Option.map_eq_some_iff.mp taken
    obtain ⟨inside, _⟩ := List.getElem?_eq_some_iff.mp atIndex
    have nonempty : waiting.calls ≠ [] := List.ne_nil_of_length_pos (Nat.zero_lt_of_lt inside)
    cases place : call.place with
    | writeDesired target => simp [advance, PendingRaise.continued, place, nonempty]
    | store => simp [advance, PendingRaise.continued, place, nonempty]
    | notifyAll =>
      simp only [advance, PendingRaise.continued, place]
      intro misses
      obtain ⟨misses, awake⟩ := missed_notify_iff.mp misses
      exact (heard call atIndex place misses).resolve_left awake

/-- A notification that is not heard leaves the thread on its way to sleep, with no
call in progress. -/
theorem misses_of_not_heard (unheard : ¬ waiting.Heard events label)
    (taken : waiting.step isAsync events label = some next) :
    next.Misses events ∧ next.calls = [] := by
  cases label with
  | advance index =>
    simp only [Heard, Classical.not_imp, not_forall, not_or, not_not] at unheard
    obtain ⟨call, atIndex, place, misses, awake, last⟩ := unheard
    obtain ⟨moved, same, rfl⟩ := Option.map_eq_some_iff.mp taken
    obtain rfl : call = moved := Option.some.inj (atIndex.symm.trans same)
    simp only [advance, PendingRaise.continued, place]
    exact ⟨missed_notify_iff.mpr ⟨misses, awake⟩, last⟩
  | waiter | raiseEvent event => exact absurd trivial unheard

end Waiting

/-- While every notification is heard, the thread never sleeps through a raised event.
After one that is not heard the thread, left to itself, does. -/
theorem woken_of_heard (isAsync : Event → Bool) (machine : Machine State Event)
    (events : List Event) (calls : List (PendingRaise State Event)) :
    (∀ waiting, (waitSystem isAsync machine events calls).ReachableUnder
      (Waiting.Heard events) waiting → ¬ waiting.SleepsThrough events) ∧
    ∀ waiting label next, (waitSystem isAsync machine events calls).Reachable waiting →
      ¬ waiting.Heard events label →
      (waitSystem isAsync machine events calls).step waiting label = some next →
      (waitSystem isAsync machine events calls).LeadsTo WaitLabel.IsWaiter
        (Waiting.SleepsThrough events) next := by
  constructor
  · intro waiting reachable sleeps
    have pending : waiting.Misses events → waiting.calls ≠ [] := by
      apply reachable.invariant fun waiting => waiting.Misses events → waiting.calls ≠ []
      · exact fun misses => absurd misses not_missed_testing_all
      · intro waiting label next pending heard taken
        exact Waiting.pending_of_misses pending heard taken
    apply pending _ sleeps.idle
    rw [Waiting.Misses, sleeps.asleep, missed_asleep_iff]
    exact sleeps.raised
  · intro waiting label next _ unheard taken
    obtain ⟨misses, idle⟩ := Waiting.misses_of_not_heard unheard taken
    have steps : ∀ pc after, pc.step events next.machine.isRaised = some after →
        (waitSystem isAsync machine events calls).step { next with waiter := pc } .waiter =
          some { next with waiter := after } := by
      intro pc after steps
      simp [waitSystem, Waiting.step, steps]
    have sleeps : Waiting.SleepsThrough events { next with waiter := .asleep } :=
      ⟨rfl, misses.present, idle⟩
    have mine : WaitLabel.IsWaiter (.waiter : WaitLabel Event) := rfl
    exact Missed.leadsTo misses mine steps sleeps

end Runs

/-- In IDLE the thread sleeps when a quit request is raised from beginning to end. -/
theorem idle_woken_by_quitRequest : ∃ waiting : Waiting AppState AppEvent,
    (waitSystem AppEvent.isAsync (AppStateMachine.new.initState .idle)
      [.activationRequest, .quitRequest] []).run
        [.waiter, .waiter, .waiter, .waiter, .raiseEvent .quitRequest, .advance 0, .advance 0,
          .advance 0, .waiter] = some waiting ∧ waiting.machine.isRaised .quitRequest = true ∧
      ¬ waiting.SleepsThrough [.activationRequest, .quitRequest] := by
  have admitted : (waitSystem AppEvent.isAsync (AppStateMachine.new.initState .idle)
      [.activationRequest, .quitRequest] []).AdmitsFrom
        (Waiting.Heard [.activationRequest, .quitRequest])
        ⟨AppStateMachine.new.initState .idle, .testing [.activationRequest, .quitRequest], []⟩
        [.waiter, .waiter, .waiter, .waiter, .raiseEvent .quitRequest, .advance 0, .advance 0,
          .advance 0, .waiter] := by
    refine ⟨trivial, ?_⟩
    rintro _ ⟨⟩
    refine ⟨trivial, ?_⟩
    rintro _ ⟨⟩
    refine ⟨trivial, ?_⟩
    rintro _ ⟨⟩
    refine ⟨trivial, ?_⟩
    rintro _ ⟨⟩
    refine ⟨trivial, ?_⟩
    rintro _ ⟨⟩
    refine ⟨fun _ _ _ _ => .inl rfl, ?_⟩
    rintro _ ⟨⟩
    refine ⟨fun _ _ _ _ => .inl rfl, ?_⟩
    rintro _ ⟨⟩
    refine ⟨fun _ _ _ _ => .inl rfl, ?_⟩
    rintro _ ⟨⟩
    refine ⟨trivial, ?_⟩
    rintro _ ⟨⟩
    trivial
  have reachable := System.ReachableUnder.initial.runFrom admitted rfl
  exact ⟨_, rfl, rfl, (woken_of_heard _ _ _ _).1 _ reachable⟩

/-- In IDLE both flags have been tested when a quit request is raised from beginning
to end. The thread then goes to sleep with the accepted request's flag set. -/
theorem idle_sleeps_through_quitRequest : ∃ waiting : Waiting AppState AppEvent,
    (waitSystem AppEvent.isAsync (AppStateMachine.new.initState .idle)
      [.activationRequest, .quitRequest] []).Reachable waiting ∧
      waiting.waiter = .asleep ∧ waiting.machine.isRaised .quitRequest = true ∧
      waiting.machine.desiredState = some .quit ∧ waiting.calls = [] := by
  have passes : ((waitSystem AppEvent.isAsync (AppStateMachine.new.initState .idle)
      [.activationRequest, .quitRequest] []).run
        [.waiter, .waiter, .waiter, .raiseEvent .quitRequest, .advance 0, .advance 0, .advance 0,
          .waiter]).any (fun waiting =>
            (waiting.waiter == .asleep && waiting.machine.isRaised .quitRequest) &&
              (waiting.machine.desiredState == some .quit && waiting.calls == [])) = true := by
    decide
  obtain ⟨waiting, reachable, holds⟩ := System.exists_reachable_of_run passes
  simp only [Bool.and_eq_true, beq_iff_eq] at holds
  obtain ⟨⟨asleep, raised⟩, desired, idle⟩ := holds
  exact ⟨waiting, reachable, asleep, raised, desired, idle⟩

end Dls2.StateMachine
