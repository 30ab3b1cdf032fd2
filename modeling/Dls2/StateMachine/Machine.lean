import Mathlib.Logic.Function.Basic

/-!
# The state machine base class

`Machine` holds the members of `StateMachine` that its methods read and write.
A pointer `State *` is an option whose `none` is the null pointer, and the
transition table keeps the distinction a `std::map` makes between an absent key
and a key that maps to null: `transitions[{state, event}]` inserts the latter.

`raiseEvent` and `nextState` take a mutex several times. Each of their locked
blocks, table lookups and atomic stores is a definition of its own, so that a
concurrent model can interleave them; the whole calls are their compositions.
-/

namespace Dls2.StateMachine

/-- `StateMachine`: current and desired state, transition table, one boolean for
each asynchronous event, and the end flag. -/
structure Machine (State Event : Type) where
  state : Option State
  desiredState : Option State
  transitions : Option State → Event → Option (Option State)
  asyncEvents : Event → Bool
  quit : Bool

namespace Machine

variable {State Event : Type}

/-- `isRaised` loads the flag of an asynchronous event. -/
def isRaised (machine : Machine State Event) (event : Event) : Bool :=
  machine.asyncEvents event

/-- `transitions.find({state, event})`, done by `raiseEvent` without the mutex. -/
def find (machine : Machine State Event) (event : Event) : Option (Option State) :=
  machine.transitions machine.state event

/-- The locked block of `raiseEvent`. -/
def writeDesired (machine : Machine State Event) (target : Option State) :
    Machine State Event :=
  { machine with desiredState := target }

/-- The second locked block of `nextState`; a null target only prints a message. -/
def writeState (machine : Machine State Event) (newState : Option State) :
    Machine State Event :=
  match newState with
  | none => machine
  | some state => { machine with state := some state, desiredState := some state }

/-- `stop` ends the loop of `start`. -/
def stop (machine : Machine State Event) : Machine State Event :=
  { machine with quit := true }

/-- `initState` sets the current and the desired state. -/
def initState (machine : Machine State Event) (state : State) : Machine State Event :=
  { machine with state := some state, desiredState := some state }

/-- `init`: the given state and table, no flag raised. -/
def init (state : State) (transitions : Option State → Event → Option (Option State)) :
    Machine State Event where
  state := some state
  desiredState := some state
  transitions := transitions
  asyncEvents := fun _ => false
  quit := false

section Events

variable [DecidableEq Event]

/-- The atomic store of one flag. -/
def storeEvent (machine : Machine State Event) (event : Event) (value : Bool) :
    Machine State Event :=
  { machine with asyncEvents := Function.update machine.asyncEvents event value }

/-- `raiseEvent`: an event without a transition from the current state is
discarded, any other sets the desired state and its flag. -/
def raiseEvent (machine : Machine State Event) (event : Event) : Bool × Machine State Event :=
  match machine.find event with
  | none => (false, machine)
  | some target => (true, (machine.writeDesired target).storeEvent event true)

/-- `consumeEvent` clears the flag of an asynchronous event. -/
def consumeEvent (machine : Machine State Event) (event : Event) : Machine State Event :=
  machine.storeEvent event false

variable [DecidableEq State]

/-- The first locked block of `nextState`: `operator[]` returns the target and
inserts a null one when the key is absent. -/
def lookup (machine : Machine State Event) (event : Event) :
    Option State × Machine State Event :=
  match machine.find event with
  | some target => (target, machine)
  | none => (none, { machine with
      transitions := Function.update machine.transitions machine.state
        (Function.update (machine.transitions machine.state) event (some none)) })

/-- `nextState(const Event &)`. -/
def nextState (machine : Machine State Event) (event : Event) : Machine State Event :=
  (machine.lookup event).2.writeState (machine.lookup event).1

/-- `nextState(const AsyncEvent &)` consumes the event first. -/
def nextStateAsync (machine : Machine State Event) (event : Event) : Machine State Event :=
  (machine.consumeEvent event).nextState event

end Events

/-! ### What each block changes -/

@[simp] theorem isRaised_writeDesired (machine : Machine State Event) (target : Option State)
    (event : Event) : (machine.writeDesired target).isRaised event = machine.isRaised event := rfl

@[simp] theorem state_writeDesired (machine : Machine State Event) (target : Option State) :
    (machine.writeDesired target).state = machine.state := rfl

@[simp] theorem desiredState_writeDesired (machine : Machine State Event)
    (target : Option State) : (machine.writeDesired target).desiredState = target := rfl

@[simp] theorem transitions_writeDesired (machine : Machine State Event)
    (target : Option State) :
    (machine.writeDesired target).transitions = machine.transitions := rfl

@[simp] theorem quit_writeDesired (machine : Machine State Event) (target : Option State) :
    (machine.writeDesired target).quit = machine.quit := rfl

@[simp] theorem isRaised_stop (machine : Machine State Event) (event : Event) :
    machine.stop.isRaised event = machine.isRaised event := rfl

@[simp] theorem state_stop (machine : Machine State Event) : machine.stop.state = machine.state :=
  rfl

@[simp] theorem desiredState_stop (machine : Machine State Event) :
    machine.stop.desiredState = machine.desiredState := rfl

@[simp] theorem transitions_stop (machine : Machine State Event) :
    machine.stop.transitions = machine.transitions := rfl

@[simp] theorem isRaised_writeState (machine : Machine State Event) (newState : Option State)
    (event : Event) : (machine.writeState newState).isRaised event = machine.isRaised event := by
  cases newState <;> rfl

@[simp] theorem transitions_writeState (machine : Machine State Event)
    (newState : Option State) :
    (machine.writeState newState).transitions = machine.transitions := by
  cases newState <;> rfl

@[simp] theorem quit_writeState (machine : Machine State Event) (newState : Option State) :
    (machine.writeState newState).quit = machine.quit := by
  cases newState <;> rfl

@[simp] theorem state_writeState_some (machine : Machine State Event) (state : State) :
    (machine.writeState (some state)).state = some state := rfl

@[simp] theorem desiredState_writeState_some (machine : Machine State Event) (state : State) :
    (machine.writeState (some state)).desiredState = some state := rfl

section Events

variable [DecidableEq Event]

theorem isRaised_storeEvent (machine : Machine State Event) (event other : Event) (value : Bool) :
    (machine.storeEvent event value).isRaised other =
      if other = event then value else machine.isRaised other := by
  simp [isRaised, storeEvent, Function.update_apply]

@[simp] theorem state_storeEvent (machine : Machine State Event) (event : Event) (value : Bool) :
    (machine.storeEvent event value).state = machine.state := rfl

@[simp] theorem desiredState_storeEvent (machine : Machine State Event) (event : Event)
    (value : Bool) : (machine.storeEvent event value).desiredState = machine.desiredState := rfl

@[simp] theorem transitions_storeEvent (machine : Machine State Event) (event : Event)
    (value : Bool) : (machine.storeEvent event value).transitions = machine.transitions := rfl

@[simp] theorem quit_consumeEvent (machine : Machine State Event) (event : Event) :
    (machine.consumeEvent event).quit = machine.quit := rfl

theorem isRaised_consumeEvent (machine : Machine State Event) (event other : Event) :
    (machine.consumeEvent event).isRaised other =
      if other = event then false else machine.isRaised other :=
  machine.isRaised_storeEvent event other false

@[simp] theorem state_consumeEvent (machine : Machine State Event) (event : Event) :
    (machine.consumeEvent event).state = machine.state := rfl

@[simp] theorem desiredState_consumeEvent (machine : Machine State Event) (event : Event) :
    (machine.consumeEvent event).desiredState = machine.desiredState := rfl

@[simp] theorem transitions_consumeEvent (machine : Machine State Event) (event : Event) :
    (machine.consumeEvent event).transitions = machine.transitions := rfl

@[simp] theorem find_consumeEvent (machine : Machine State Event) (event other : Event) :
    (machine.consumeEvent event).find other = machine.find other := rfl

@[simp] theorem raiseEvent_state (machine : Machine State Event) (event : Event) :
    (machine.raiseEvent event).2.state = machine.state := by
  unfold raiseEvent
  cases machine.find event <;> rfl

@[simp] theorem raiseEvent_transitions (machine : Machine State Event) (event : Event) :
    (machine.raiseEvent event).2.transitions = machine.transitions := by
  unfold raiseEvent
  cases machine.find event <;> rfl

@[simp] theorem raiseEvent_quit (machine : Machine State Event) (event : Event) :
    (machine.raiseEvent event).2.quit = machine.quit := by
  unfold raiseEvent
  cases machine.find event <;> rfl

/-- A raised event sets its own flag exactly when the current state has a
transition for it; no other flag changes. -/
theorem isRaised_raiseEvent (machine : Machine State Event) (event other : Event) :
    (machine.raiseEvent event).2.isRaised other =
      if other = event ∧ (machine.find event).isSome then true else machine.isRaised other := by
  unfold raiseEvent
  cases found : machine.find event with
  | none => simp
  | some target => simp [isRaised_storeEvent]

variable [DecidableEq State]

/-- A lookup that finds its key leaves the machine as it was. -/
theorem lookup_of_find {machine : Machine State Event} {event : Event} {target : Option State}
    (found : machine.find event = some target) : machine.lookup event = (target, machine) := by
  simp [lookup, found]

@[simp] theorem state_lookup (machine : Machine State Event) (event : Event) :
    (machine.lookup event).2.state = machine.state := by
  unfold lookup
  cases machine.find event <;> rfl

@[simp] theorem desiredState_lookup (machine : Machine State Event) (event : Event) :
    (machine.lookup event).2.desiredState = machine.desiredState := by
  unfold lookup
  cases machine.find event <;> rfl

@[simp] theorem quit_lookup (machine : Machine State Event) (event : Event) :
    (machine.lookup event).2.quit = machine.quit := by
  unfold lookup
  cases machine.find event <;> rfl

@[simp] theorem isRaised_lookup (machine : Machine State Event) (event other : Event) :
    (machine.lookup event).2.isRaised other = machine.isRaised other := by
  unfold lookup
  cases machine.find event <;> rfl

/-- A missing key and a null target both yield a null pointer. -/
theorem lookup_target (machine : Machine State Event) (event : Event) :
    (machine.lookup event).1 = (machine.find event).join := by
  unfold lookup
  cases machine.find event <;> rfl

/-- What the table holds after a lookup: `operator[]` has filled in the key. -/
theorem transitions_lookup (machine : Machine State Event) (event other : Event)
    (state : Option State) :
    (machine.lookup event).2.transitions state other =
      if (state = machine.state ∧ other = event) ∧ machine.find event = none then some none
      else machine.transitions state other := by
  unfold lookup
  cases found : machine.find event with
  | some target => simp
  | none =>
    by_cases same : state = machine.state
    · subst same
      by_cases event_eq : other = event
      · subst event_eq
        simp
      · simp [event_eq]
    · simp [same]

/-- The targets that are not null are the same before and after a lookup. -/
theorem transitions_lookup_eq_some_iff {machine : Machine State Event} {event other : Event}
    {state : Option State} {target : State} :
    (machine.lookup event).2.transitions state other = some (some target) ↔
      machine.transitions state other = some (some target) := by
  rw [transitions_lookup]
  split
  · rename_i filled
    obtain ⟨⟨rfl, rfl⟩, absent⟩ := filled
    simp only [find] at absent
    simp [absent]
  · exact Iff.rfl

end Events

end Machine

end Dls2.StateMachine
