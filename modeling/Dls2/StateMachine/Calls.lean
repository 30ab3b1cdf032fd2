import Dls2.Lib.Transition
import Dls2.StateMachine.Machine

/-!
# Sequences of calls

Any sequence of `raiseEvent`, `nextState`, `transit` and `stop` calls on a state
machine with an arbitrary table. `transit` runs the activity of the state it
arrives at; what that activity calls is the rest of the sequence.

The two lookups of the transition table differ: the one of `raiseEvent` leaves
the table alone, `nextState` inserts a null target under a key it does not find.
A later `raiseEvent` finds that key. `Defined` is the condition under which no
asynchronous event gets such a key.
-/

namespace Dls2.StateMachine

open Dls2.Transition

/-- The public operations; those that take an `AsyncEvent` are overloads. -/
inductive Call (Event : Type) where
  | raiseEvent (event : Event)
  | nextState (event : Event)
  | nextStateAsync (event : Event)
  | transit (event : Event)
  | transitAsync (event : Event)
  | stop
deriving DecidableEq, Repr

namespace Machine

variable {State Event : Type}

/-- `runState` dereferences the current state unless the machine has ended. -/
def runState (machine : Machine State Event) : Option (Machine State Event) :=
  if machine.quit then some machine else machine.state.map fun _ => machine

variable [DecidableEq State] [DecidableEq Event]

/-- `transit(const Event &)`. -/
def transit (machine : Machine State Event) (event : Event) : Option (Machine State Event) :=
  (machine.nextState event).runState

/-- `transit(const AsyncEvent &)`. -/
def transitAsync (machine : Machine State Event) (event : Event) :
    Option (Machine State Event) :=
  (machine.nextStateAsync event).runState

/-- One call. The types of the overloads admit asynchronous events only. -/
def call (isAsync : Event → Bool) (machine : Machine State Event) :
    Call Event → Option (Machine State Event)
  | .raiseEvent event => if isAsync event then some (machine.raiseEvent event).2 else none
  | .nextState event => some (machine.nextState event)
  | .nextStateAsync event => if isAsync event then some (machine.nextStateAsync event) else none
  | .transit event => machine.transit event
  | .transitAsync event => if isAsync event then machine.transitAsync event else none
  | .stop => some machine.stop

end Machine

variable {State Event : Type}

/-- Calls on a machine that `init` has set up. -/
def callSystem [DecidableEq State] [DecidableEq Event] (isAsync : Event → Bool) (state : State)
    (table : Option State → Event → Option (Option State)) :
    System (Machine State Event) (Call Event) where
  initial := .init state table
  step := Machine.call isAsync

/-- An event without effect: `nextState` changes neither state, and `raiseEvent`
refuses the event and changes nothing. -/
structure Inert [DecidableEq State] [DecidableEq Event] (isAsync : Event → Bool)
    (machine : Machine State Event) (event : Event) : Prop where
  nextState : (machine.nextState event).state = machine.state ∧
    (machine.nextState event).desiredState = machine.desiredState
  nextStateAsync : isAsync event = true →
    (machine.nextStateAsync event).state = machine.state ∧
      (machine.nextStateAsync event).desiredState = machine.desiredState
  raiseEvent : isAsync event = true → machine.raiseEvent event = (false, machine)

/-- Every pair the initial table does not have is inert, and there is a current
and a desired state. -/
structure UndefinedInert [DecidableEq State] [DecidableEq Event] (isAsync : Event → Bool)
    (table : Option State → Event → Option (Option State)) (machine : Machine State Event) :
    Prop where
  inert : ∀ event, table machine.state event = none → Inert isAsync machine event
  state : machine.state ≠ none
  desiredState : machine.desiredState ≠ none

/-- `nextState` is called with an asynchronous event only where the initial table
has a transition for it. -/
def Defined (isAsync : Event → Bool) (table : Option State → Event → Option (Option State))
    (machine : Machine State Event) : Call Event → Prop
  | .nextState event | .nextStateAsync event | .transit event | .transitAsync event =>
    isAsync event = true → (table machine.state event).isSome = true
  | .raiseEvent _ | .stop => True

section Lookups

variable [DecidableEq State] [DecidableEq Event] {machine : Machine State Event} {event : Event}

@[simp] theorem Machine.transitions_nextState (machine : Machine State Event) (event : Event) :
    (machine.nextState event).transitions = (machine.lookup event).2.transitions := by
  simp [nextState]

/-- `nextState` arrives at the target it finds. -/
theorem Machine.nextState_of_find {target : State}
    (found : machine.find event = some (some target)) :
    (machine.nextState event).state = some target ∧
      (machine.nextState event).desiredState = some target := by
  simp [nextState, lookup_of_find found]

/-- Without a target `nextState` stays. -/
theorem Machine.nextState_of_not_find (missing : (machine.find event).join = none) :
    (machine.nextState event).state = machine.state ∧
      (machine.nextState event).desiredState = machine.desiredState := by
  simp [nextState, lookup_target, missing, writeState]

/-- A pair is inert exactly when it has no target and, for an asynchronous event,
no key either. -/
theorem inert_iff {isAsync : Event → Bool} (missing : (machine.find event).join = none) :
    Inert isAsync machine event ↔ (isAsync event = true → machine.find event = none) := by
  constructor
  · intro inert async
    have refused := inert.raiseEvent async
    cases found : machine.find event with
    | none => rfl
    | some target => simp [Machine.raiseEvent, found] at refused
  · intro keyless
    refine ⟨Machine.nextState_of_not_find missing, fun _ => ?_, fun async => ?_⟩
    · exact @Machine.nextState_of_not_find _ _ _ _ (machine.consumeEvent event) event missing
    · simp [Machine.raiseEvent, keyless async]

end Lookups

/-! ### What calls keep -/

/-- What holds after any calls: the targets that are not null are the initial
ones, no key gets lost, and there is a current state. -/
structure KeepsTargets (table : Option State → Event → Option (Option State))
    (machine : Machine State Event) : Prop where
  targets : ∀ state event target, machine.transitions state event = some (some target) ↔
    table state event = some (some target)
  state : machine.state ≠ none

/-- What holds after calls that meet `Defined`: no asynchronous event has gained a
key, and the desired state is not null either. -/
structure KeepsKeys (isAsync : Event → Bool)
    (table : Option State → Event → Option (Option State)) (machine : Machine State Event) :
    Prop extends KeepsTargets table machine where
  keys : ∀ state event, isAsync event = true → table state event = none →
    machine.transitions state event = none
  desiredState : machine.desiredState ≠ none

section Preservation

variable {isAsync : Event → Bool} {table : Option State → Event → Option (Option State)}
  {machine next : Machine State Event}

/-- A pair without a target in the initial table has none later. -/
theorem KeepsTargets.missing (keeps : KeepsTargets table machine) {event : Event}
    (undefined : table machine.state event = none) : (machine.find event).join = none := by
  cases found : machine.find event with
  | none => rfl
  | some target =>
    cases target with
    | none => rfl
    | some target => simp [(keeps.targets _ _ _).mp found] at undefined

/-- `runState` finds a state to run and leaves the machine alone. -/
theorem Machine.runState_eq (current : machine.state ≠ none) :
    machine.runState = some machine := by
  obtain ⟨state, present⟩ := Option.ne_none_iff_exists'.mp current
  simp [runState, present]

theorem KeepsTargets.writeState (keeps : KeepsTargets table machine) (newState : Option State) :
    KeepsTargets table (machine.writeState newState) where
  targets := by simpa using keeps.targets
  state := by
    cases newState with
    | none => exact keeps.state
    | some state => exact Option.some_ne_none state

variable [DecidableEq Event]

theorem KeepsTargets.consumeEvent (keeps : KeepsTargets table machine) (event : Event) :
    KeepsTargets table (machine.consumeEvent event) := ⟨keeps.targets, keeps.state⟩

theorem KeepsKeys.consumeEvent (keeps : KeepsKeys isAsync table machine) (event : Event) :
    KeepsKeys isAsync table (machine.consumeEvent event) :=
  ⟨keeps.toKeepsTargets.consumeEvent event, keeps.keys, keeps.desiredState⟩

/-- `raiseEvent` writes the target it finds, which is one of the initial table. -/
theorem KeepsKeys.raiseEvent (noNull : ∀ state event, table state event ≠ some none)
    (keeps : KeepsKeys isAsync table machine) {event : Event} (async : isAsync event = true) :
    KeepsKeys isAsync table (machine.raiseEvent event).2 := by
  refine ⟨⟨by simpa using keeps.targets, by simpa using keeps.state⟩,
    by simpa using keeps.keys, ?_⟩
  unfold Machine.raiseEvent
  cases found : machine.find event with
  | none => exact keeps.desiredState
  | some target =>
    cases target with
    | some target => simp
    | none =>
      have undefined : table machine.state event = none := by
        cases entry : table machine.state event with
        | none => rfl
        | some target =>
          cases target with
          | none => exact absurd entry (noNull _ _)
          | some target =>
            have kept := (keeps.targets _ _ _).mpr entry
            simp [Machine.find, kept] at found
      have keyless := keeps.keys _ event async undefined
      simp [Machine.find, keyless] at found

variable [DecidableEq State]

theorem KeepsTargets.lookup (keeps : KeepsTargets table machine) (event : Event) :
    KeepsTargets table (machine.lookup event).2 where
  targets state other target :=
    Machine.transitions_lookup_eq_some_iff.trans (keeps.targets state other target)
  state := by simpa using keeps.state

theorem KeepsTargets.nextState (keeps : KeepsTargets table machine) (event : Event) :
    KeepsTargets table (machine.nextState event) :=
  (keeps.lookup event).writeState _

/-- A call of `nextState` that meets `Defined` also keeps the keys. -/
theorem KeepsKeys.nextState (keeps : KeepsKeys isAsync table machine) {event : Event}
    (defined : isAsync event = true → (table machine.state event).isSome = true) :
    KeepsKeys isAsync table (machine.nextState event) where
  toKeepsTargets := keeps.toKeepsTargets.nextState event
  keys state other async undefined := by
    rw [Machine.transitions_nextState, Machine.transitions_lookup, if_neg]
    · exact keeps.keys state other async undefined
    · rintro ⟨⟨rfl, rfl⟩, _⟩
      simp [undefined] at defined
      exact absurd async (by simp [defined])
  desiredState := by
    cases target : (machine.find event).join with
    | none =>
      rw [(Machine.nextState_of_not_find target).2]
      exact keeps.desiredState
    | some reached =>
      rw [(Machine.nextState_of_find (Option.join_eq_some_iff.mp target)).2]
      exact Option.some_ne_none reached

/-- What a call does: `transit` comes down to `nextState`. -/
inductive CallStep (isAsync : Event → Bool) (machine : Machine State Event) :
    Call Event → Machine State Event → Prop where
  | raiseEvent {event : Event} (async : isAsync event = true) :
      CallStep isAsync machine (.raiseEvent event) (machine.raiseEvent event).2
  | nextState {event : Event} {call : Call Event}
      (calls : call = .nextState event ∨ call = .transit event) :
      CallStep isAsync machine call (machine.nextState event)
  | nextStateAsync {event : Event} {call : Call Event} (async : isAsync event = true)
      (calls : call = .nextStateAsync event ∨ call = .transitAsync event) :
      CallStep isAsync machine call (machine.nextStateAsync event)
  | stop : CallStep isAsync machine .stop machine.stop

theorem KeepsTargets.call_cases (keeps : KeepsTargets table machine) {call : Call Event}
    (taken : machine.call isAsync call = some next) : CallStep isAsync machine call next := by
  cases call with
  | raiseEvent event =>
    obtain ⟨async, runs⟩ := Option.ite_none_right_eq_some.mp taken
    obtain rfl := Option.some.inj runs
    exact .raiseEvent async
  | nextState event =>
    obtain rfl := Option.some.inj taken
    exact .nextState (.inl rfl)
  | nextStateAsync event =>
    obtain ⟨async, runs⟩ := Option.ite_none_right_eq_some.mp taken
    obtain rfl := Option.some.inj runs
    exact .nextStateAsync async (.inl rfl)
  | transit event =>
    have current := (keeps.nextState event).state
    simp only [Machine.call, Machine.transit, Machine.runState_eq current] at taken
    obtain rfl := Option.some.inj taken
    exact .nextState (.inr rfl)
  | transitAsync event =>
    obtain ⟨async, runs⟩ := Option.ite_none_right_eq_some.mp taken
    have current := ((keeps.consumeEvent event).nextState event).state
    rw [Machine.transitAsync, Machine.nextStateAsync, Machine.runState_eq current] at runs
    obtain rfl := Option.some.inj runs
    exact .nextStateAsync async (.inr rfl)
  | stop =>
    obtain rfl := Option.some.inj taken
    exact .stop

/-- Every call keeps the targets. -/
theorem KeepsTargets.call (keeps : KeepsTargets table machine) {call : Call Event}
    (taken : machine.call isAsync call = some next) : KeepsTargets table next := by
  cases keeps.call_cases taken with
  | raiseEvent async => exact ⟨by simpa using keeps.targets, by simpa using keeps.state⟩
  | nextState calls => exact keeps.nextState _
  | nextStateAsync async calls => exact (keeps.consumeEvent _).nextState _
  | stop => exact ⟨keeps.targets, keeps.state⟩

/-- A call that meets `Defined` keeps the keys. -/
theorem KeepsKeys.call (noNull : ∀ state event, table state event ≠ some none)
    (keeps : KeepsKeys isAsync table machine) {call : Call Event}
    (defined : Defined isAsync table machine call)
    (taken : machine.call isAsync call = some next) : KeepsKeys isAsync table next := by
  cases keeps.call_cases taken with
  | raiseEvent async => exact keeps.raiseEvent noNull async
  | nextState calls =>
    obtain rfl | rfl := calls
    · exact keeps.nextState defined
    · exact keeps.nextState defined
  | nextStateAsync async calls =>
    obtain rfl | rfl := calls
    · exact (keeps.consumeEvent _).nextState defined
    · exact (keeps.consumeEvent _).nextState defined
  | stop => exact ⟨⟨keeps.targets, keeps.state⟩, keeps.keys, keeps.desiredState⟩

/-- Kept keys leave undefined pairs inert. -/
theorem KeepsKeys.undefinedInert (keeps : KeepsKeys isAsync table machine) :
    UndefinedInert isAsync table machine where
  inert event undefined :=
    (inert_iff (keeps.missing undefined)).mpr fun async => keeps.keys _ event async undefined
  state := keeps.state
  desiredState := keeps.desiredState

/-- `nextState` inserts the key it does not find. -/
theorem KeepsTargets.find_nextState (keeps : KeepsTargets table machine) {event : Event}
    (undefined : table machine.state event = none) :
    (machine.nextState event).state = machine.state ∧
      (machine.nextState event).find event = some none := by
  have missing := keeps.missing undefined
  have stays := (Machine.nextState_of_not_find missing).1
  refine ⟨stays, ?_⟩
  rw [Machine.find, stays, Machine.transitions_nextState, Machine.transitions_lookup]
  split
  · rfl
  · rename_i present
    cases found : machine.find event with
    | none => exact absurd ⟨⟨rfl, rfl⟩, found⟩ present
    | some target =>
      rw [found, Option.join_some] at missing
      rw [← missing]
      exact found

/-- From then on the pair is not inert. -/
theorem KeepsTargets.not_undefinedInert (keeps : KeepsTargets table machine) {event : Event}
    (async : isAsync event = true) (undefined : table machine.state event = none) :
    ¬ UndefinedInert isAsync table (machine.nextState event) := by
  intro claimed
  obtain ⟨stays, found⟩ := keeps.find_nextState undefined
  have inert := claimed.inert event (by rw [stays, undefined])
  have keyless := (inert_iff (by rw [found, Option.join_some])).mp inert async
  simp [found] at keyless

end Preservation

section Runs

variable [DecidableEq State] [DecidableEq Event] {isAsync : Event → Bool} {state : State}
  {table : Option State → Event → Option (Option State)} {machine : Machine State Event}

/-- Any calls keep the targets. -/
theorem reachable_keepsTargets
    (reachable : (callSystem isAsync state table).Reachable machine) :
    KeepsTargets table machine := by
  apply reachable.invariant (KeepsTargets table)
  · exact ⟨fun _ _ _ => Iff.rfl, Option.some_ne_none state⟩
  · intro machine call next keeps _ taken
    exact keeps.call taken

/-- Calls that meet `Defined` keep the keys. -/
theorem reachable_keepsKeys (noNull : ∀ state event, table state event ≠ some none)
    (reachable : (callSystem isAsync state table).ReachableUnder (Defined isAsync table) machine) :
    KeepsKeys isAsync table machine := by
  apply reachable.invariant (KeepsKeys isAsync table)
  · exact ⟨⟨fun _ _ _ => Iff.rfl, Option.some_ne_none state⟩, fun _ _ _ undefined => undefined,
      Option.some_ne_none state⟩
  · intro machine call next keeps defined taken
    exact keeps.call noNull defined taken

/-- Sequences of calls that meet `Defined` leave undefined pairs inert; a call that
does not meet it makes one of them accepted. -/
theorem undefinedInert_of_defined (isAsync : Event → Bool) (state : State)
    (table : Option State → Event → Option (Option State))
    (noNull : ∀ state event, table state event ≠ some none) :
    (∀ machine, (callSystem isAsync state table).ReachableUnder (Defined isAsync table) machine →
      UndefinedInert isAsync table machine) ∧
    ∀ machine call next, (callSystem isAsync state table).Reachable machine →
      ¬ Defined isAsync table machine call →
      (callSystem isAsync state table).step machine call = some next →
      ¬ UndefinedInert isAsync table next := by
  constructor
  · intro machine reachable
    exact (reachable_keepsKeys noNull reachable).undefinedInert
  · intro machine call next reachable undefined taken
    have keeps := reachable_keepsTargets reachable
    cases keeps.call_cases taken with
    | raiseEvent async => exact absurd trivial undefined
    | @nextState event call calls =>
      have pair : isAsync event = true ∧ table machine.state event = none := by
        obtain rfl | rfl := calls <;> simpa [Defined] using undefined
      exact keeps.not_undefinedInert pair.1 pair.2
    | @nextStateAsync event call async calls =>
      have pair : table machine.state event = none := by
        obtain rfl | rfl := calls <;> simpa [Defined, async] using undefined
      exact (keeps.consumeEvent event).not_undefinedInert async pair
    | stop => exact absurd trivial undefined

end Runs

/-- A table with one entry: the event `true` switches from `false` to `true`. -/
def switchTable : Option Bool → Bool → Option (Option Bool)
  | some false, true => some (some true)
  | _, _ => none

/-- Switching on leaves undefined pairs inert. An undefined transition does not. -/
theorem switch_undefinedInert :
    (∃ machine : Machine Bool Bool, machine.state = some true ∧
      UndefinedInert (fun _ => true) switchTable machine) ∧
    ∃ machine : Machine Bool Bool, ¬ UndefinedInert (fun _ => true) switchTable machine := by
  have noNull : ∀ state event, switchTable state event ≠ some none := by
    rintro (_ | _ | _) (_ | _) <;> decide
  have switched : (callSystem (fun _ => true) false switchTable).step
      (Machine.init false switchTable) (.nextState true) =
        some ((Machine.init false switchTable).nextState true) := rfl
  have defined : Defined (fun _ => true) switchTable (Machine.init false switchTable)
      (.nextState true) := fun _ => rfl
  have settled := undefinedInert_of_defined (fun _ => true) false switchTable noNull
  constructor
  · refine ⟨(Machine.init false switchTable).nextState true, rfl, settled.1 _ ?_⟩
    exact .step .initial defined switched
  · refine ⟨(Machine.init false switchTable).nextState false, ?_⟩
    exact settled.2 _ (.nextState false) _ .initial (by simp [Defined, switchTable, callSystem,
      Machine.init]) rfl

/-- After an undefined transition the same event is accepted, its flag is set, and
the desired state is null. -/
theorem undefined_event_accepted : ∃ machine : Machine Bool Bool,
    (callSystem (fun _ => true) false switchTable).Reachable machine ∧
      switchTable machine.state false = none ∧
      (machine.raiseEvent false).1 = true ∧ machine.isRaised false = false ∧
      (machine.raiseEvent false).2.isRaised false = true ∧
      (machine.raiseEvent false).2.desiredState = none := by
  have strays : (callSystem (fun _ => true) false switchTable).step
      (Machine.init false switchTable) (.nextStateAsync false) =
        some ((Machine.init false switchTable).nextStateAsync false) := rfl
  exact ⟨_, .step .initial trivial strays, by decide⟩

end Dls2.StateMachine
