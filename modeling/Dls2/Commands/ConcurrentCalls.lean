import Mathlib.Logic.Function.Basic
import Dls2.Commands.NextLevel

/-!
# Two calls at the same time

Every command has a reader thread of its own. A call runs the callback, reads the
level of the manager, computes the next level and writes it, and nothing is held from
the read to the write. Two threads that run calls of one manager can therefore both
read the level before either writes, and one change of the level is lost.
-/

namespace Dls2.Commands

open Dls2.Transition

/-- The reader threads of two commands. -/
inductive Caller where
  | one
  | two
  deriving DecidableEq, Repr

namespace Caller

def other : Caller → Caller
  | one => two
  | two => one

@[simp] theorem other_other (caller : Caller) : caller.other.other = caller := by
  cases caller <;> rfl

@[simp] theorem other_ne (caller : Caller) : caller.other ≠ caller := by
  cases caller <;> decide

theorem eq_or_eq_other (caller someone : Caller) : someone = caller ∨ someone = caller.other := by
  cases caller <;> cases someone <;> decide

end Caller

/-- What a call does next. `pastEnd` is behind `getNextLevel` on a level without an
entry, where the source has no defined behaviour. -/
inductive CallPhase where
  | callback
  | read
  | compute (level : Int32)
  | write (next : Int32)
  | pastEnd
  | finished
  deriving DecidableEq, Repr

structure ConcurrentCalls where
  manager : CommandManager
  phase : Caller → CallPhase

/-- What the threads are called with: a command and the arguments that its reader has
parsed. -/
structure CallData where
  cmd : Command
  args : List String

namespace CallData

/-- The callback is run and returns `true`. -/
def Agrees (call : CallData) : Prop :=
  ∃ given, call.cmd.accepted call.args = some given ∧ call.cmd.f given = true

/-- From the level the transition set leads to the other one. -/
abbrev Leads (call : CallData) (level next : UInt32) : Prop := call.cmd.Leads level next

end CallData

namespace ConcurrentCalls

/-- The next step of one of the threads. -/
def step (calls : Caller → CallData) (state : ConcurrentCalls) (caller : Caller) :
    Option ConcurrentCalls :=
  let call := calls caller
  let enter (phase : CallPhase) : ConcurrentCalls :=
    { state with phase := Function.update state.phase caller phase }
  match state.phase caller with
  | .callback => some (enter
      (if (call.cmd.accepted call.args).any call.cmd.f then .read else .finished))
  | .read => some (enter (.compute (CommandHelper.getCurrentLevel state.manager)))
  | .compute level =>
    match call.cmd.getNextLevel level.toUInt32 with
    | some next => some (enter (.write next))
    | none => some (enter .pastEnd)
  | .write next => some
      { enter .finished with manager := CommandHelper.changeCommandLevel state.manager next }
  | .pastEnd => none
  | .finished => none

/-- Both calls start on one manager. -/
def system (calls : Caller → CallData) (manager : CommandManager) :
    System ConcurrentCalls Caller where
  initial := ⟨manager, fun _ => .callback⟩
  step := step calls

/-- The steps of one whole call after those of the other. -/
def sequential (caller : Caller) : List Caller :=
  List.replicate 4 caller ++ List.replicate 4 caller.other

/-- Nothing undefined has happened, and once both calls have finished, the level is one
that they also produce one after the other. -/
def Serial (calls : Caller → CallData) (manager : CommandManager) (state : ConcurrentCalls) :
    Prop :=
  (∀ caller, state.phase caller ≠ .pastEnd) ∧
  ((∀ caller, state.phase caller = .finished) → ∃ caller final,
    (system calls manager).run (sequential caller) = some final ∧
      final.manager.level = state.manager.level)

/-- The condition on a step. A level that was read has an entry, if only the wildcard
matches it. A level that is written is still the one to go to from the present level, or
the other command stays there. -/
def Timely (calls : Caller → CallData) (state : ConcurrentCalls) (caller : Caller) : Prop :=
  match state.phase caller with
  | .compute level => ¬ (calls caller).cmd.transitionSet.Strays level.toUInt32
  | .write next => (calls caller).Leads state.manager.level next.toUInt32 ∨
      (calls caller.other).Leads next.toUInt32 next.toUInt32
  | _ => True

variable {calls : Caller → CallData} {manager : CommandManager} {state next : ConcurrentCalls}
  {caller : Caller}

/-- A whole call takes four steps, unless the level has no entry. -/
theorem runFrom_call (agrees : (calls caller).Agrees) (fresh : state.phase caller = .callback) :
    (system calls manager).runFrom state (List.replicate 4 caller) =
      ((calls caller).cmd.getNextLevel state.manager.level).map fun next =>
        ⟨CommandHelper.changeCommandLevel state.manager next,
          Function.update state.phase caller .finished⟩ := by
  obtain ⟨given, accepted, true⟩ := agrees
  have level : (CommandHelper.getCurrentLevel state.manager).toUInt32 = state.manager.level :=
    UInt32.toUInt32_toInt32 _
  simp only [List.replicate, System.runFrom_cons, System.runFrom_nil, system, step, fresh, accepted,
    Option.any_some, true, if_true, Option.bind_some, Function.update_self, Function.update_idem,
    level]
  cases (calls caller).cmd.getNextLevel state.manager.level with
  | none => simp
  | some next => simp

/-- What the calls produce one after the other. -/
theorem run_sequential_iff (agrees : ∀ caller, (calls caller).Agrees) {level : UInt32} :
    (∃ final, (system calls manager).run (sequential caller) = some final ∧
      final.manager.level = level) ↔
    ∃ middle, (calls caller).Leads manager.level middle ∧
      (calls caller.other).Leads middle level := by
  unfold System.run sequential
  rw [System.runFrom_append, runFrom_call (agrees caller) rfl]
  change (∃ final, Option.bind (((calls caller).cmd.getNextLevel manager.level).map _) _ =
    some final ∧ _) ↔ _
  simp only [CallData.Leads, Command.Leads]
  cases (calls caller).cmd.getNextLevel manager.level with
  | none => simp
  | some next =>
    have fresh : Function.update (fun _ => CallPhase.callback) caller .finished caller.other =
        .callback :=
      Function.update_of_ne caller.other_ne _ _
    rw [Option.map_some, Option.bind_some, runFrom_call (agrees caller.other) fresh]
    simp [Option.map_eq_some_iff, CommandHelper.changeCommandLevel]

/-! ### What one step does -/

/-- A step enters a phase, or writes the level and finishes the call. -/
theorem step_cases (agrees : (calls caller).Agrees) (taken : step calls state caller = some next) :
    (∃ phase, next = { state with phase := Function.update state.phase caller phase } ∧
      ((state.phase caller = .callback ∧ phase = .read) ∨
        (state.phase caller = .read ∧
          phase = .compute (CommandHelper.getCurrentLevel state.manager)) ∨
        ∃ level, state.phase caller = .compute level ∧
          match (calls caller).cmd.getNextLevel level.toUInt32 with
          | some target => phase = .write target
          | none => phase = .pastEnd)) ∨
    ∃ target, state.phase caller = .write target ∧
      next = ⟨CommandHelper.changeCommandLevel state.manager target,
        Function.update state.phase caller .finished⟩ := by
  obtain ⟨given, accepted, true⟩ := agrees
  unfold step at taken
  cases phase : state.phase caller with
  | callback =>
    simp only [phase, accepted, Option.any_some, true, if_true, Option.some.injEq] at taken
    exact .inl ⟨_, taken.symm, .inl ⟨rfl, rfl⟩⟩
  | read =>
    simp only [phase, Option.some.injEq] at taken
    exact .inl ⟨_, taken.symm, .inr (.inl ⟨rfl, rfl⟩)⟩
  | compute level =>
    simp only [phase] at taken
    left
    cases found : (calls caller).cmd.getNextLevel level.toUInt32 with
    | none =>
      simp only [found, Option.some.injEq] at taken
      exact ⟨_, taken.symm, .inr (.inr ⟨level, rfl, by simp [found]⟩)⟩
    | some target =>
      simp only [found, Option.some.injEq] at taken
      exact ⟨_, taken.symm, .inr (.inr ⟨level, rfl, by simp [found]⟩)⟩
  | write target =>
    simp only [phase, Option.some.injEq] at taken
    exact .inr ⟨target, rfl, taken.symm⟩
  | pastEnd => simp [phase] at taken
  | finished => simp [phase] at taken

/-! ### The invariant -/

/-- What is known of the two calls while nothing has gone wrong. -/
structure Inv (calls : Caller → CallData) (start : UInt32) (state : ConcurrentCalls) : Prop where
  defined : ∀ caller, state.phase caller ≠ .pastEnd
  unchanged : (∀ caller, state.phase caller ≠ .finished) → state.manager.level = start
  entered : ∀ caller, state.phase caller = .finished → state.phase caller.other ≠ .finished →
    (calls caller).Leads start state.manager.level
  recent : ∀ caller level, state.phase caller = .compute level →
    level.toUInt32 = start ∨ level.toUInt32 = state.manager.level
  computed : ∀ caller target, state.phase caller = .write target →
    (calls caller).Leads start target.toUInt32 ∨
      (calls caller).Leads state.manager.level target.toUInt32
  serial : (∀ caller, state.phase caller = .finished) → ∃ caller middle,
    (calls caller).Leads start middle ∧ (calls caller.other).Leads middle state.manager.level

namespace Inv

variable {start : UInt32}

theorem initial (calls : Caller → CallData) (manager : CommandManager) :
    Inv calls manager.level (system calls manager).initial where
  defined := fun _ undefined => nomatch undefined
  unchanged := fun _ => rfl
  entered := fun _ finished => nomatch finished
  recent := fun _ _ computes => nomatch computes
  computed := fun _ _ writes => nomatch writes
  serial := fun finished => nomatch finished .one

/-- A step that writes nothing. -/
theorem enter (inv : Inv calls start state) {phase : CallPhase}
    (running : state.phase caller ≠ .finished)
    (goesOn : phase ≠ .pastEnd ∧ phase ≠ .finished)
    (recent : ∀ level, phase = .compute level →
      level.toUInt32 = start ∨ level.toUInt32 = state.manager.level)
    (computed : ∀ target, phase = .write target →
      (calls caller).Leads start target.toUInt32 ∨
        (calls caller).Leads state.manager.level target.toUInt32) :
    Inv calls start { state with phase := Function.update state.phase caller phase } := by
  have otherPhase : Function.update state.phase caller phase caller.other =
      state.phase caller.other := Function.update_of_ne caller.other_ne _ _
  constructor
  · intro someone
    rcases caller.eq_or_eq_other someone with rfl | rfl
    · simpa using goesOn.1
    · simpa using inv.defined caller.other
  · intro none
    apply inv.unchanged
    intro someone
    rcases caller.eq_or_eq_other someone with rfl | rfl
    · exact running
    · simpa using none caller.other
  · intro someone finished others
    rcases caller.eq_or_eq_other someone with rfl | rfl
    · exact absurd (by simpa using finished) goesOn.2
    · exact inv.entered caller.other (by simpa using finished) (by simpa using running)
  · intro someone level computes
    rcases caller.eq_or_eq_other someone with rfl | rfl
    · exact recent level (by simpa using computes)
    · exact inv.recent caller.other level (by simpa using computes)
  · intro someone target writes
    rcases caller.eq_or_eq_other someone with rfl | rfl
    · exact computed target (by simpa using writes)
    · exact inv.computed caller.other target (by simpa using writes)
  · intro finished
    exact absurd (by simpa using finished caller) goesOn.2

/-- The level that the first call to finish has left. -/
theorem leads_of_unfinished (inv : Inv calls start state) {target : Int32}
    (writes : state.phase caller = .write target)
    (unfinished : state.phase caller.other ≠ .finished) :
    state.manager.level = start ∧ (calls caller).Leads start target.toUInt32 := by
  have level : state.manager.level = start := by
    apply inv.unchanged
    intro someone
    rcases caller.eq_or_eq_other someone with rfl | rfl
    · simp [writes]
    · exact unfinished
  refine ⟨level, ?_⟩
  have leads := inv.computed caller target writes
  rwa [level, or_self] at leads

/-- The step that writes the level, while the other call has not done so. -/
theorem writeFirst (inv : Inv calls start state) {target : Int32}
    (writes : state.phase caller = .write target)
    (unfinished : state.phase caller.other ≠ .finished) :
    Inv calls start ⟨CommandHelper.changeCommandLevel state.manager target,
      Function.update state.phase caller .finished⟩ := by
  obtain ⟨level, leads⟩ := inv.leads_of_unfinished writes unfinished
  constructor
  · intro someone
    rcases caller.eq_or_eq_other someone with rfl | rfl
    · simp
    · simpa using inv.defined caller.other
  · intro none
    exact absurd (by simp) (none caller)
  · intro someone finished others
    rcases caller.eq_or_eq_other someone with rfl | rfl
    · exact leads
    · exact absurd (by simpa using finished) unfinished
  · intro someone read computes
    rcases caller.eq_or_eq_other someone with rfl | rfl
    · simp at computes
    · have before := inv.recent caller.other read (by simpa using computes)
      rw [level, or_self] at before
      exact .inl before
  · intro someone next computed
    rcases caller.eq_or_eq_other someone with rfl | rfl
    · simp at computed
    · have before := inv.computed caller.other next (by simpa using computed)
      rw [level, or_self] at before
      exact .inl before
  · intro finished
    exact absurd (by simpa using finished caller.other) unfinished

/-- The step that writes the level after the other call has, from a level that is still
good. -/
theorem writeLast (inv : Inv calls start state) {target : Int32}
    (writes : state.phase caller = .write target)
    (finished : state.phase caller.other = .finished)
    (timely : (calls caller).Leads state.manager.level target.toUInt32 ∨
      (calls caller.other).Leads target.toUInt32 target.toUInt32) :
    ∃ caller middle, (calls caller).Leads start middle ∧
      (calls caller.other).Leads middle target.toUInt32 := by
  have before : (calls caller.other).Leads start state.manager.level :=
    inv.entered caller.other finished (by simp [writes])
  have after (leads : (calls caller).Leads state.manager.level target.toUInt32) :
      ∃ caller middle, (calls caller).Leads start middle ∧
        (calls caller.other).Leads middle target.toUInt32 :=
    ⟨caller.other, _, before, by rwa [Caller.other_other]⟩
  rcases inv.computed caller target writes with fromStart | fromPresent
  · rcases timely with again | stays
    · exact after again
    · exact ⟨caller, _, fromStart, stays⟩
  · exact after fromPresent

/-- Both calls have finished at a level that they also produce one after the other. -/
theorem writeBoth {target : Int32} (finished : state.phase caller.other = .finished)
    (serial : ∃ caller middle, (calls caller).Leads start middle ∧
      (calls caller.other).Leads middle target.toUInt32) :
    Inv calls start ⟨CommandHelper.changeCommandLevel state.manager target,
      Function.update state.phase caller .finished⟩ := by
  have both : ∀ someone, Function.update state.phase caller .finished someone = .finished := by
    intro someone
    rcases caller.eq_or_eq_other someone with rfl | rfl
    · simp
    · simpa using finished
  constructor
  · intro someone
    simp [both]
  · intro none
    exact absurd (both caller) (none caller)
  · intro someone _ others
    exact absurd (both _) others
  · intro someone level computes
    simp [both] at computes
  · intro someone next computed
    simp [both] at computed
  · intro _
    exact serial

theorem step (inv : Inv calls start state) (agrees : ∀ caller, (calls caller).Agrees)
    (available : ∀ caller, (calls caller).cmd.testLevel start = true)
    (availableAfter : ∀ caller level, (calls caller.other).Leads start level →
      (calls caller).cmd.testLevel level = true)
    (taken : ConcurrentCalls.step calls state caller = some next)
    (timely : Timely calls state caller) : Inv calls start next := by
  obtain ⟨phase, rfl, ⟨was, rfl⟩ | ⟨was, rfl⟩ | ⟨level, was, goes⟩⟩ | ⟨target, writes, rfl⟩ :=
    step_cases (agrees caller) taken
  · exact inv.enter (by simp [was]) (by simp) (by simp) (by simp)
  · refine inv.enter (by simp [was]) (by simp) ?_ (by simp)
    rintro level ⟨⟩
    exact .inr (UInt32.toUInt32_toInt32 _)
  · have kept : ¬ (calls caller).cmd.transitionSet.Strays level.toUInt32 := by
      simpa [Timely, was] using timely
    have here : (calls caller).cmd.testLevel level.toUInt32 = true := by
      rcases inv.recent caller level was with same | same
      · rw [same]
        exact available caller
      · by_cases finished : state.phase caller.other = .finished
        · rw [same]
          exact availableAfter caller _ (inv.entered caller.other finished (by simp [was]))
        · rw [same, inv.unchanged]
          · exact available caller
          · intro someone
            rcases caller.eq_or_eq_other someone with rfl | rfl
            · simp [was]
            · exact finished
    obtain ⟨target, found⟩ :=
      Option.isSome_iff_exists.mp ((Command.isSome_getNextLevel_iff here).mpr kept)
    rw [found] at goes
    dsimp only at goes
    subst goes
    refine inv.enter (by simp [was]) (by simp) (by simp) ?_
    rintro target ⟨⟩
    have leads : (calls caller).Leads level.toUInt32 target.toUInt32 := by
      simp [CallData.Leads, Command.Leads, found]
    rcases inv.recent caller level was with same | same
    · exact .inl (same ▸ leads)
    · exact .inr (same ▸ leads)
  · by_cases finished : state.phase caller.other = .finished
    · have timely : (calls caller).Leads state.manager.level target.toUInt32 ∨
          (calls caller.other).Leads target.toUInt32 target.toUInt32 := by
        simpa [Timely, writes] using timely
      exact writeBoth finished (inv.writeLast writes finished timely)
    · exact inv.writeFirst writes finished

end Inv

/-- Something undefined has happened, or the level is not what the calls produce one
after the other. -/
def Lost (calls : Caller → CallData) (start : UInt32) (state : ConcurrentCalls) : Prop :=
  (∃ caller, state.phase caller = .pastEnd) ∨
  ((∀ caller, state.phase caller = .finished) ∧ ¬ ∃ caller middle,
    (calls caller).Leads start middle ∧ (calls caller.other).Leads middle state.manager.level)

section Lost

variable {start : UInt32}

/-- What is lost stays lost: no step leaves the past end, and none follows the last
write. -/
theorem Lost.step (lost : Lost calls start state) (agrees : ∀ caller, (calls caller).Agrees)
    (taken : ConcurrentCalls.step calls state caller = some next) : Lost calls start next := by
  rcases lost with ⟨undefined, past⟩ | ⟨finished, -⟩
  · rcases caller.eq_or_eq_other undefined with rfl | rfl
    · simp [ConcurrentCalls.step, past] at taken
    · refine .inl ⟨caller.other, ?_⟩
      obtain ⟨phase, rfl, -⟩ | ⟨target, -, rfl⟩ := step_cases (agrees caller) taken
      · simpa using past
      · simpa using past
  · simp [ConcurrentCalls.step, finished caller] at taken

/-- An untimely step loses. -/
theorem Inv.lost (inv : Inv calls start state) (agrees : (calls caller).Agrees)
    (taken : ConcurrentCalls.step calls state caller = some next)
    (untimely : ¬ Timely calls state caller) : Lost calls start next := by
  obtain ⟨phase, rfl, ⟨was, rfl⟩ | ⟨was, rfl⟩ | ⟨level, was, goes⟩⟩ | ⟨target, writes, rfl⟩ :=
    step_cases agrees taken
  · exact absurd (by simp [Timely, was]) untimely
  · exact absurd (by simp [Timely, was]) untimely
  · have strays : (calls caller).cmd.transitionSet.Strays level.toUInt32 := by
      simpa [Timely, was] using untimely
    have none : (calls caller).cmd.getNextLevel level.toUInt32 = none := strays.getNextLevel
    rw [none] at goes
    dsimp only at goes
    subst goes
    exact .inl ⟨caller, by simp⟩
  · have stale : ¬ (calls caller).Leads state.manager.level target.toUInt32 ∧
        ¬ (calls caller.other).Leads target.toUInt32 target.toUInt32 := by
      simpa [Timely, writes] using untimely
    by_cases finished : state.phase caller.other = .finished
    · refine .inr ⟨fun someone => ?_, ?_⟩
      · rcases caller.eq_or_eq_other someone with rfl | rfl
        · simp
        · simpa using finished
      · rintro ⟨leader, middle, first, last⟩
        have fromStart := (inv.computed caller target writes).resolve_right stale.1
        rcases caller.eq_or_eq_other leader with rfl | rfl
        · -- the other call would have to stay at the level that is written
          obtain rfl := Option.some.inj (first.symm.trans fromStart)
          exact stale.2 last
        · have entered := inv.entered caller.other finished (by simp [writes])
          obtain rfl := Option.some.inj (first.symm.trans entered)
          rw [Caller.other_other] at last
          exact stale.1 last
    · obtain ⟨level, leads⟩ := inv.leads_of_unfinished writes finished
      exact absurd (level ▸ leads) stale.1

end Lost

theorem Inv.toSerial (inv : Inv calls manager.level state)
    (agrees : ∀ caller, (calls caller).Agrees) : Serial calls manager state := by
  refine ⟨inv.defined, fun finished => ?_⟩
  obtain ⟨leader, produced⟩ := inv.serial finished
  exact ⟨leader, (run_sequential_iff agrees).mpr produced⟩

theorem Lost.not_serial (lost : Lost calls manager.level state)
    (agrees : ∀ caller, (calls caller).Agrees) : ¬ Serial calls manager state := by
  rintro ⟨defined, serial⟩
  rcases lost with ⟨undefined, past⟩ | ⟨finished, never⟩
  · exact defined undefined past
  · obtain ⟨leader, produced⟩ := serial finished
    exact never ⟨leader, (run_sequential_iff agrees).mp produced⟩

/-- From a state where nothing has gone wrong, a run ends in one if and only if its steps
are timely. -/
theorem Inv.serial_iff (agrees : ∀ caller, (calls caller).Agrees)
    (available : ∀ caller, (calls caller).cmd.testLevel manager.level = true)
    (availableAfter : ∀ caller level, (calls caller.other).Leads manager.level level →
      (calls caller).cmd.testLevel level = true)
    {schedule : List Caller} {final : ConcurrentCalls} (inv : Inv calls manager.level state)
    (ran : (system calls manager).runFrom state schedule = some final) :
    Serial calls manager final ↔
      (system calls manager).AdmitsFrom (Timely calls) state schedule := by
  induction schedule generalizing state with
  | nil =>
    obtain rfl := Option.some.inj ran
    exact ⟨fun _ => trivial, fun _ => inv.toSerial agrees⟩
  | cons caller rest ih =>
    obtain ⟨next, taken, later⟩ := System.runFrom_cons_iff.mp ran
    by_cases timely : Timely calls state caller
    · rw [ih (inv.step agrees available availableAfter taken timely) later]
      constructor
      · intro admitted
        refine ⟨timely, fun other reaches => ?_⟩
        obtain rfl := Option.some.inj (taken.symm.trans reaches)
        exact admitted
      · intro admitted
        exact admitted.2 next taken
    · have lost : Lost calls manager.level final := System.runFrom_invariant later _
        (inv.lost (agrees caller) taken timely) fun lost taken => lost.step agrees taken
      exact iff_of_false (lost.not_serial agrees) fun admitted => timely admitted.1

/-- Two commands, each available at the level at which both calls start and at the level
to which the other leads: a run has gone well if and only if every step was timely. -/
theorem serial_iff_timely (calls : Caller → CallData) (manager : CommandManager)
    (agrees : ∀ caller, (calls caller).Agrees)
    (available : ∀ caller, (calls caller).cmd.testLevel manager.level = true)
    (availableAfter : ∀ caller level, (calls caller.other).Leads manager.level level →
      (calls caller).cmd.testLevel level = true)
    (schedule : List Caller) (ran : (system calls manager).run schedule = some state) :
    Serial calls manager state ↔ (system calls manager).AdmitsFrom (Timely calls)
      (system calls manager).initial schedule :=
  (Inv.initial calls manager).serial_iff agrees available availableAfter ran

/-- Two commands of which each leads from level 0 to a level of its own, and from that of
the other to level 3. -/
def standing : Caller → CallData
  | .one => ⟨.commandWithoutArgs "walk" "app" (fun _ => true)
      ((AList.singleton 0 1).insert 2 3) true, []⟩
  | .two => ⟨.commandWithoutArgs "trot" "app" (fun _ => true)
      ((AList.singleton 0 2).insert 1 3) true, []⟩

theorem standing_agrees (caller : Caller) : (standing caller).Agrees := by
  cases caller <;> exact ⟨[], rfl, rfl⟩

theorem standing_available (caller : Caller) :
    (standing caller).cmd.testLevel (CommandManager.new "app").level = true := by
  cases caller <;> rfl

theorem standing_availableAfter (caller : Caller) (level : UInt32)
    (leads : (standing caller.other).Leads (CommandManager.new "app").level level) :
    (standing caller).cmd.testLevel level = true := by
  cases caller <;> cases leads <;> rfl

/-- One call after the other. -/
theorem serial_in_sequence : ∃ state, (system standing (.new "app")).run
    [.one, .one, .one, .one, .two, .two, .two, .two] = some state ∧
      Serial standing (.new "app") state := by
  refine ⟨_, rfl, (serial_iff_timely standing (.new "app") standing_agrees standing_available
    standing_availableAfter [.one, .one, .one, .one, .two, .two, .two, .two] rfl).mpr ?_⟩
  refine ⟨trivial, ?_⟩
  rintro _ ⟨⟩
  refine ⟨trivial, ?_⟩
  rintro _ ⟨⟩
  refine ⟨show ¬ (standing .one).cmd.transitionSet.Strays 0 by decide, ?_⟩
  rintro _ ⟨⟩
  refine ⟨.inl (show (standing .one).Leads 0 1 from rfl), ?_⟩
  rintro _ ⟨⟩
  refine ⟨trivial, ?_⟩
  rintro _ ⟨⟩
  refine ⟨trivial, ?_⟩
  rintro _ ⟨⟩
  refine ⟨show ¬ (standing .two).cmd.transitionSet.Strays 1 by decide, ?_⟩
  rintro _ ⟨⟩
  refine ⟨.inl (show (standing .two).Leads 1 3 from rfl), ?_⟩
  rintro _ ⟨⟩
  trivial

/-- When both calls read level 0 before either writes, the level ends at 2. -/
theorem level_lost : ∃ state, (∀ caller, (standing caller).Agrees) ∧
    (∀ caller, (standing caller).cmd.testLevel (CommandManager.new "app").level = true) ∧
    (∀ caller level, (standing caller.other).Leads (CommandManager.new "app").level level →
      (standing caller).cmd.testLevel level = true) ∧
    (system standing (.new "app")).run [.one, .one, .two, .two, .one, .one, .two, .two] =
      some state ∧
    ¬ Serial standing (.new "app") state := by
  refine ⟨_, standing_agrees, standing_available, standing_availableAfter, rfl, ?_⟩
  rintro ⟨-, serial⟩
  obtain ⟨leader, final, ran, level⟩ := serial (by rintro (_ | _) <;> rfl)
  cases leader <;> cases ran <;> exact absurd level (by decide)

end ConcurrentCalls

end Dls2.Commands
