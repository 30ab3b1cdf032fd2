import Dls2.Commands.CallCommand
import Dls2.Commands.LevelWatcher

/-!
# How long a command stays disabled

`disableCommand` and `enableCommand` only deactivate and activate a command; whether it is
enabled is not touched. A pass of the level watcher decides again, from the enabled bit
and the level.
-/

namespace Dls2.Commands

open Dls2.Assoc Dls2.Transition

/-- What goes on in a manager while commands are only called. A message is received by the
reader of a command; a local call has the commands that are discovered. -/
inductive Execution where
  | changeLevel (level : UInt32)
  | verifyLevel
  | receive (name : String) (msg : CommandCall)
  | callCommand (discovered : List (String × String)) (name : String) (args : List String)
      (owner : String)

namespace CommandManager

/-- `none` where the source dereferences an end iterator. -/
def execute (manager : CommandManager) : Execution → Option CommandManager
  | .changeLevel level => some (manager.changeLevel level)
  | .verifyLevel => some manager.verifyLevel
  | .receive name msg => do
    let cmd ← manager.getCommand name
    let called ← cmd.receive manager msg
    return called.manager
  | .callCommand discovered name args owner => do
    let (_, called, _) ← manager.callCommand discovered name args owner
    return called.manager

def executions (start : CommandManager) : System CommandManager Execution where
  initial := start
  step := execute

/-- No command of the name is active. -/
def Inactive (name : String) (manager : CommandManager) : Prop :=
  ∀ cmd ∈ manager.getCommand name, cmd.active = false

/-- A pass leaves the command of the name active only at a level that it is available at. -/
def FitsAfterPass (name : String) (manager : CommandManager) (execution : Execution) : Prop :=
  execution = .verifyLevel → ∀ next ∈ manager.execute execution, ∀ cmd ∈ next.getCommand name,
    cmd.active = true → cmd.testLevel next.level = true

/-- What `disableCommand` and `enableCommand` are for: after the one the command is inactive
whatever goes on, and after the other it is not active where it is not available, once a
pass has completed. -/
def DisablingLasts (manager : CommandManager) (name : String) (executed : List Execution) :
    Prop :=
  (executions (manager.disableCommand name)).AlwaysFrom (Inactive name)
      (manager.disableCommand name) executed ∧
    (executions (manager.enableCommand name)).AdmitsFrom (FitsAfterPass name)
      (manager.enableCommand name) executed

/-- The command of the name is not left active while it is disabled. -/
def EnabledIfActive (name : String) (manager : CommandManager) : Prop :=
  ∀ cmd ∈ manager.getCommand name, cmd.active = true → cmd.enabled = true

/-- A pass does not find the command enabled and available. -/
def PassesBy (name : String) (manager : CommandManager) : Execution → Prop
  | .verifyLevel => ∀ cmd ∈ manager.getCommand name,
      cmd.enabled = true → cmd.testLevel manager.level = false
  | _ => True

/-- Nothing but the level has changed. -/
def OnlyLevel (manager next : CommandManager) : Prop := ∃ level, next = manager.changeLevel level

namespace OnlyLevel

variable {manager next last : CommandManager}

theorem refl (manager : CommandManager) : OnlyLevel manager manager := ⟨manager.level, rfl⟩

theorem changeLevel (changed : OnlyLevel manager next) (level : UInt32) :
    OnlyLevel manager (next.changeLevel level) := by
  obtain ⟨_, rfl⟩ := changed
  exact ⟨level, rfl⟩

theorem getCommand (changed : OnlyLevel manager next) (name : String) :
    next.getCommand name = manager.getCommand name := by
  obtain ⟨_, rfl⟩ := changed
  rfl

/-- A callback that may be followed by a change of the level. -/
theorem nextLevel {cmd : Command} {result : Bool} {runs : List (List String)}
    {outcome : Bool × Called} (agreed : Bool)
    (taken : (if agreed = true then
        (cmd.nextLevel manager).map fun next => (result, ⟨next, runs⟩)
      else some (result, ⟨manager, runs⟩)) = some outcome) :
    OnlyLevel manager outcome.2.manager := by
  split at taken
  · obtain ⟨next, entered, rfl⟩ := Option.map_eq_some_iff.mp taken
    obtain ⟨level, _, rfl⟩ := Option.map_eq_some_iff.mp entered
    exact ⟨level.toUInt32, rfl⟩
  · obtain rfl := Option.some.inj taken
    exact refl manager

theorem callWith {cmd : Command} {args : List String} {outcome : Bool × Called}
    (taken : cmd.callWith manager args = some outcome) :
    OnlyLevel manager outcome.2.manager := by
  unfold Command.callWith at taken
  split at taken
  · split at taken
    · obtain rfl := Option.some.inj taken
      exact refl manager
    · exact nextLevel _ taken
  · obtain rfl := Option.some.inj taken
    exact refl manager

theorem call {cmd : Command} {outcome : Bool × Called}
    (taken : cmd.call manager = some outcome) : OnlyLevel manager outcome.2.manager := by
  unfold Command.call at taken
  split at taken
  · obtain rfl := Option.some.inj taken
    exact refl manager
  · exact nextLevel _ taken

theorem receive {cmd : Command} {msg : CommandCall} {called : Called}
    (taken : cmd.receive manager msg = some called) : OnlyLevel manager called.manager := by
  unfold Command.receive at taken
  split at taken
  · obtain rfl := Option.some.inj taken
    exact refl manager
  · split at taken
    · obtain rfl := Option.some.inj taken
      exact refl manager
    · split at taken
      · obtain ⟨outcome, answered, rfl⟩ := Option.map_eq_some_iff.mp taken
        exact callWith answered
      · obtain ⟨outcome, answered, rfl⟩ := Option.map_eq_some_iff.mp taken
        exact call answered

theorem callOwn {name : String} {args : List String} {called : Called}
    (taken : manager.callOwn name args = some called) : OnlyLevel manager called.manager := by
  simp only [CommandManager.callOwn, Option.bind_eq_bind, Option.bind_eq_some_iff] at taken
  obtain ⟨cmd, _, outcome, answered, next, _, returned⟩ := taken
  obtain rfl := Option.some.inj returned
  exact (callWith answered).changeLevel next.toUInt32

theorem callCommand {discovered : List (String × String)} {name owner : String}
    {args : List String} {outcome : Nat × Called × Option CommandCall}
    (taken : manager.callCommand discovered name args owner = some outcome) :
    OnlyLevel manager outcome.2.1.manager := by
  unfold CommandManager.callCommand at taken
  split at taken
  · split at taken
    · obtain ⟨called, own, rfl⟩ := Option.map_eq_some_iff.mp taken
      exact callOwn own
    · obtain rfl := Option.some.inj taken
      exact refl manager
  · obtain rfl := Option.some.inj taken
    exact refl manager

theorem valid {owner : String} (changed : OnlyLevel manager next) (valid : Valid owner manager) :
    Valid owner next := by
  obtain ⟨_, rfl⟩ := changed
  exact ⟨valid.owned, valid.registered⟩

end OnlyLevel

/-- Whatever goes on beside passes, the commands stay as they are. -/
theorem onlyLevel_of_execute {manager next : CommandManager} {execution : Execution}
    (taken : manager.execute execution = some next) (other : execution ≠ .verifyLevel) :
    OnlyLevel manager next := by
  cases execution with
  | changeLevel level =>
    obtain rfl := Option.some.inj taken
    exact ⟨level, rfl⟩
  | verifyLevel => exact absurd rfl other
  | receive name msg =>
    simp only [execute, Option.bind_eq_bind, Option.bind_eq_some_iff] at taken
    obtain ⟨cmd, _, called, received, returned⟩ := taken
    obtain rfl := Option.some.inj returned
    exact .receive received
  | callCommand discovered name args owner =>
    simp only [execute, Option.bind_eq_bind, Option.bind_eq_some_iff] at taken
    obtain ⟨⟨_, called, _⟩, answered, returned⟩ := taken
    obtain rfl := Option.some.inj returned
    exact .callCommand answered

section Passes

variable {owner name : String} {manager next : CommandManager} {execution : Execution}

/-- A manager stays valid whatever goes on. -/
theorem Valid.execute (valid : Valid owner manager)
    (taken : manager.execute execution = some next) : Valid owner next := by
  by_cases pass : execution = .verifyLevel
  · subst pass
    have step : manager.step .verifyLevel = some next := taken
    exact valid.step step
  · exact (onlyLevel_of_execute taken pass).valid valid

theorem getCommand_verifyLevel (manager : CommandManager) (name : String) :
    manager.verifyLevel.getCommand name =
      (manager.getCommand name).map (Command.verifyLevel manager.level) := by
  simp [getCommand, CommandManager.verifyLevel]

theorem getCommand_onCommand (manager : CommandManager) (name : String)
    (change : Command → Command) :
    (manager.onCommand name change).getCommand name = (manager.getCommand name).map change := by
  simp [getCommand, onCommand]

/-- `disableCommand` deactivates a command unless it is disabled already. -/
theorem Valid.inactive_disableCommand (valid : Valid owner manager) :
    Inactive name (manager.disableCommand name) ↔ EnabledIfActive name manager := by
  unfold Inactive EnabledIfActive
  rw [disableCommand, getCommand_onCommand]
  cases entry : manager.getCommand name with
  | none => simp
  | some cmd =>
    have linked := (valid.registered name cmd entry).linked
    simp only [Option.map_some, Option.mem_some_iff, forall_eq', linked.deactivate_eq]
    cases enabled : cmd.enabled <;> simp

/-- A pass leaves an inactive command inactive exactly if it passes it by. -/
theorem Valid.passesBy_iff (valid : Valid owner manager) (inactive : Inactive name manager) :
    PassesBy name manager execution ↔
      ∀ next ∈ manager.execute execution, Inactive name next := by
  by_cases pass : execution = .verifyLevel
  · subst pass
    simp only [PassesBy, CommandManager.execute, Option.mem_some_iff, forall_eq', Inactive,
      getCommand_verifyLevel]
    cases entry : manager.getCommand name with
    | none => simp
    | some cmd =>
      have linked := (valid.registered name cmd entry).linked
      have asleep := inactive cmd entry
      simp only [Option.map_some, Option.mem_some_iff, forall_eq', linked.verifyLevel_eq]
      cases enabled : cmd.enabled <;> simp [asleep]
  · refine iff_of_true ?_ fun next taken cmd entry => ?_
    · cases execution with
      | verifyLevel => exact absurd rfl pass
      | _ => trivial
    · rw [(onlyLevel_of_execute taken pass).getCommand name] at entry
      exact inactive cmd entry

/-- A command that is not active while it is disabled stays so. -/
theorem Valid.enabledIfActive_execute (valid : Valid owner manager)
    (enabled : EnabledIfActive name manager) (taken : manager.execute execution = some next) :
    EnabledIfActive name next := by
  by_cases pass : execution = .verifyLevel
  · subst pass
    obtain rfl := Option.some.inj taken
    intro after found
    rw [getCommand_verifyLevel] at found
    obtain ⟨cmd, entry, rfl⟩ := Option.map_eq_some_iff.mp found
    have linked := (valid.registered name cmd entry).linked
    have kept := enabled cmd entry
    rw [linked.verifyLevel_eq]
    split
    · exact fun _ => ‹cmd.enabled = true›
    · exact kept
  · intro cmd entry
    rw [(onlyLevel_of_execute taken pass).getCommand name] at entry
    exact enabled cmd entry

theorem Valid.enabledIfActive_enableCommand (valid : Valid owner manager)
    (enabled : EnabledIfActive name manager) :
    EnabledIfActive name (manager.enableCommand name) := by
  intro after found
  rw [enableCommand, getCommand_onCommand] at found
  obtain ⟨cmd, entry, rfl⟩ := Option.map_eq_some_iff.mp found
  exact NoneLeftActive.activate (valid.registered name cmd entry).linked (enabled cmd entry)

/-- A pass deactivates such a command where it is not available. -/
theorem Valid.fitsAfterPass (valid : Valid owner manager)
    (enabled : EnabledIfActive name manager) (execution : Execution) :
    FitsAfterPass name manager execution := by
  rintro rfl next taken after found
  obtain rfl := Option.some.inj taken
  rw [getCommand_verifyLevel] at found
  obtain ⟨cmd, entry, rfl⟩ := Option.map_eq_some_iff.mp found
  have linked := (valid.registered name cmd entry).linked
  have settled := (linked.settled_verifyLevel_iff manager.level).mpr (enabled cmd entry)
  intro active
  rw [settled, Bool.and_eq_true] at active
  exact active.2

/-- `enableCommand` leaves no command active where it is not available. -/
theorem Valid.admitsFrom_fitsAfterPass (valid : Valid owner manager)
    (enabled : EnabledIfActive name manager) (start : CommandManager)
    (executed : List Execution) :
    (executions start).AdmitsFrom (FitsAfterPass name) manager executed := by
  refine (System.admitsFrom_congr
    (fun manager => Valid owner manager ∧ EnabledIfActive name manager) ?_ ?_ ⟨valid, enabled⟩
    executed).mpr (System.admitsFrom_true manager executed)
  · intro before execution after inv taken
    exact ⟨inv.1.execute taken, inv.1.enabledIfActive_execute inv.2 taken⟩
  · intro before execution inv
    exact iff_true_intro (inv.1.fitsAfterPass inv.2 execution)

end Passes

/-- `disableCommand` and `enableCommand` do what they are for exactly if the command is not
left active while it is disabled, and no later pass finds it enabled at a level that it is
available at. -/
theorem disablingLasts_iff {owner : String} {manager : CommandManager}
    (reachable : (system owner).Reachable manager) (name : String) (executed : List Execution) :
    DisablingLasts manager name executed ↔ EnabledIfActive name manager ∧
      (executions (manager.disableCommand name)).AdmitsFrom (PassesBy name)
        (manager.disableCommand name) executed := by
  have valid := Valid.of_reachable reachable
  have disabled : Valid owner (manager.disableCommand name) :=
    valid.onCommand fun _ registered => registered.deactivate
  have enabled : Valid owner (manager.enableCommand name) :=
    valid.onCommand fun _ registered => registered.activate
  have inactive : (executions (manager.disableCommand name)).AlwaysFrom (Inactive name)
      (manager.disableCommand name) executed ↔ _ :=
    System.alwaysFrom_iff_admitsFrom (Valid owner) Valid.execute Valid.passesBy_iff disabled
      executed
  rw [DisablingLasts, inactive, valid.inactive_disableCommand]
  constructor
  · rintro ⟨stays, _⟩
    exact stays
  · intro stays
    exact ⟨stays, enabled.admitsFrom_fitsAfterPass
      (valid.enabledIfActive_enableCommand stays.1) _ executed⟩

/-- A command that is not available at any level that is passed. -/
theorem disablingLasts_at_other_levels : ∃ manager, (system "robot").run
    [.addCommand "stand" 0 (fun _ => true) (AList.singleton 0 1) true] = some manager ∧
    DisablingLasts manager "stand" [.changeLevel 1, .verifyLevel, .changeLevel 2] := by
  have added : (system "robot").runFrom (new "robot")
      [.addCommand "stand" 0 (fun _ => true) (AList.singleton 0 1) true] = some _ := rfl
  have reachable := System.ReachableUnder.initial.replay added
  refine ⟨_, rfl, (disablingLasts_iff reachable "stand" _).mpr ⟨?_, ?_⟩⟩
  · rintro cmd entry -
    obtain rfl := Option.some.inj entry
    rfl
  · refine ⟨trivial, fun _ changed => ⟨?_, fun _ _ => ⟨trivial, fun _ _ => trivial⟩⟩⟩
    obtain rfl := Option.some.inj changed
    rintro cmd entry -
    obtain rfl := Option.some.inj entry
    decide

/-- The next pass activates a command that is available. -/
theorem disabling_ends_with_pass : ∃ manager, (system "robot").run
    [.addCommand "stand" 0 (fun _ => true) ∅ true] = some manager ∧
    ¬ DisablingLasts manager "stand" [.verifyLevel] := by
  refine ⟨_, rfl, fun lasts => ?_⟩
  have inactive := lasts.1 [.verifyLevel] (List.prefix_refl _) _ rfl
  exact absurd (inactive _ rfl) (by decide)

end CommandManager

end Dls2.Commands
