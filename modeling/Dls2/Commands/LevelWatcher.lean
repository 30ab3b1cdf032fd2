import Dls2.Commands.CommandManager
import Mathlib.Data.Set.Basic

/-!
# What a pass of the level watcher establishes

`deactivate` does nothing to a disabled command. A command that is disabled while it
is active therefore keeps its reader, whatever its transition set says, until it is
enabled again. `App::activation` disables commands in exactly this way and then
wakes the level watcher.
-/

namespace Dls2.Commands

open Dls2.Assoc Dls2.Transition

namespace CommandManager

/-- Each command is active if and only if it is enabled and available at the level. -/
def AllSettled (manager : CommandManager) : Prop :=
  AllValues (fun _ cmd => cmd.Settled manager.level) manager.commands

/-- No command is active while it is disabled. -/
def NoneLeftActive (manager : CommandManager) : Prop :=
  AllValues (fun _ cmd => cmd.active = true → cmd.enabled = true) manager.commands

/-- A `Command` is only disabled while it is inactive. -/
def DisablesInactive (manager : CommandManager) : ManagerLabel → Prop
  | .setDisabled name =>
    ∀ cmd ∈ manager.getCommand name, cmd.commandClass = .command → cmd.active = false
  | _ => True

instance (manager : CommandManager) (label : ManagerLabel) :
    Decidable (manager.DisablesInactive label) := by
  unfold DisablesInactive
  split <;> infer_instance

variable {owner : String} {manager next : CommandManager}

/-- A pass settles all commands exactly when none is disabled and still active. -/
theorem Valid.settled_verifyLevel_iff (valid : Valid owner manager) :
    manager.verifyLevel.AllSettled ↔ manager.NoneLeftActive := by
  unfold AllSettled verifyLevel NoneLeftActive
  rw [allValues_mapValues_iff]
  constructor
  · intro settled name cmd entry
    apply ((valid.registered name cmd entry).linked.settled_verifyLevel_iff manager.level).mp
    exact settled name cmd entry
  · intro none name cmd entry
    apply ((valid.registered name cmd entry).linked.settled_verifyLevel_iff manager.level).mpr
    exact none name cmd entry

namespace NoneLeftActive

theorem activate {cmd : Command} (linked : cmd.Linked)
    (enabled : cmd.active = true → cmd.enabled = true) :
    cmd.activate.active = true → cmd.activate.enabled = true := by
  rw [linked.activate_eq]
  split
  · intro _
    assumption
  · exact enabled

theorem deactivate {cmd : Command} (linked : cmd.Linked)
    (enabled : cmd.active = true → cmd.enabled = true) :
    cmd.deactivate.active = true → cmd.deactivate.enabled = true := by
  rw [linked.deactivate_eq]
  split
  · intro active
    cases active
  · exact enabled

theorem setDisabled {cmd : Command} (enabled : cmd.active = true → cmd.enabled = true)
    (inactive : cmd.commandClass = .command → cmd.active = false) :
    cmd.setDisabled.active = true → cmd.setDisabled.enabled = true := by
  rw [Command.setDisabled_eq]
  split
  · intro active
    exact absurd (active.symm.trans (inactive ‹_›)) (by simp)
  · exact enabled

theorem addCommand (none : NoneLeftActive manager) (name : String) {cmd : Command}
    (linked : cmd.Linked) (inactive : cmd.active = false) :
    NoneLeftActive (manager.addCommand name cmd) := by
  have enabled : cmd.active = true → cmd.enabled = true := by simp [inactive]
  apply AllValues.emplace none
  split
  · exact activate linked enabled
  · exact enabled

theorem onCommand (none : NoneLeftActive manager) (valid : Valid owner manager) {name : String}
    {change : Command → Command}
    (keeps : ∀ cmd, manager.getCommand name = some cmd → cmd.Linked →
      (cmd.active = true → cmd.enabled = true) →
        (change cmd).active = true → (change cmd).enabled = true) :
    NoneLeftActive (manager.onCommand name change) := by
  apply AllValues.modify none
  intro cmd entry enabled
  exact keeps cmd entry (valid.registered name cmd entry).linked enabled

theorem verifyLevel (none : NoneLeftActive manager) (valid : Valid owner manager) :
    NoneLeftActive manager.verifyLevel := by
  unfold NoneLeftActive CommandManager.verifyLevel
  rw [allValues_mapValues_iff]
  intro name cmd entry
  have linked := (valid.registered name cmd entry).linked
  unfold Command.verifyLevel
  split
  · exact activate linked (none name cmd entry)
  · exact deactivate linked (none name cmd entry)

/-- While commands are disabled only when they are inactive, none is left active. -/
theorem step (none : NoneLeftActive manager) (valid : Valid owner manager) {label : ManagerLabel}
    (disables : manager.DisablesInactive label) (taken : manager.step label = some next) :
    NoneLeftActive next := by
  cases label with
  | addCommand name numArg f level enabled =>
    obtain rfl := Option.some.inj taken
    exact none.addCommand name rfl rfl
  | addCommandWithoutArgs name f level enabled =>
    obtain rfl := Option.some.inj taken
    exact none.addCommand name rfl rfl
  | setEnabled name =>
    obtain ⟨_, _, rfl⟩ := Option.map_eq_some_iff.mp taken
    apply none.onCommand valid
    intro cmd _ _ _ _
    rw [Command.setEnabled_eq]
  | setDisabled name =>
    obtain ⟨_, _, rfl⟩ := Option.map_eq_some_iff.mp taken
    apply none.onCommand valid
    intro cmd entry _ enabled
    exact setDisabled enabled (disables cmd entry)
  | enableCommand name =>
    obtain rfl := Option.some.inj taken
    exact none.onCommand valid fun _ _ => activate
  | disableCommand name =>
    obtain rfl := Option.some.inj taken
    exact none.onCommand valid fun _ _ => deactivate
  | changeTransitionSet name transitionSet =>
    obtain rfl := Option.some.inj taken
    exact none.onCommand valid fun _ _ _ enabled => enabled
  | changeLevel level =>
    obtain rfl := Option.some.inj taken
    exact none
  | verifyLevel =>
    obtain rfl := Option.some.inj taken
    exact none.verifyLevel valid

end NoneLeftActive

/-- Managers whose commands are disabled only while inactive. -/
theorem noneLeftActive_of_reachable
    (reachable : (system owner).ReachableUnder DisablesInactive manager) :
    NoneLeftActive manager := by
  apply reachable.invariantFrom NoneLeftActive .empty
  intro before label after reached none disables taken
  exact none.step (Valid.of_reachable reached.reachable) disables taken

/-- Disabling an active `Command` leaves it active. -/
theorem not_noneLeftActive_of_setDisabled {label : ManagerLabel}
    (disables : ¬ manager.DisablesInactive label) (taken : manager.step label = some next) :
    ¬ NoneLeftActive next := by
  cases label with
  | setDisabled name =>
    simp only [DisablesInactive, not_forall] at disables
    obtain ⟨cmd, entry, typed, active⟩ := disables
    obtain ⟨_, _, rfl⟩ := Option.map_eq_some_iff.mp taken
    intro none
    have disabled : (manager.onCommand name Command.setDisabled).commands.lookup name =
        some { cmd with enabled := false } := by
      have found : manager.commands.lookup name = some cmd := entry
      simp [onCommand, found, Command.setDisabled_eq, typed]
    have enabled := none name _ disabled (by simpa using active)
    cases enabled
  | _ => exact absurd trivial disables

/-- The participants that the rest of the framework discovers. -/
def advertised (manager : CommandManager) : Set String :=
  {participant | ∃ name cmd, manager.getCommand name = some cmd ∧ cmd.ddslink = some participant}

/-- The participants of the commands that are enabled and available. -/
def wanted (manager : CommandManager) : Set String :=
  {participant | ∃ name cmd, manager.getCommand name = some cmd ∧ cmd.enabled = true ∧
    cmd.testLevel manager.level = true ∧ manager.owner ++ "::" ++ name = participant}

/-- A settled manager advertises exactly the commands that are enabled and available. -/
theorem advertised_eq_wanted (valid : Valid owner manager) (settled : manager.AllSettled) :
    manager.advertised = manager.wanted := by
  ext participant
  constructor
  · rintro ⟨name, cmd, entry, link⟩
    have kept := valid.registered name cmd entry
    rw [kept.linked.ddslink] at link
    split at link
    · have both : (cmd.enabled && cmd.testLevel manager.level) = true := by
        rw [← settled name cmd entry]
        assumption
      rw [Bool.and_eq_true] at both
      have same : manager.owner ++ "::" ++ name = participant := by
        rw [← Option.some.inj link, Command.participantName, kept.name, kept.owner, valid.owned]
      exact ⟨name, cmd, entry, both.1, both.2, same⟩
    · cases link
  · rintro ⟨name, cmd, entry, enabled, available, rfl⟩
    have kept := valid.registered name cmd entry
    have active : cmd.active = true := by
      rw [settled name cmd entry, enabled, available]
      rfl
    have link : cmd.ddslink = some (manager.owner ++ "::" ++ name) := by
      rw [kept.linked.ddslink, if_pos active, Command.participantName, kept.name, kept.owner,
        valid.owned]
    exact ⟨name, cmd, entry, link⟩

/-- As long as commands are disabled only while inactive, every pass settles all
commands. In any reachable manager a pass settles all commands if and only if none
is active while disabled; so a pass right after an active one has been disabled
does not. -/
theorem settled_after_pass (owner : String) :
    (∀ manager, (system owner).ReachableUnder DisablesInactive manager →
      manager.verifyLevel.AllSettled) ∧
    (∀ manager, (system owner).Reachable manager →
      (manager.verifyLevel.AllSettled ↔ manager.NoneLeftActive)) ∧
    ∀ manager label next, (system owner).Reachable manager →
      ¬ manager.DisablesInactive label → manager.step label = some next →
        ¬ next.verifyLevel.AllSettled := by
  refine ⟨?_, ?_, ?_⟩
  · intro manager reachable
    have valid := Valid.of_reachable reachable.reachable
    exact valid.settled_verifyLevel_iff.mpr (noneLeftActive_of_reachable reachable)
  · intro manager reachable
    exact (Valid.of_reachable reachable).settled_verifyLevel_iff
  · intro manager label next reachable disables taken settled
    have valid := (Valid.of_reachable reachable).step taken
    have none := valid.settled_verifyLevel_iff.mp settled
    exact not_noneLeftActive_of_setDisabled disables taken none

/-- A command that has become unavailable is disabled and settled at every level. -/
theorem settled_after_unavailable : ∃ manager, (system "app").run
    [.addCommand "activate" 0 (fun _ => true) (AList.singleton 0 1) true, .changeLevel 1,
      .verifyLevel, .setDisabled "activate", .changeLevel 0] = some manager ∧
    manager.verifyLevel.AllSettled := by
  have admitted : (system "app").AdmitsFrom DisablesInactive (new "app")
      [.addCommand "activate" 0 (fun _ => true) (AList.singleton 0 1) true, .changeLevel 1,
        .verifyLevel, .setDisabled "activate", .changeLevel 0] := by
    decide
  have reachable := System.ReachableUnder.initial.runFrom admitted rfl
  exact ⟨_, rfl, (settled_after_pass "app").1 _ reachable⟩

/-- A command that is disabled while it is active survives the next pass. -/
theorem disabled_command_stays_active : ∃ manager, (system "app").run
    [.addCommand "activate" 0 (fun _ => true) ∅ true, .setDisabled "activate"] = some manager ∧
    ¬ manager.verifyLevel.AllSettled := by
  refine ⟨_, rfl, fun settled => ?_⟩
  have active := settled "activate" _ rfl
  exact absurd active (by decide)

end CommandManager

end Dls2.Commands
