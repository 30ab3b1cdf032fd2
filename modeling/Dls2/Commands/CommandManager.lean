import Dls2.Lib.Transition
import Dls2.Commands.CommandBase

/-!
# The command manager

A `CommandManager` owns the commands of one component and its current level. A
change of the level only wakes the level watcher, whose next pass activates the
commands available at the level and deactivates the others. Commands can be
enabled, disabled and given another transition set at any time before that pass.

Every operation is one step, and so is a pass. `levelMutex` is held during a pass and
a change of the level, but not while a command is enabled, disabled or set enabled, so
runs are of whole operations, not of what their threads may do in between.
-/

namespace Dls2.Commands

open Dls2.Assoc Dls2.Transition

structure CommandManager where
  owner : String
  commands : Map String Command
  level : UInt32

/-- Operations on the manager and, through `getCommand`, on its commands. A pass of
the level watcher is a step of its own. -/
inductive ManagerLabel where
  | addCommand (name : String) (numArg : Nat) (f : List String → Bool) (level : LevelType)
      (enabled : Bool)
  | addCommandWithoutArgs (name : String) (f : List String → Bool) (level : LevelType)
      (enabled : Bool)
  | setEnabled (name : String)
  | setDisabled (name : String)
  | enableCommand (name : String)
  | disableCommand (name : String)
  | changeTransitionSet (name : String) (transitionSet : LevelType)
  | changeLevel (level : UInt32)
  | verifyLevel

namespace CommandManager

/-- The constructor: no commands, level 0. -/
def new (owner : String) : CommandManager := ⟨owner, ∅, 0⟩

/-- Both overloads of `addCommand`. `map::insert` drops the new command when the name
is taken. -/
def addCommand (manager : CommandManager) (name : String) (cmd : Command) : CommandManager :=
  let cmd := if cmd.testLevel manager.level then cmd.activate else cmd
  { manager with commands := emplace name cmd manager.commands }

def getCommand (manager : CommandManager) (name : String) : Option Command :=
  manager.commands.lookup name

/-- Call a member function of the command of a name, if there is one. -/
def onCommand (manager : CommandManager) (name : String) (change : Command → Command) :
    CommandManager :=
  { manager with commands := modify name change manager.commands }

def enableCommand (manager : CommandManager) (name : String) : CommandManager :=
  manager.onCommand name Command.activate

def disableCommand (manager : CommandManager) (name : String) : CommandManager :=
  manager.onCommand name Command.deactivate

def changeTransitionSet (manager : CommandManager) (name : String) (transitionSet : LevelType) :
    CommandManager :=
  manager.onCommand name (Command.changeTransitionSet · transitionSet)

def changeLevel (manager : CommandManager) (level : UInt32) : CommandManager :=
  { manager with level := level }

def verifyLevel (manager : CommandManager) : CommandManager :=
  { manager with
    commands := mapValues (fun _ cmd => cmd.verifyLevel manager.level) manager.commands }

/-- `setEnabled` and `setDisabled` go through the pointer that `getCommand` returns;
for an unknown name it is null, and there is no step. -/
def step (manager : CommandManager) : ManagerLabel → Option CommandManager
  | .addCommand name numArg f level enabled =>
    some (manager.addCommand name (.command name manager.owner numArg f level enabled))
  | .addCommandWithoutArgs name f level enabled =>
    some (manager.addCommand name (.commandWithoutArgs name manager.owner f level enabled))
  | .setEnabled name =>
    (manager.getCommand name).map fun _ => manager.onCommand name Command.setEnabled
  | .setDisabled name =>
    (manager.getCommand name).map fun _ => manager.onCommand name Command.setDisabled
  | .enableCommand name => some (manager.enableCommand name)
  | .disableCommand name => some (manager.disableCommand name)
  | .changeTransitionSet name transitionSet =>
    some (manager.changeTransitionSet name transitionSet)
  | .changeLevel level => some (manager.changeLevel level)
  | .verifyLevel => some manager.verifyLevel

def system (owner : String) : System CommandManager ManagerLabel where
  initial := new owner
  step := step

end CommandManager

namespace CommandManager

@[simp] theorem addCommand_level (manager : CommandManager) (name : String) (cmd : Command) :
    (manager.addCommand name cmd).level = manager.level := rfl

@[simp] theorem verifyLevel_level (manager : CommandManager) :
    manager.verifyLevel.level = manager.level := rfl

@[simp] theorem changeLevel_level (manager : CommandManager) (level : UInt32) :
    (manager.changeLevel level).level = level := rfl

/-- An added command is entered under a free name, and active where it is available. -/
theorem getCommand_addCommand (manager : CommandManager) (name other : String) (cmd : Command) :
    (manager.addCommand name cmd).getCommand other = (manager.getCommand other).or
      (if other = name then
        some (if cmd.testLevel manager.level then cmd.activate else cmd) else none) :=
  lookup_emplace_eq name other _ manager.commands

/-- The command of a name stays there with its declaration and its transition set, and
enabled if it was, unless it is `disabled`. -/
def Kept (disabled : Prop) (name : String) (manager next : CommandManager) : Prop :=
  ∀ cmd, manager.getCommand name = some cmd → ∃ after, next.getCommand name = some after ∧
    after.toDeclaration = cmd.toDeclaration ∧ after.transitionSet = cmd.transitionSet ∧
    (¬ disabled → cmd.enabled = true → after.enabled = true)

namespace Kept

variable {disabled : Prop} {name : String} {manager next last : CommandManager}

theorem refl (disabled : Prop) (name : String) (manager : CommandManager) :
    Kept disabled name manager manager :=
  fun cmd entry => ⟨cmd, entry, rfl, rfl, fun _ => id⟩

theorem trans (first : Kept disabled name manager next) (second : Kept disabled name next last) :
    Kept disabled name manager last := by
  intro cmd entry
  obtain ⟨between, found, declared, set, enabled⟩ := first cmd entry
  obtain ⟨after, here, stillDeclared, stillSet, stillEnabled⟩ := second between found
  exact ⟨after, here, stillDeclared.trans declared, stillSet.trans set,
    fun spared was => stillEnabled spared (enabled spared was)⟩

/-- A member function that keeps every command it is called on keeps that of the name. -/
theorem onCommand {other : String} {change : Command → Command}
    (declared : ∀ cmd, (change cmd).toDeclaration = cmd.toDeclaration)
    (set : ∀ cmd, (change cmd).transitionSet = cmd.transitionSet)
    (enabled : name = other → ¬ disabled → ∀ cmd, cmd.enabled = true →
      (change cmd).enabled = true) :
    Kept disabled name manager (manager.onCommand other change) := by
  intro cmd entry
  have found : manager.commands.lookup name = some cmd := entry
  by_cases same : name = other
  · subst same
    exact ⟨change cmd, by simp [getCommand, CommandManager.onCommand, found], declared cmd,
      set cmd, fun spared => enabled rfl spared cmd⟩
  · refine ⟨cmd, ?_, rfl, rfl, fun _ => id⟩
    simp [getCommand, CommandManager.onCommand, lookup_modify_ne same, found]

theorem addCommand (other : String) (cmd : Command) :
    Kept disabled name manager (manager.addCommand other cmd) := by
  intro found entry
  refine ⟨found, ?_, rfl, rfl, fun _ => id⟩
  simp [getCommand_addCommand, entry]

theorem changeLevel (level : UInt32) :
    Kept disabled name manager (manager.changeLevel level) :=
  refl disabled name manager

theorem verifyLevel : Kept disabled name manager manager.verifyLevel := by
  intro cmd entry
  have found : manager.commands.lookup name = some cmd := entry
  refine ⟨cmd.verifyLevel manager.level, ?_, by simp, by simp, by simp⟩
  simp [getCommand, CommandManager.verifyLevel, found]

/-- Enabling or disabling any command keeps the one of the name, which is disabled only
by name. -/
theorem setEnabled (other : String) :
    Kept disabled name manager (manager.onCommand other Command.setEnabled) :=
  onCommand (by simp) (by simp) (by simp)

theorem setDisabled (other : String) :
    Kept (name = other) name manager (manager.onCommand other Command.setDisabled) :=
  onCommand (by simp) (by simp) fun same spared => absurd same spared

end Kept

end CommandManager

/-- What holds of every command of a manager. -/
structure Registered (owner name : String) (cmd : Command) : Prop where
  name : cmd.name = name
  owner : cmd.owner = owner
  linked : cmd.Linked

namespace Registered

variable {owner name : String} {cmd : Command}

/-- Operations keep the declaration of a command, so only its link is to be shown. -/
theorem keep {after : Command} (registered : Registered owner name cmd)
    (declaration : after.toDeclaration = cmd.toDeclaration) (linked : after.Linked) :
    Registered owner name after where
  name := (congrArg Declaration.name declaration).trans registered.name
  owner := (congrArg Declaration.owner declaration).trans registered.owner
  linked := linked

theorem setEnabled (registered : Registered owner name cmd) :
    Registered owner name cmd.setEnabled :=
  registered.keep (by simp) registered.linked.setEnabled

theorem setDisabled (registered : Registered owner name cmd) :
    Registered owner name cmd.setDisabled :=
  registered.keep (by simp) registered.linked.setDisabled

theorem activate (registered : Registered owner name cmd) : Registered owner name cmd.activate :=
  registered.keep (by simp) registered.linked.activate

theorem deactivate (registered : Registered owner name cmd) :
    Registered owner name cmd.deactivate :=
  registered.keep (by simp) registered.linked.deactivate

theorem changeTransitionSet (registered : Registered owner name cmd) (transitionSet : LevelType) :
    Registered owner name (cmd.changeTransitionSet transitionSet) :=
  registered.keep (by simp) (registered.linked.changeTransitionSet transitionSet)

theorem verifyLevel (registered : Registered owner name cmd) (level : UInt32) :
    Registered owner name (cmd.verifyLevel level) :=
  registered.keep (by simp) (registered.linked.verifyLevel level)

end Registered

/-- The invariant of a manager: its owner never changes, and its commands are
registered. -/
structure CommandManager.Valid (owner : String) (manager : CommandManager) : Prop where
  owned : manager.owner = owner
  registered : AllValues (Registered owner) manager.commands

namespace CommandManager.Valid

variable {owner : String} {manager next : CommandManager}

theorem addCommand (valid : Valid owner manager) {name : String} {cmd : Command}
    (new : Registered owner name cmd) : Valid owner (manager.addCommand name cmd) where
  owned := valid.owned
  registered := by
    apply valid.registered.emplace
    split
    · exact new.activate
    · exact new

theorem onCommand (valid : Valid owner manager) {name : String} {change : Command → Command}
    (keeps : ∀ cmd, Registered owner name cmd → Registered owner name (change cmd)) :
    Valid owner (manager.onCommand name change) where
  owned := valid.owned
  registered := valid.registered.modify fun cmd _ registered => keeps cmd registered

theorem step (valid : Valid owner manager) {label : ManagerLabel}
    (taken : manager.step label = some next) : Valid owner next := by
  cases label with
  | addCommand name numArg f level enabled =>
    obtain rfl := Option.some.inj taken
    exact valid.addCommand ⟨rfl, valid.owned, rfl⟩
  | addCommandWithoutArgs name f level enabled =>
    obtain rfl := Option.some.inj taken
    exact valid.addCommand ⟨rfl, valid.owned, rfl⟩
  | setEnabled name =>
    obtain ⟨_, _, rfl⟩ := Option.map_eq_some_iff.mp taken
    exact valid.onCommand fun _ registered => registered.setEnabled
  | setDisabled name =>
    obtain ⟨_, _, rfl⟩ := Option.map_eq_some_iff.mp taken
    exact valid.onCommand fun _ registered => registered.setDisabled
  | enableCommand name =>
    obtain rfl := Option.some.inj taken
    exact valid.onCommand fun _ registered => registered.activate
  | disableCommand name =>
    obtain rfl := Option.some.inj taken
    exact valid.onCommand fun _ registered => registered.deactivate
  | changeTransitionSet name transitionSet =>
    obtain rfl := Option.some.inj taken
    exact valid.onCommand fun _ registered => registered.changeTransitionSet transitionSet
  | changeLevel level =>
    obtain rfl := Option.some.inj taken
    exact ⟨valid.owned, valid.registered⟩
  | verifyLevel =>
    obtain rfl := Option.some.inj taken
    exact ⟨valid.owned, valid.registered.mapValues fun _ _ registered =>
      registered.verifyLevel manager.level⟩

/-- Every reachable manager is valid. -/
theorem of_reachable (reachable : (system owner).Reachable manager) : Valid owner manager := by
  apply reachable.invariant (Valid owner)
  · exact ⟨rfl, .empty⟩
  · intro before label after valid _ taken
    exact valid.step taken

end CommandManager.Valid

end Dls2.Commands
