import Dls2.Lib.Assoc

/-!
# Commands

A command is called by name from anywhere in the framework. `CommandBase` holds
its transition set, which maps the levels at which it is available to the levels
it leads to, and its three bits: `enabled` is what the component wants, the DDS
reader `ddslink` is what the rest of the framework sees, and `active` records
whether there is a reader.

`Command<arg_ts...>` and `CommandWithoutArgs` derive from it. They share their code
except for `setDisabled` and `call`. Documentation strings are left out.
-/

namespace Dls2.Commands

open Dls2.Assoc

/-- `CommandBase::LevelType`, a `std::map<uint, uint>`. -/
abbrev LevelType := Map UInt32 UInt32

/-- A command is available in all states except the zero one. -/
def allStatesExceptZero : UInt32 := -1

namespace LevelType

def testLevel (transitionSet : LevelType) (level : UInt32) : Bool :=
  transitionSet.entries.isEmpty ||
    (transitionSet.entries.length == 1 && decide (allStatesExceptZero ∈ transitionSet) &&
      level != 0) ||
    (transitionSet.lookup level).isSome

/-- `none` where the source dereferences the end iterator of the map. -/
def getNextLevel (transitionSet : LevelType) (curLevel : UInt32) : Option Int32 :=
  if transitionSet.entries.isEmpty then some curLevel.toInt32
  else (transitionSet.lookup curLevel).map UInt32.toInt32

/-- At a level at which it is available, a transition set without the wildcard has an
entry to go on with. -/
theorem getNextLevel_of_testLevel {transitionSet : LevelType} {level : UInt32}
    (nonempty : transitionSet.entries.isEmpty = false)
    (plain : allStatesExceptZero ∉ transitionSet)
    (available : transitionSet.testLevel level = true) :
    ∃ next, ⟨level, next⟩ ∈ transitionSet.entries ∧
      transitionSet.getNextLevel level = some next.toInt32 := by
  have present : (transitionSet.lookup level).isSome = true := by
    simpa [testLevel, nonempty, plain] using available
  obtain ⟨next, entry⟩ := Option.isSome_iff_exists.mp present
  exact ⟨next, AList.mem_lookup_iff.mp entry, by simp [getNextLevel, nonempty, entry]⟩

/-- A transition set with one entry admits the level of the entry, or with the wildcard
all levels but zero. -/
theorem testLevel_singleton (entry next level : UInt32) :
    testLevel (AList.singleton entry next) level = true ↔
      (entry = allStatesExceptZero ∧ level ≠ 0) ∨ level = entry := by
  have single : (AList.singleton entry next : LevelType).entries = [⟨entry, next⟩] := rfl
  have member : ∀ other, other ∈ (AList.singleton entry next : LevelType) ↔ other = entry := by
    intro other
    simp [AList.mem_keys, AList.keys_singleton]
  simp only [testLevel, single, member, AList.lookup_isSome, Bool.or_eq_true, Bool.and_eq_true,
    List.isEmpty_cons, List.length_singleton, BEq.rfl, decide_eq_true_eq, bne_iff_ne,
    Bool.false_eq_true, false_or, true_and, @eq_comm _ allStatesExceptZero]

end LevelType

/-- The classes derived from `CommandBase`. -/
inductive CommandClass where
  | command
  | commandWithoutArgs
deriving DecidableEq, Repr

/-- What a command is registered with. `f` takes the argument strings: `create_tuple`
converts them for the callback. -/
structure Declaration where
  commandClass : CommandClass
  name : String
  owner : String
  numArg : Nat
  f : List String → Bool

/-- `ddslink` is the participant name of the reader, if there is one. -/
structure Command extends Declaration where
  transitionSet : LevelType
  enabled : Bool
  active : Bool
  ddslink : Option String

namespace Command

/-- The constructor of `Command<arg_ts...>`. -/
def command (name owner : String) (numArg : Nat) (f : List String → Bool)
    (level : LevelType) (enabled : Bool) : Command where
  commandClass := .command
  name := name
  owner := owner
  numArg := numArg
  transitionSet := level
  enabled := enabled
  active := false
  f := f
  ddslink := none

/-- The constructor of `CommandWithoutArgs`. -/
def commandWithoutArgs (name owner : String) (f : List String → Bool) (level : LevelType)
    (enabled : Bool) : Command :=
  { command name owner 0 f level enabled with commandClass := .commandWithoutArgs }

def testLevel (command : Command) (level : UInt32) : Bool := command.transitionSet.testLevel level

def getNextLevel (command : Command) (curLevel : UInt32) : Option Int32 :=
  command.transitionSet.getNextLevel curLevel

def changeTransitionSet (command : Command) (transitionSet : LevelType) : Command :=
  { command with transitionSet := transitionSet }

def setEnabled (command : Command) : Command :=
  if command.enabled then command else { command with enabled := true }

/-- The guard of `CommandWithoutArgs::setDisabled` is that of `setEnabled`, so that
it never clears the bit. -/
def setDisabled (command : Command) : Command :=
  match command.commandClass with
  | .command => if !command.enabled then command else { command with enabled := false }
  | .commandWithoutArgs => if command.enabled then command else { command with enabled := false }

/-- The name under which the reader is advertised. -/
def participantName (command : Command) : String := command.owner ++ "::" ++ command.name

/-- Create the reader unless there is one. -/
def registerCommand (command : Command) : Command :=
  if command.ddslink.isSome then command
  else { command with ddslink := some command.participantName }

def activate (command : Command) : Command :=
  if !command.enabled || command.active then command
  else { command.registerCommand with active := true }

def deactivate (command : Command) : Command :=
  if !command.enabled || !command.active || command.ddslink.isNone then command
  else { command with ddslink := none, active := false }

/-- What a pass of the level watcher does to one command. -/
def verifyLevel (level : UInt32) (command : Command) : Command :=
  if command.testLevel level then command.activate else command.deactivate

/-- The command with or without its reader. -/
def link (command : Command) (active : Bool) : Command :=
  { command with
    active := active
    ddslink := if active then some command.participantName else none }

/-- The reader exists exactly while the command is active. -/
def Linked (command : Command) : Prop := command.link command.active = command

/-- What a pass of the level watcher is for: the command is active if and only if it
is enabled and available at the level. -/
def Settled (level : UInt32) (command : Command) : Prop :=
  command.active = (command.enabled && command.testLevel level)

instance (level : UInt32) (command : Command) : Decidable (command.Settled level) :=
  inferInstanceAs (Decidable (_ = _))

@[simp] theorem link_active (command : Command) (active : Bool) :
    (command.link active).active = active := rfl

@[simp] theorem link_enabled (command : Command) (active : Bool) :
    (command.link active).enabled = command.enabled := rfl

@[simp] theorem link_testLevel (command : Command) (active : Bool) (level : UInt32) :
    (command.link active).testLevel level = command.testLevel level := rfl

theorem linked_link (command : Command) (active : Bool) : (command.link active).Linked := rfl

theorem setEnabled_eq (command : Command) :
    command.setEnabled = { command with enabled := true } := by
  unfold setEnabled
  split
  · cases command
    simp_all
  · rfl

/-- A `Command` is disabled, a `CommandWithoutArgs` stays as it is. -/
theorem setDisabled_eq (command : Command) : command.setDisabled =
    match command.commandClass with
    | .command => { command with enabled := false }
    | .commandWithoutArgs => command := by
  obtain ⟨⟨commandClass, _, _, _, _⟩, _, enabled, _, _⟩ := command
  cases commandClass <;> cases enabled <;> rfl

@[simp] theorem changeTransitionSet_declaration (command : Command) (transitionSet : LevelType) :
    (command.changeTransitionSet transitionSet).toDeclaration = command.toDeclaration := rfl

@[simp] theorem setEnabled_declaration (command : Command) :
    command.setEnabled.toDeclaration = command.toDeclaration := by
  rw [setEnabled_eq]

@[simp] theorem setDisabled_declaration (command : Command) :
    command.setDisabled.toDeclaration = command.toDeclaration := by
  rw [setDisabled_eq]
  split <;> rfl

@[simp] theorem activate_declaration (command : Command) :
    command.activate.toDeclaration = command.toDeclaration := by
  unfold activate registerCommand
  split
  · rfl
  · split <;> rfl

@[simp] theorem deactivate_declaration (command : Command) :
    command.deactivate.toDeclaration = command.toDeclaration := by
  unfold deactivate
  split <;> rfl

@[simp] theorem verifyLevel_declaration (command : Command) (level : UInt32) :
    (command.verifyLevel level).toDeclaration = command.toDeclaration := by
  unfold verifyLevel
  split <;> simp

@[simp] theorem setEnabled_transitionSet (command : Command) :
    command.setEnabled.transitionSet = command.transitionSet := by
  rw [setEnabled_eq]

@[simp] theorem setDisabled_transitionSet (command : Command) :
    command.setDisabled.transitionSet = command.transitionSet := by
  rw [setDisabled_eq]
  split <;> rfl

@[simp] theorem activate_transitionSet (command : Command) :
    command.activate.transitionSet = command.transitionSet := by
  unfold activate registerCommand
  split
  · rfl
  · split <;> rfl

@[simp] theorem deactivate_transitionSet (command : Command) :
    command.deactivate.transitionSet = command.transitionSet := by
  unfold deactivate
  split <;> rfl

@[simp] theorem verifyLevel_transitionSet (command : Command) (level : UInt32) :
    (command.verifyLevel level).transitionSet = command.transitionSet := by
  unfold verifyLevel
  split <;> simp

@[simp] theorem setEnabled_enabled (command : Command) : command.setEnabled.enabled = true := by
  rw [setEnabled_eq]

@[simp] theorem activate_enabled (command : Command) :
    command.activate.enabled = command.enabled := by
  unfold activate registerCommand
  split
  · rfl
  · split <;> rfl

@[simp] theorem deactivate_enabled (command : Command) :
    command.deactivate.enabled = command.enabled := by
  unfold deactivate
  split <;> rfl

@[simp] theorem verifyLevel_enabled (command : Command) (level : UInt32) :
    (command.verifyLevel level).enabled = command.enabled := by
  unfold verifyLevel
  split <;> simp

namespace Linked

variable {command : Command}

theorem ddslink (linked : command.Linked) :
    command.ddslink = if command.active then some command.participantName else none := by
  exact (congrArg Command.ddslink linked).symm

/-- Activation links an enabled command. -/
theorem activate_eq (linked : command.Linked) :
    command.activate = if command.enabled then command.link true else command := by
  have reader := linked.ddslink
  cases enabled : command.enabled <;> cases active : command.active
  · simp [activate, enabled]
  · simp [activate, enabled]
  · rw [active] at reader
    simp [activate, registerCommand, link, enabled, active, reader]
  · rw [Linked, active] at linked
    simp [activate, enabled, active, linked]

/-- Deactivation unlinks an enabled command. A disabled one keeps its reader. -/
theorem deactivate_eq (linked : command.Linked) :
    command.deactivate = if command.enabled then command.link false else command := by
  have reader := linked.ddslink
  cases enabled : command.enabled <;> cases active : command.active
  · simp [deactivate, enabled]
  · simp [deactivate, enabled]
  · rw [Linked, active] at linked
    simp [deactivate, enabled, active, linked]
  · rw [active] at reader
    simp [deactivate, link, enabled, active, reader]

/-- A pass links an enabled command if and only if it is available. -/
theorem verifyLevel_eq (linked : command.Linked) (level : UInt32) :
    command.verifyLevel level =
      if command.enabled then command.link (command.testLevel level) else command := by
  unfold verifyLevel
  split
  · rw [linked.activate_eq, ‹command.testLevel level = true›]
  · rw [linked.deactivate_eq, eq_false_of_ne_true ‹¬ command.testLevel level = true›]

theorem activate (linked : command.Linked) : command.activate.Linked := by
  rw [linked.activate_eq]
  split
  · exact linked_link command true
  · exact linked

theorem deactivate (linked : command.Linked) : command.deactivate.Linked := by
  rw [linked.deactivate_eq]
  split
  · exact linked_link command false
  · exact linked

theorem verifyLevel (linked : command.Linked) (level : UInt32) :
    (command.verifyLevel level).Linked := by
  unfold Command.verifyLevel
  split
  · exact linked.activate
  · exact linked.deactivate

theorem setEnabled (linked : command.Linked) : command.setEnabled.Linked := by
  rw [setEnabled_eq]
  exact congrArg (fun linked : Command => { linked with enabled := true }) linked

theorem setDisabled (linked : command.Linked) : command.setDisabled.Linked := by
  rw [setDisabled_eq]
  split
  · exact congrArg (fun linked : Command => { linked with enabled := false }) linked
  · exact linked

theorem changeTransitionSet (linked : command.Linked) (transitionSet : LevelType) :
    (command.changeTransitionSet transitionSet).Linked :=
  congrArg (Command.changeTransitionSet · transitionSet) linked

/-- A pass settles a command unless it is disabled and still active. -/
theorem settled_verifyLevel_iff (linked : command.Linked) (level : UInt32) :
    (command.verifyLevel level).Settled level ↔
      (command.active = true → command.enabled = true) := by
  rw [linked.verifyLevel_eq]
  cases enabled : command.enabled
  · simp [Settled, enabled]
  · simp [Settled, enabled]

end Linked

end Command

end Dls2.Commands
