import Dls2.Commands.CallCommand

/-!
# Two classes for commands without arguments

A command without arguments becomes a `Command<>` or a `CommandWithoutArgs`, depending on
the overload of `addCommand`. Both are used through the same virtual functions, which
differ in two places: `setDisabled` of a `CommandWithoutArgs` has the guard of
`setEnabled`, and it does not override the `call` that a local call goes through.

The callback may return something else each time it is run.
-/

namespace Dls2.Commands

open Dls2.Assoc Dls2.Transition

/-- What can be done with a registered command, through its manager and from outside.
`callback` sets what the callback is going to return. -/
inductive CommandOperation where
  | setEnabled
  | setDisabled
  | activate
  | deactivate
  | changeLevel (level : UInt32)
  | verifyLevel
  | callback (f : List String → Bool)
  | remoteCall
  | localCall

/-- A manager, and how often the callback has been run. -/
structure Usage where
  manager : CommandManager
  runs : Nat

namespace Usage

def withManager (usage : Usage) (manager : CommandManager) : Usage := { usage with manager }

def called (usage : Usage) (called : Called) : Usage :=
  ⟨called.manager, usage.runs + called.runs.length⟩

/-- A command is discovered while it has a reader. -/
def discovered (usage : Usage) (name : String) : List (String × String) :=
  if (usage.manager.getCommand name).any (·.ddslink.isSome) then [(name, usage.manager.owner)]
  else []

/-- An operation on the command of the name; `none` where the source dereferences an end
iterator. -/
def step (name : String) (usage : Usage) : CommandOperation → Option Usage
  | .setEnabled => (usage.manager.step (.setEnabled name)).map usage.withManager
  | .setDisabled => (usage.manager.step (.setDisabled name)).map usage.withManager
  | .activate => (usage.manager.step (.enableCommand name)).map usage.withManager
  | .deactivate => (usage.manager.step (.disableCommand name)).map usage.withManager
  | .changeLevel level => (usage.manager.step (.changeLevel level)).map usage.withManager
  | .verifyLevel => (usage.manager.step .verifyLevel).map usage.withManager
  | .callback f => some (usage.withManager (usage.manager.onCommand name ({ · with f })))
  | .remoteCall => do
    let cmd ← usage.manager.getCommand name
    let msg := CommandManager.sendMessage (name, usage.manager.owner) []
    return usage.called (← cmd.receive usage.manager msg)
  | .localCall => do
    let (_, effect, _) ← usage.manager.callCommand (usage.discovered name) name []
      usage.manager.owner
    return usage.called effect

def system (name : String) (start : Usage) : System Usage CommandOperation where
  initial := start
  step := step name

/-- What there is to be seen of the command: whether it is enabled and active, the level,
and how often its callback has been run. -/
def view (name : String) (usage : Usage) : Option (Bool × Bool × UInt32 × Nat) :=
  (usage.manager.getCommand name).map fun cmd =>
    (cmd.enabled, cmd.active, usage.manager.level, usage.runs)

end Usage

/-- Through the overload of `addCommand` for a function. -/
def Usage.command (manager : CommandManager) (name : String) (f : List String → Bool)
    (level : LevelType) (enabled : Bool) : Usage :=
  ⟨manager.addCommand name (.command name manager.owner 0 f level enabled), 0⟩

/-- Through the overload of `addCommand` for a member function. -/
def Usage.commandWithoutArgs (manager : CommandManager) (name : String) (f : List String → Bool)
    (level : LevelType) (enabled : Bool) : Usage :=
  ⟨manager.addCommand name (.commandWithoutArgs name manager.owner f level enabled), 0⟩

/-- Nothing can be told apart after any part of the operations. Where one of the two runs
into undefined behaviour, so does the other. -/
def AgreeAlong (name : String) (first second : Usage) (operations : List CommandOperation) :
    Prop :=
  ∀ before after, operations = before ++ after →
    (((Usage.system name first).runFrom first before).map (Usage.view name)) =
      ((Usage.system name second).runFrom second before).map (Usage.view name)

/-- The two classes do the same: a command is disabled only if it is already, and a local
call does not find the command, or finds no level to go on to. -/
def Usage.Shared (name : String) (usage : Usage) : CommandOperation → Prop
  | .setDisabled => ∀ cmd ∈ usage.manager.getCommand name, cmd.enabled = false
  | .localCall => ∀ cmd ∈ usage.manager.getCommand name,
      cmd.ddslink = none ∨ cmd.getNextLevel usage.manager.level = none
  | _ => True

/-! ### The same command in the other class -/

/-- The command as one of the other class. -/
def Command.withoutArgs (cmd : Command) : Command :=
  { cmd with commandClass := .commandWithoutArgs }

section Commutes

variable (cmd : Command)

@[simp] theorem setEnabled_withoutArgs :
    cmd.withoutArgs.setEnabled = cmd.setEnabled.withoutArgs := by
  rw [Command.setEnabled_eq, Command.setEnabled_eq]
  rfl

@[simp] theorem activate_withoutArgs : cmd.withoutArgs.activate = cmd.activate.withoutArgs := by
  obtain ⟨declaration, transitionSet, enabled, active, ddslink⟩ := cmd
  cases enabled <;> cases active <;> cases ddslink <;> rfl

@[simp] theorem deactivate_withoutArgs :
    cmd.withoutArgs.deactivate = cmd.deactivate.withoutArgs := by
  obtain ⟨declaration, transitionSet, enabled, active, ddslink⟩ := cmd
  cases enabled <;> cases active <;> cases ddslink <;> rfl

/-- A command that is disabled already stays as it is. -/
theorem setDisabled_withoutArgs {cmd : Command} (typed : cmd.commandClass = .command)
    (disabled : cmd.enabled = false) :
    cmd.withoutArgs.setDisabled = cmd.setDisabled.withoutArgs := by
  have untyped : cmd.withoutArgs.commandClass = .commandWithoutArgs := rfl
  rw [Command.setDisabled_eq, Command.setDisabled_eq, typed, untyped]
  simp only [← disabled]

@[simp] theorem verifyLevel_withoutArgs (level : UInt32) :
    cmd.withoutArgs.verifyLevel level = (cmd.verifyLevel level).withoutArgs := by
  have available : cmd.withoutArgs.testLevel level = cmd.testLevel level := rfl
  simp only [Command.verifyLevel, available]
  split
  · exact activate_withoutArgs cmd
  · exact deactivate_withoutArgs cmd

end Commutes

namespace Command

variable {cmd : Command} {manager : CommandManager}

/-- Run the callback without arguments, and go on to the next level if it agrees. -/
def run (cmd : Command) (manager : CommandManager) : Option Called :=
  if cmd.f [] then
    (cmd.getNextLevel manager.level).map fun next => ⟨manager.changeLevel next.toUInt32, [[]]⟩
  else some ⟨manager, [[]]⟩

/-- What the active reader of a `Command<>` does. -/
theorem receive_run (typed : cmd.commandClass = .command) (numArg : cmd.numArg = 0)
    (reader : cmd.ddslink.isNone = false) :
    cmd.receive manager (CommandManager.sendMessage (cmd.name, cmd.owner) []) =
      cmd.run manager := by
  have parsed : parseArgs (encodeArgs []).toList = [] := by
    rw [parseArgs_encodeArgs]
    rfl
  rw [receive_eq typed reader, parsed, expected, List.length_nil, numArg]
  rfl

/-- What the active reader of a `CommandWithoutArgs` does. -/
theorem receive_withoutArgs (reader : cmd.ddslink.isNone = false) :
    cmd.withoutArgs.receive manager (CommandManager.sendMessage (cmd.name, cmd.owner) []) =
      cmd.run manager := by
  have named : cmd.withoutArgs.name = cmd.name := rfl
  have owned : cmd.withoutArgs.owner = cmd.owner := rfl
  have readerThere : cmd.withoutArgs.ddslink.isNone = false := reader
  have calls : (cmd.withoutArgs.call manager).map Prod.snd = cmd.run manager := by
    simp only [call, withoutArgs, nextLevel_eq, run]
    split
    · rw [Option.map_map, Option.map_map]
      rfl
    · rfl
  have typed : cmd.withoutArgs.commandClass = .commandWithoutArgs := rfl
  simpa [receive, CommandManager.sendMessage, readerThere, named, owned, typed] using calls

/-- Without a level to go on to, a call that returns has left the manager as it was. -/
theorem expected_manager {args : List String} {called : Called}
    (stuck : cmd.getNextLevel manager.level = none)
    (expects : cmd.expected manager args = some called) : called.manager = manager := by
  simp only [expected, stuck, Option.map_none] at expects
  split at expects
  · split at expects
    · cases expects
    · cases expects
      rfl
  · cases expects
    rfl

end Command

/-- Two managers with the same command in the two classes, at the same level and after
equally many runs of the callback. -/
structure Usage.Paired (name : String) (first second : Usage) (cmd : Command) : Prop where
  here : first.manager.getCommand name = some cmd
  there : second.manager.getCommand name = some cmd.withoutArgs
  typed : cmd.commandClass = .command
  numArg : cmd.numArg = 0
  named : cmd.name = name
  owned : cmd.owner = first.manager.owner
  owner : second.manager.owner = first.manager.owner
  level : second.manager.level = first.manager.level
  runs : second.runs = first.runs

/-- The commands are still paired, or both are in undefined behaviour. -/
abbrev Usage.Alike (name : String) : Option Usage → Option Usage → Prop :=
  Option.Rel fun first second => ∃ cmd, Paired name first second cmd

/-- Either both are in undefined behaviour, or neither is. -/
theorem Usage.Alike.cases {name : String} {here there : Option Usage}
    (alike : Alike name here there) : (here = none ∧ there = none) ∨
      ∃ first second, (∃ cmd, Paired name first second cmd) ∧
        here = some first ∧ there = some second := by
  cases alike with
  | none => exact .inl ⟨rfl, rfl⟩
  | some paired => exact .inr ⟨_, _, paired, rfl, rfl⟩

namespace Usage.Paired

variable {name : String} {first second : Usage} {cmd : Command}

/-- A member function that does the same in both classes. -/
theorem onCommand (paired : Paired name first second cmd) {change : Command → Command}
    (declared : (change cmd).commandClass = cmd.commandClass ∧
      (change cmd).numArg = cmd.numArg ∧ (change cmd).name = cmd.name ∧
      (change cmd).owner = cmd.owner)
    (commutes : change cmd.withoutArgs = (change cmd).withoutArgs) :
    Paired name (first.withManager (first.manager.onCommand name change))
      (second.withManager (second.manager.onCommand name change)) (change cmd) where
  here := by
    have entry : first.manager.commands.lookup name = some cmd := paired.here
    simp [withManager, CommandManager.onCommand, CommandManager.getCommand, entry]
  there := by
    have entry : second.manager.commands.lookup name = some cmd.withoutArgs := paired.there
    simp [withManager, CommandManager.onCommand, CommandManager.getCommand, entry, commutes]
  typed := declared.1.trans paired.typed
  numArg := declared.2.1.trans paired.numArg
  named := declared.2.2.1.trans paired.named
  owned := declared.2.2.2.trans paired.owned
  owner := paired.owner
  level := paired.level
  runs := paired.runs

/-- Another level on both sides, after the same runs. -/
theorem changeLevel (paired : Paired name first second cmd) (level : UInt32)
    (runs : List (List String)) :
    Paired name (first.called ⟨first.manager.changeLevel level, runs⟩)
      (second.called ⟨second.manager.changeLevel level, runs⟩) cmd :=
  { paired with
    level := rfl
    runs := congrArg (· + runs.length) paired.runs }

/-- The same runs on both sides. -/
theorem again (paired : Paired name first second cmd) (runs : List (List String)) :
    Paired name (first.called ⟨first.manager, runs⟩) (second.called ⟨second.manager, runs⟩)
      cmd :=
  { paired with runs := congrArg (· + runs.length) paired.runs }

/-- Nothing can be told apart. -/
theorem view (paired : Paired name first second cmd) : first.view name = second.view name := by
  simp [Usage.view, paired.here, paired.there, paired.level, paired.runs, Command.withoutArgs]

/-- A pass of the level watcher. -/
theorem verifyLevel (paired : Paired name first second cmd) :
    Paired name (first.withManager first.manager.verifyLevel)
      (second.withManager second.manager.verifyLevel)
      (cmd.verifyLevel first.manager.level) := by
  have declaration := cmd.verifyLevel_declaration first.manager.level
  have found : first.manager.commands.lookup name = some cmd := paired.here
  have foundThere : second.manager.commands.lookup name = some cmd.withoutArgs := paired.there
  refine ⟨?_, ?_, ?_, ?_, ?_, ?_, paired.owner, paired.level, paired.runs⟩
  · simp [withManager, CommandManager.getCommand, CommandManager.verifyLevel, found]
  · simp [withManager, CommandManager.getCommand, CommandManager.verifyLevel, foundThere,
      paired.level]
  · exact (congrArg Declaration.commandClass declaration).trans paired.typed
  · exact (congrArg Declaration.numArg declaration).trans paired.numArg
  · exact (congrArg Declaration.name declaration).trans paired.named
  · exact (congrArg Declaration.owner declaration).trans paired.owned

/-- A message without arguments that finds the reader. -/
theorem receive_none {manager : CommandManager} (unread : cmd.ddslink = none)
    (msg : CommandCall) : cmd.receive manager msg = some ⟨manager, []⟩ := by
  simp [Command.receive, unread]

theorem step_remoteCall {usage : Usage} (found : usage.manager.getCommand name = some cmd) :
    usage.step name .remoteCall =
      (cmd.receive usage.manager
        (CommandManager.sendMessage (name, usage.manager.owner) [])).map usage.called := by
  simp only [step, found, Option.bind_eq_bind, Option.bind_some]
  exact Option.map_eq_bind.symm

/-- A remote call runs the callback of either class, and changes the level alike. -/
theorem remoteCall (paired : Paired name first second cmd) :
    Alike name (first.step name .remoteCall) (second.step name .remoteCall) := by
  have named := paired.named
  subst named
  rw [step_remoteCall paired.here, step_remoteCall paired.there, paired.owner, ← paired.owned]
  cases reader : cmd.ddslink with
  | none =>
    have unread : cmd.withoutArgs.ddslink = none := reader
    rw [receive_none reader, receive_none unread]
    exact .some ⟨cmd, paired.again []⟩
  | some link =>
    rw [Command.receive_run paired.typed paired.numArg (by simp [reader]),
      Command.receive_withoutArgs (by simp [reader]), Command.run, Command.run, paired.level]
    cases cmd.f [] with
    | false => exact .some ⟨cmd, paired.again [[]]⟩
    | true =>
      cases cmd.getNextLevel first.manager.level with
      | none => exact .none
      | some next => exact .some ⟨cmd, paired.changeLevel next.toUInt32 [[]]⟩

/-- A local call of a command that is not discovered. -/
theorem step_localCall_absent {usage : Usage} (found : usage.manager.getCommand name = some cmd)
    (unread : cmd.ddslink = none) :
    usage.step name .localCall = some (usage.called ⟨usage.manager, []⟩) := by
  have absent : usage.discovered name = [] := by simp [discovered, found, unread]
  simp [step, absent, CommandManager.callCommand, CommandManager.cmdList, CommandManager.find,
    CommandManager.findByName]

/-- A local call of a command that is discovered goes to the manager's own. -/
theorem step_localCall {usage : Usage} (found : usage.manager.getCommand name = some cmd)
    (reader : cmd.ddslink.isSome = true) :
    usage.step name .localCall = (usage.manager.callOwn name []).map usage.called := by
  have present : usage.discovered name = [(name, usage.manager.owner)] := by
    simp [discovered, found, reader]
  have meant : CommandManager.cmdList (usage.discovered name) name [] usage.manager.owner =
      ([(name, usage.manager.owner)], []) := by
    simp [CommandManager.cmdList, CommandManager.find, CommandManager.findByName, present]
  simp only [step, CommandManager.callCommand, meant, if_true, Option.bind_eq_bind]
  rw [Option.bind_map]
  exact Option.map_eq_bind.symm

/-- Without a level to go on to, a local call dereferences an end iterator in either
class. -/
theorem callOwn_none {manager : CommandManager} (found : manager.getCommand name = some cmd)
    (stuck : cmd.getNextLevel manager.level = none) : manager.callOwn name [] = none := by
  simp only [CommandManager.callOwn, found, Option.bind_eq_bind, Option.bind_some,
    Option.bind_eq_none_iff]
  rintro ⟨result, called⟩ taken next again
  have unchanged : called.manager = manager := by
    cases typed : cmd.commandClass with
    | commandWithoutArgs =>
      simp only [Command.callWith, typed, Option.some.injEq, Prod.mk.injEq] at taken
      rw [← taken.2]
    | command =>
      have expects := congrArg (Option.map Prod.snd) taken
      rw [Command.callWith_eq typed] at expects
      exact Command.expected_manager stuck expects
  simp only [unchanged, stuck] at again
  cases again

/-- Every operation that does the same in both classes keeps the commands paired. -/
theorem step (paired : Paired name first second cmd) {operation : CommandOperation}
    (shared : first.Shared name operation) :
    Alike name (first.step name operation) (second.step name operation) := by
  cases operation with
  | setEnabled =>
    simp only [Usage.step, CommandManager.step, paired.here, paired.there, Option.map_some]
    exact .some ⟨_, paired.onCommand (by simp) (setEnabled_withoutArgs cmd)⟩
  | setDisabled =>
    have unchanged := setDisabled_withoutArgs paired.typed (shared cmd paired.here)
    simp only [Usage.step, CommandManager.step, paired.here, paired.there, Option.map_some]
    exact .some ⟨_, paired.onCommand (by simp) unchanged⟩
  | activate => exact .some ⟨_, paired.onCommand (by simp) (activate_withoutArgs cmd)⟩
  | deactivate => exact .some ⟨_, paired.onCommand (by simp) (deactivate_withoutArgs cmd)⟩
  | changeLevel level => exact .some ⟨cmd, paired.changeLevel level []⟩
  | verifyLevel => exact .some ⟨_, paired.verifyLevel⟩
  | callback f => exact .some ⟨_, paired.onCommand ⟨rfl, rfl, rfl, rfl⟩ rfl⟩
  | remoteCall => exact paired.remoteCall
  | localCall =>
    cases reader : cmd.ddslink with
    | none =>
      have unread : cmd.withoutArgs.ddslink = none := reader
      rw [step_localCall_absent paired.here reader, step_localCall_absent paired.there unread]
      exact .some ⟨cmd, paired.again []⟩
    | some link =>
      have stuck : cmd.getNextLevel first.manager.level = none := by
        simpa [reader] using shared cmd paired.here
      have stuckThere : cmd.withoutArgs.getNextLevel second.manager.level = none := by
        rw [paired.level]
        exact stuck
      have readerThere : cmd.withoutArgs.ddslink = some link := reader
      rw [step_localCall paired.here (by simp [reader]),
        step_localCall paired.there (by simp [readerThere]), callOwn_none paired.here stuck,
        callOwn_none paired.there stuckThere]
      exact .none

/-- A local call of a `Command<>` that has a level to go on to runs the callback, where it
returns. -/
theorem callOwn_runs {manager : CommandManager} {called : Called}
    (found : manager.getCommand name = some cmd) (typed : cmd.commandClass = .command)
    (numArg : cmd.numArg = 0) (own : manager.callOwn name [] = some called) :
    called.runs = [[]] := by
  simp only [CommandManager.callOwn, found, Option.bind_eq_bind, Option.bind_some,
    Option.bind_eq_some_iff] at own
  obtain ⟨⟨result, between⟩, taken, next, again, returned⟩ := own
  have expects := congrArg (Option.map Prod.snd) taken
  rw [Command.callWith_eq typed] at expects
  have runs := Command.runs_of_expected expects
  rw [List.length_nil, numArg] at runs
  cases returned
  exact runs

/-- A local call of a `CommandWithoutArgs` never runs the callback. -/
theorem callOwn_withoutArgs {manager : CommandManager} {next : Int32}
    (found : manager.getCommand name = some cmd.withoutArgs)
    (leads : cmd.getNextLevel manager.level = some next) :
    manager.callOwn name [] = some ⟨manager.changeLevel next.toUInt32, []⟩ := by
  have leadsThere : cmd.withoutArgs.getNextLevel manager.level = some next := leads
  have untyped : cmd.withoutArgs.commandClass = .commandWithoutArgs := rfl
  simp [CommandManager.callOwn, found, Command.callWith, untyped, leadsThere]

/-- An operation that does not do the same in both classes shows a difference at once. -/
theorem parts (paired : Paired name first second cmd) {operation : CommandOperation}
    (differ : ¬ first.Shared name operation) :
    (first.step name operation).map (Usage.view name) ≠
      (second.step name operation).map (Usage.view name) := by
  cases operation with
  | setDisabled =>
    have enabled : cmd.enabled = true := by
      simpa [Shared, paired.here] using differ
    have found : first.manager.commands.lookup name = some cmd := paired.here
    have foundThere : second.manager.commands.lookup name = some cmd.withoutArgs := paired.there
    have cleared : cmd.setDisabled.enabled = false := by
      rw [Command.setDisabled_eq, paired.typed]
    have kept : cmd.withoutArgs.setDisabled.enabled = true := by
      rw [Command.setDisabled_eq]
      exact enabled
    simp [Usage.step, CommandManager.step, CommandManager.getCommand, CommandManager.onCommand,
      Usage.view, withManager, found, foundThere, cleared, kept]
  | localCall =>
    have apart : cmd.ddslink.isSome = true ∧ (cmd.getNextLevel first.manager.level).isSome := by
      simpa [Shared, paired.here, Option.isSome_iff_ne_none] using differ
    obtain ⟨reader, leads⟩ := apart
    obtain ⟨next, leads⟩ := Option.isSome_iff_exists.mp leads
    have readerThere : cmd.withoutArgs.ddslink.isSome = true := reader
    rw [← paired.level] at leads
    rw [step_localCall paired.here reader, step_localCall paired.there readerThere,
      callOwn_withoutArgs paired.there leads]
    cases own : first.manager.callOwn name [] with
    | none =>
      have there : second.manager.commands.lookup name = some cmd.withoutArgs := paired.there
      simp [Usage.view, Usage.called, CommandManager.getCommand, CommandManager.changeLevel, there]
    | some called =>
      have runs := callOwn_runs paired.here paired.typed paired.numArg own
      have there : second.manager.commands.lookup name = some cmd.withoutArgs := paired.there
      -- the callback has been run once more on the first side only
      simp only [Option.map_some, ne_eq, Option.some.injEq, Usage.view, Usage.called,
        CommandManager.getCommand, CommandManager.changeLevel, there, runs, paired.runs]
      cases called.manager.commands.lookup name <;> simp
  | _ => exact absurd trivial differ

end Usage.Paired

namespace Usage.Paired

variable {name : String}

/-- Operations keep telling nothing apart as long as each does the same in both classes, and
the first that does not shows a difference. -/
theorem agreeFrom_iff (start other : Usage) {first second : Usage} {cmd : Command}
    (paired : Paired name first second cmd) (operations : List CommandOperation) :
    (∀ before after, operations = before ++ after →
      ((Usage.system name start).runFrom first before).map (Usage.view name) =
        ((Usage.system name other).runFrom second before).map (Usage.view name)) ↔
      (Usage.system name start).AdmitsFrom (Usage.Shared name) first operations := by
  induction operations generalizing first second cmd with
  | nil =>
    refine iff_of_true ?_ trivial
    intro before after split
    obtain ⟨rfl, rfl⟩ := List.append_eq_nil_iff.mp split.symm
    simp [paired.view]
  | cons operation rest ih =>
    have here : (Usage.system name start).step first operation = first.step name operation := rfl
    have there : (Usage.system name other).step second operation = second.step name operation :=
      rfl
    by_cases shared : first.Shared name operation
    · rcases (paired.step shared).cases with
        ⟨stuck, alsoStuck⟩ | ⟨next, last, ⟨after, still⟩, taken, alsoTaken⟩
      · refine iff_of_true ?_ ⟨shared, ?_⟩
        · intro before after split
          cases before with
          | nil => simp [paired.view]
          | cons head before =>
            obtain ⟨rfl, _⟩ := List.cons.inj split
            simp [here, there, stuck, alsoStuck]
        · simp [here, stuck]
      · have later := ih still
        constructor
        · intro agree
          refine ⟨shared, ?_⟩
          simp only [here, taken, Option.mem_some_iff, forall_eq']
          apply later.mp
          intro before after split
          simpa [here, there, taken, alsoTaken] using
            agree (operation :: before) after (by simp [split])
        · rintro ⟨_, admitted⟩ before after split
          cases before with
          | nil => simp [paired.view]
          | cons head before =>
            obtain ⟨rfl, ahead⟩ := List.cons.inj split
            simpa [here, there, taken, alsoTaken] using
              later.mpr (admitted next taken) before after ahead
    · refine iff_of_false ?_ fun admitted => shared admitted.1
      intro agree
      apply paired.parts shared
      simpa [here, there] using agree [operation] rest rfl

/-- Registered under a free name, the two commands are paired. -/
theorem registered (manager : CommandManager) (f : List String → Bool) (level : LevelType)
    (enabled : Bool) (free : manager.getCommand name = none) :
    ∃ cmd, Paired name (Usage.command manager name f level enabled)
      (Usage.commandWithoutArgs manager name f level enabled) cmd := by
  have untyped : Command.commandWithoutArgs name manager.owner f level enabled =
      (Command.command name manager.owner 0 f level enabled).withoutArgs := rfl
  have available : (Command.command name manager.owner 0 f level enabled).withoutArgs.testLevel
      manager.level = (Command.command name manager.owner 0 f level enabled).testLevel
      manager.level := rfl
  let cmd := Command.command name manager.owner 0 f level enabled
  refine ⟨if cmd.testLevel manager.level then cmd.activate else cmd, ?_, ?_, ?_, ?_, ?_, ?_, rfl,
    rfl, rfl⟩
  · simp [Usage.command, CommandManager.getCommand_addCommand, free, cmd]
  · simp only [Usage.commandWithoutArgs, CommandManager.getCommand_addCommand, free, untyped,
      available, activate_withoutArgs, Option.none_or, if_true, cmd]
    split <;> rfl
  all_goals
    split <;> simp [cmd, Command.command, Usage.command, CommandManager.addCommand]

end Usage.Paired

/-- A `Command<>` and a `CommandWithoutArgs` registered with the same data cannot be told apart
exactly as long as an enabled command is not disabled, and no local call finds the command
with a level to go on to. -/
theorem agreeAlong_iff_shared (manager : CommandManager) (name : String)
    (f : List String → Bool) (level : LevelType) (enabled : Bool)
    (free : manager.getCommand name = none) (operations : List CommandOperation) :
    AgreeAlong name (Usage.command manager name f level enabled)
        (Usage.commandWithoutArgs manager name f level enabled) operations ↔
      (Usage.system name (Usage.command manager name f level enabled)).AdmitsFrom
        (Usage.Shared name) (Usage.command manager name f level enabled) operations := by
  obtain ⟨cmd, paired⟩ := Usage.Paired.registered manager f level enabled free
  exact paired.agreeFrom_iff _ _ operations

/-- Passes and remote calls at any levels. -/
theorem agreeAlong_iff_shared_remote :
    AgreeAlong "stand"
      (Usage.command (.new "robot") "stand" (fun _ => true) (AList.singleton 0 1) true)
      (Usage.commandWithoutArgs (.new "robot") "stand" (fun _ => true) (AList.singleton 0 1) true)
      [.remoteCall, .verifyLevel, .setEnabled] :=
  (agreeAlong_iff_shared (.new "robot") "stand" (fun _ => true) (AList.singleton 0 1) true rfl
    _).mpr
    ⟨trivial, fun _ _ => ⟨trivial, fun _ _ => ⟨trivial, fun _ _ => trivial⟩⟩⟩

/-- Disabling an enabled `CommandWithoutArgs` has no effect. -/
theorem not_agreeAlong_setDisabled :
    ¬ AgreeAlong "stand"
      (Usage.command (.new "robot") "stand" (fun _ => true) (AList.singleton 0 1) true)
      (Usage.commandWithoutArgs (.new "robot") "stand" (fun _ => true) (AList.singleton 0 1) true)
      [.setDisabled] := by
  intro agree
  have same := agree [.setDisabled] [] rfl
  revert same
  decide

end Dls2.Commands
