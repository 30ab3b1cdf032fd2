import Dls2.Application.Requests
import Dls2.Commands.CallCommand

/-!
# The commands of a periodic application

`App` registers the commands that take an application through its states, and
`PeriodicApp` adds `pause` and `continue`. All of them, and those that a layer adds,
share the level of one command manager. The activities enable and disable the first
ones on their way; nothing else connects the level to the state machine.

A command is executed as a whole, together with the pass of the level watcher that
follows it. Between two commands the application thread goes on step by step. A command
of a layer changes the level only: requests that its callback raises are steps of their
own.
-/

namespace Dls2.Application

open Dls2.Commands Dls2.StateMachine Dls2.Transition

/-- The names, transition sets and enabled bits in the constructors of `App` and
`PeriodicApp`. -/
def constructorCommands : List (String × LevelType × Bool) :=
  [("shutdown", ∅, true),
   ("where", ∅, true),
   ("activate", AList.singleton 0 1, false),
   ("stopActivation", AList.singleton 1 0, false),
   ("deactivate", AList.singleton allStatesExceptZero 0, false),
   ("pause", AList.singleton 0 1, true),
   ("continue", AList.singleton 1 0, true)]

/-- The command manager of a constructed application. All callbacks return `true`. -/
def constructorManager (owner : String) : CommandManager :=
  constructorCommands.foldl (fun manager (name, level, enabled) =>
    manager.addCommand name (.command name owner 0 (fun _ => true) level enabled)) (.new owner)

/-- What the callbacks of these commands do to the application; `where` prints. -/
def callback : String → Option AppLabel
  | "shutdown" => some (.request .quitRequest)
  | "activate" => some (.request .activationRequest)
  | "stopActivation" => some (.request .stopActivation)
  | "deactivate" => some (.request .deactivationRequest)
  | "pause" => some .pause
  | "continue" => some .resume
  | _ => none

/-- The application after the callback of a name has run. -/
def afterCallback (app : App) (name : String) : App :=
  ((callback name).bind (appStep .periodic app)).getD app

/-- A call of `setEnabled` or `setDisabled` by an activity. -/
structure Upkeep where
  name : String
  enabled : Bool
deriving DecidableEq, Repr

def Upkeep.label : Upkeep → ManagerLabel
  | ⟨name, true⟩ => .setEnabled name
  | ⟨name, false⟩ => .setDisabled name

/-- What the thread does to the commands between two places, before it goes on. Each
group ends in a call of `triggerLevelWatcher`. -/
def upkeep : Pc → Pc → List Upkeep
  -- App::idle
  | .dispatch, .idleWait => [⟨"activate", true⟩]
  -- App::activation
  | .dispatch, .activationGuardStop => [⟨"stopActivation", true⟩]
  | .activationExit true, _ =>
    [⟨"activate", false⟩, ⟨"stopActivation", false⟩, ⟨"deactivate", true⟩]
  | .activationExit false, .consume .stopActivation => [⟨"stopActivation", false⟩]
  -- App::deactivation
  | .deactivationTestQuit _, .lookup .deactivated => [⟨"deactivate", false⟩]
  | _, _ => []

/-- The next step of the thread writes RUN. -/
def Pc.entersRun : Pc → Bool
  | .write _ (some .run) => true
  | _ => false

/-- An application, its command manager, and what its thread is still to do to the
commands. -/
structure CommandedApp where
  app : App
  manager : CommandManager
  pending : List Upkeep

inductive CommandedLabel where
  /-- A step of the application thread. -/
  | thread (result : Bool)
  /-- A command is executed; `read` is found past the end of its transition set. -/
  | execute (name : String) (args : List String) (read : UInt32)
  /-- A pass of the level watcher. -/
  | verifyLevel
  /-- A `raiseEvent` call that no command of the constructors makes. -/
  | request (event : AppEvent)
  | setFailure
  | addCommand (name : String) (numArg : Nat) (f : List String → Bool) (level : LevelType)
      (enabled : Bool)
  | addCommandWithoutArgs (name : String) (f : List String → Bool) (level : LevelType)
      (enabled : Bool)

namespace CommandedApp

/-- A constructed application. -/
def new (owner : String) : CommandedApp := ⟨App.new, constructorManager owner, []⟩

/-- The command of a name is enabled and its transition set admits the level. -/
def available (commanded : CommandedApp) (name : String) : Bool :=
  (commanded.manager.getCommand name).any fun cmd =>
    cmd.enabled && cmd.testLevel commanded.manager.level

/-- An available command can be executed, and one that has kept its reader. -/
def executable (commanded : CommandedApp) (name : String) : Bool :=
  commanded.available name || (commanded.manager.getCommand name).any Command.active

/-- A call with the pass that follows it. -/
def execute (commanded : CommandedApp) (name : String) (cmd : Command) (args : List String)
    (read : UInt32) : CommandedApp :=
  let called := cmd.deliver commanded.manager args read
  { commanded with
    app := if called.runs.isEmpty then commanded.app else afterCallback commanded.app name
    manager := called.manager.verifyLevel }

/-- The thread goes on when it has nothing left to do to the commands. -/
def thread (commanded : CommandedApp) (result : Bool) : Option CommandedApp :=
  match commanded.pending with
  | [] => (commanded.app.step .periodic result).map fun app =>
      { commanded with app := app, pending := upkeep commanded.app.pc app.pc }
  | first :: rest => (commanded.manager.step first.label).map fun manager =>
      { commanded with manager := manager, pending := rest }

def step (commanded : CommandedApp) : CommandedLabel → Option CommandedApp
  | .thread result => commanded.thread result
  | .execute name args read =>
    if commanded.executable name then
      (commanded.manager.getCommand name).map fun cmd => commanded.execute name cmd args read
    else none
  | .verifyLevel => some { commanded with manager := commanded.manager.verifyLevel }
  | .request event => (appStep .periodic commanded.app (.request event)).map fun app =>
      { commanded with app := app }
  | .setFailure => (appStep .periodic commanded.app .setFailure).map fun app =>
      { commanded with app := app }
  | .addCommand name numArg f level enabled =>
    (commanded.manager.step (.addCommand name numArg f level enabled)).map fun manager =>
      { commanded with manager := manager }
  | .addCommandWithoutArgs name f level enabled =>
    (commanded.manager.step (.addCommandWithoutArgs name f level enabled)).map fun manager =>
      { commanded with manager := manager }

/-- The application is in RUN. -/
def Running (commanded : CommandedApp) : Prop := commanded.app.sm.state = some .run

/-- What a user can do while the application runs. -/
structure Usable (commanded : CommandedApp) : Prop where
  deactivate : commanded.available "deactivate" = true
  pause : commanded.app.isPaused = false → commanded.available "pause" = true
  resume : commanded.app.isPaused = true → commanded.available "continue" = true

/-- Paused at level one. -/
def PausedAtOne (commanded : CommandedApp) : Prop :=
  commanded.app.isPaused = true ∧ commanded.manager.level = 1

/-- RUN is entered only by an application paused at level one, and there no command ends
the pause or leads to another level. -/
def StaysPaused (commanded : CommandedApp) : CommandedLabel → Prop
  | .thread _ =>
    commanded.pending = [] → commanded.app.pc.entersRun = true → commanded.PausedAtOne
  | .execute name args read => commanded.Running →
      ∀ cmd ∈ commanded.manager.getCommand name, ∀ given ∈ cmd.accepted args,
        name ≠ "continue" ∧
          (cmd.f given = true → cmd.nextLevelOr commanded.manager.level read = 1)
  | _ => True

instance (commanded : CommandedApp) : Decidable commanded.Running :=
  inferInstanceAs (Decidable (_ = _))

instance (commanded : CommandedApp) : Decidable commanded.PausedAtOne :=
  inferInstanceAs (Decidable (_ ∧ _))

instance (commanded : CommandedApp) (label : CommandedLabel) :
    Decidable (commanded.StaysPaused label) := by
  unfold StaysPaused
  split <;> infer_instance

end CommandedApp

def commandedSystem (owner : String) : System CommandedApp CommandedLabel where
  initial := CommandedApp.new owner
  step := CommandedApp.step

/-! ### The commands of the constructors -/

/-- There is a command of the name with the transition set. -/
def HasSet (manager : CommandManager) (name : String) (level : LevelType) : Prop :=
  ∃ cmd, manager.getCommand name = some cmd ∧ cmd.transitionSet = level

/-- There is a command of the name, and it is enabled. -/
def IsEnabled (manager : CommandManager) (name : String) : Prop :=
  ∃ cmd, manager.getCommand name = some cmd ∧ cmd.enabled = true

theorem HasSet.kept {disabled : Prop} {manager next : CommandManager} {name : String}
    {level : LevelType} (has : HasSet manager name level)
    (kept : CommandManager.Kept disabled name manager next) : HasSet next name level := by
  obtain ⟨cmd, entry, set⟩ := has
  obtain ⟨after, found, _, same, _⟩ := kept cmd entry
  exact ⟨after, found, same.trans set⟩

theorem IsEnabled.kept {disabled : Prop} {manager next : CommandManager} {name : String}
    (enabled : IsEnabled manager name) (kept : CommandManager.Kept disabled name manager next)
    (spared : ¬ disabled) : IsEnabled next name := by
  obtain ⟨cmd, entry, was⟩ := enabled
  obtain ⟨after, found, _, _, still⟩ := kept cmd entry
  exact ⟨after, found, still spared was⟩

/-- An enabled command is available where its transition set admits the level. -/
theorem available_eq {commanded : CommandedApp} {name : String} {level : LevelType}
    (has : HasSet commanded.manager name level) (enabled : IsEnabled commanded.manager name) :
    commanded.available name = level.testLevel commanded.manager.level := by
  obtain ⟨cmd, entry, rfl⟩ := has
  obtain ⟨other, same, was⟩ := enabled
  obtain rfl : cmd = other := Option.some.inj (entry.symm.trans same)
  simp [CommandedApp.available, entry, was, Command.testLevel]

/-- The transition sets of `deactivate`, `pause` and `continue` are those of the
constructors. -/
structure Furnished (manager : CommandManager) : Prop where
  deactivate : HasSet manager "deactivate" (AList.singleton allStatesExceptZero 0)
  pause : HasSet manager "pause" (AList.singleton 0 1)
  resume : HasSet manager "continue" (AList.singleton 1 0)
  pauseEnabled : IsEnabled manager "pause"
  resumeEnabled : IsEnabled manager "continue"

/-- Entering a command into the map changes neither its transition set nor its bit. -/
theorem hasSet_entered {manager : CommandManager} {name : String} {cmd : Command}
    {level : UInt32} (entry : manager.getCommand name =
      some (if cmd.testLevel level then cmd.activate else cmd)) :
    HasSet manager name cmd.transitionSet ∧
      (cmd.enabled = true → IsEnabled manager name) := by
  split at entry
  · exact ⟨⟨_, entry, by simp⟩, fun enabled => ⟨_, entry, by simpa using enabled⟩⟩
  · exact ⟨⟨_, entry, rfl⟩, fun enabled => ⟨_, entry, enabled⟩⟩

/-- Commands added one after the other: the first one of a name that was free stays. -/
theorem getCommand_foldl (owner : String) (commands : List (String × LevelType × Bool))
    (manager : CommandManager) (name : String) :
    (commands.foldl (fun manager (name, level, enabled) =>
      manager.addCommand name (.command name owner 0 (fun _ => true) level enabled))
        manager).getCommand name =
      (manager.getCommand name).or ((commands.lookup name).map fun (level, enabled) =>
        let cmd := Command.command name owner 0 (fun _ => true) level enabled
        if cmd.testLevel manager.level then cmd.activate else cmd) := by
  induction commands generalizing manager with
  | nil => simp
  | cons first rest ih =>
    obtain ⟨other, level, enabled⟩ := first
    rw [List.foldl_cons, ih, CommandManager.getCommand_addCommand, Option.or_assoc]
    by_cases same : name = other
    · subst same
      simp
    · rw [if_neg same, Option.none_or, List.lookup_cons, beq_eq_false_iff_ne.mpr same,
        CommandManager.addCommand_level]

theorem furnished_new (owner : String) : Furnished (constructorManager owner) := by
  have entered := getCommand_foldl owner constructorCommands (.new owner)
  have deactivate := hasSet_entered (entered "deactivate")
  have pause := hasSet_entered (entered "pause")
  have resume := hasSet_entered (entered "continue")
  exact ⟨deactivate.1, pause.1, resume.1, pause.2 rfl, resume.2 rfl⟩

/-- Nothing disables `pause` and `continue`. -/
theorem Furnished.kept {disabled : String → Prop} {manager next : CommandManager}
    (furnished : Furnished manager)
    (kept : ∀ name, CommandManager.Kept (disabled name) name manager next)
    (pause : ¬ disabled "pause") (resume : ¬ disabled "continue") : Furnished next where
  deactivate := furnished.deactivate.kept (kept _)
  pause := furnished.pause.kept (kept _)
  resume := furnished.resume.kept (kept _)
  pauseEnabled := furnished.pauseEnabled.kept (kept _) pause
  resumeEnabled := furnished.resumeEnabled.kept (kept _) resume

/-- While `deactivate` is enabled, the three levels that matter are zero, one and any
other: only a paused application at level one can be used as it should. -/
theorem usable_iff {commanded : CommandedApp} (furnished : Furnished commanded.manager)
    (enabled : IsEnabled commanded.manager "deactivate") :
    commanded.Usable ↔ commanded.PausedAtOne := by
  have apart : (0 : UInt32) ≠ allStatesExceptZero ∧ (1 : UInt32) ≠ allStatesExceptZero := by decide
  have deactivate := available_eq furnished.deactivate enabled
  have pause : commanded.available "pause" = true ↔ commanded.manager.level = 0 := by
    rw [available_eq furnished.pause furnished.pauseEnabled, LevelType.testLevel_singleton]
    simp [apart.1]
  have resume : commanded.available "continue" = true ↔ commanded.manager.level = 1 := by
    rw [available_eq furnished.resume furnished.resumeEnabled, LevelType.testLevel_singleton]
    simp [apart.2]
  constructor
  · intro usable
    cases paused : commanded.app.isPaused with
    | false =>
      -- `pause` is available at level zero only, and there `deactivate` is not
      have zero := pause.mp (usable.pause paused)
      have admits := deactivate.symm.trans usable.deactivate
      rw [zero] at admits
      exact absurd admits (by decide)
    | true => exact ⟨paused, resume.mp (usable.resume paused)⟩
  · rintro ⟨paused, level⟩
    constructor
    case deactivate =>
      rw [deactivate, level]
      decide
    case pause => simp [paused]
    case resume => exact fun _ => resume.mpr level

/-! ### One step -/

/-- No callback moves the thread or the state machine. -/
theorem afterCallback_same (app : App) (name : String) :
    (afterCallback app name).pc = app.pc ∧
      (afterCallback app name).sm.state = app.sm.state := by
  unfold afterCallback callback
  split <;> simp [appStep, AppEvent.isAsync]

/-- Only that of `continue` ends a pause. -/
theorem afterCallback_isPaused {app : App} (paused : app.isPaused = true) (name : String) :
    (afterCallback app name).isPaused = true ↔ name ≠ "continue" := by
  unfold afterCallback callback
  split <;> simp_all [appStep, AppEvent.isAsync]

namespace CommandedApp

variable {commanded next : CommandedApp}

/-- The thread stays where it is, and no command is disabled. -/
structure Beside (commanded next : CommandedApp) : Prop where
  pc : next.app.pc = commanded.app.pc
  state : next.app.sm.state = commanded.app.sm.state
  pending : next.pending = commanded.pending
  kept : ∀ name, CommandManager.Kept False name commanded.manager next.manager

theorem beside_execute (commanded : CommandedApp) (name : String) (cmd : Command)
    (args : List String) (read : UInt32) :
    Beside commanded (commanded.execute name cmd args read) := by
  have kept : ∀ other, CommandManager.Kept False other commanded.manager
      (commanded.execute name cmd args read).manager := by
    intro other
    refine .trans ?_ .verifyLevel
    rw [Command.deliver_eq]
    split
    · exact .refl False other _
    · dsimp only
      split
      · exact .changeLevel _
      · exact .refl False other _
  have same := afterCallback_same commanded.app name
  constructor
  case pc =>
    unfold execute
    dsimp only
    split
    · rfl
    · exact same.1
  case state =>
    unfold execute
    dsimp only
    split
    · rfl
    · exact same.2
  case pending => rfl
  case kept => exact kept

/-- What a step does, sorted by who takes it. -/
inductive Effect (commanded : CommandedApp) : CommandedLabel → CommandedApp → Prop where
  | thread {result : Bool} {app : App} (idle : commanded.pending = [])
      (steps : commanded.app.step .periodic result = some app) :
      Effect commanded (.thread result)
        { commanded with app := app, pending := upkeep commanded.app.pc app.pc }
  | upkeep {result : Bool} {first : Upkeep} {rest : List Upkeep} {manager : CommandManager}
      (pending : commanded.pending = first :: rest)
      (steps : commanded.manager.step first.label = some manager) :
      Effect commanded (.thread result)
        { commanded with manager := manager, pending := rest }
  | execute {name : String} {cmd : Command} {args : List String} {read : UInt32}
      (entry : commanded.manager.getCommand name = some cmd) :
      Effect commanded (.execute name args read) (commanded.execute name cmd args read)
  | surroundings {label : CommandedLabel} {app : App} {manager : CommandManager}
      (reached : app = commanded.app ∨ ∃ label, appStep .periodic commanded.app label = some app)
      (paused : app.isPaused = commanded.app.isPaused)
      (level : manager.level = commanded.manager.level)
      (beside : Beside commanded { commanded with app := app, manager := manager }) :
      Effect commanded label { commanded with app := app, manager := manager }

/-- Every step has one of these effects. -/
theorem effect_of_step {label : CommandedLabel} (taken : commanded.step label = some next) :
    Effect commanded label next := by
  cases label with
  | thread result =>
    simp only [step, thread] at taken
    split at taken
    · obtain ⟨app, steps, rfl⟩ := Option.map_eq_some_iff.mp taken
      exact .thread ‹_› steps
    · obtain ⟨manager, steps, rfl⟩ := Option.map_eq_some_iff.mp taken
      exact .upkeep ‹_› steps
  | execute name args read =>
    obtain ⟨_, runs⟩ := Option.ite_none_right_eq_some.mp taken
    obtain ⟨cmd, entry, rfl⟩ := Option.map_eq_some_iff.mp runs
    exact .execute entry
  | verifyLevel =>
    obtain rfl := Option.some.inj taken
    exact .surroundings (.inl rfl) rfl rfl ⟨rfl, rfl, rfl, fun _ => .verifyLevel⟩
  | request event =>
    obtain ⟨app, raised, rfl⟩ := Option.map_eq_some_iff.mp taken
    have reached : ∃ label, appStep .periodic commanded.app label = some app := ⟨_, raised⟩
    cases appStep_cases raised with
    | request async =>
      exact .surroundings (.inr reached) rfl rfl
        ⟨rfl, by simp, rfl, fun name => .refl False name _⟩
  | setFailure =>
    obtain rfl := Option.some.inj taken
    exact .surroundings (.inr ⟨.setFailure, rfl⟩) rfl rfl
      ⟨rfl, rfl, rfl, fun name => .refl False name _⟩
  | addCommand name numArg f level enabled =>
    obtain rfl := Option.some.inj taken
    exact .surroundings (.inl rfl) rfl rfl ⟨rfl, rfl, rfl, fun _ => .addCommand name _⟩
  | addCommandWithoutArgs name f level enabled =>
    obtain rfl := Option.some.inj taken
    exact .surroundings (.inl rfl) rfl rfl ⟨rfl, rfl, rfl, fun _ => .addCommand name _⟩

/-- A step is one of the application or does not touch it. -/
theorem simulates_step {label : CommandedLabel} (taken : commanded.step label = some next) :
    next.app = commanded.app ∨ ∃ label, appStep .periodic commanded.app label = some next.app := by
  cases effect_of_step taken with
  | thread idle steps => exact .inr ⟨.thread _, steps⟩
  | upkeep pending steps => exact .inl rfl
  | @execute name cmd args read entry =>
    unfold execute
    dsimp only
    split
    · exact .inl rfl
    · unfold afterCallback
      cases effect : (callback name).bind (appStep .periodic commanded.app) with
      | none => exact .inl rfl
      | some app =>
        obtain ⟨label, _, steps⟩ := Option.bind_eq_some_iff.mp effect
        exact .inr ⟨label, steps⟩
  | surroundings reached => exact reached

end CommandedApp

/-- The application of a reachable state is a reachable application. -/
theorem reachable_app {owner : String} {commanded : CommandedApp}
    (reachable : (commandedSystem owner).Reachable commanded) :
    (appSystem .periodic).Reachable commanded.app := by
  apply reachable.invariant (fun commanded => (appSystem .periodic).Reachable commanded.app)
  · exact .initial
  · intro before label after reached _ taken
    obtain same | ⟨label, steps⟩ := CommandedApp.simulates_step taken
    · rw [same]
      exact reached
    · exact .step reached trivial steps

/-- The constructors add their commands one after the other. -/
theorem reachable_foldl {owner : String} (commands : List (String × LevelType × Bool))
    {manager : CommandManager} (reachable : (CommandManager.system owner).Reachable manager) :
    (CommandManager.system owner).Reachable (commands.foldl (fun manager (name, level, enabled) =>
      manager.addCommand name (.command name owner 0 (fun _ => true) level enabled)) manager) := by
  induction commands generalizing manager with
  | nil => exact reachable
  | cons first rest ih =>
    obtain ⟨name, level, enabled⟩ := first
    have owned : manager.owner = owner := (CommandManager.Valid.of_reachable reachable).owned
    have taken : (CommandManager.system owner).step manager
        (.addCommand name 0 (fun _ => true) level enabled) = some (manager.addCommand name
          (.command name owner 0 (fun _ => true) level enabled)) := by
      simp [CommandManager.system, CommandManager.step, owned]
    exact ih (.step reachable trivial taken)

/-- A call changes the level or nothing, and the pass follows. -/
theorem reachable_execute {owner : String} {commanded : CommandedApp}
    (reachable : (CommandManager.system owner).Reachable commanded.manager) (name : String)
    (cmd : Command) (args : List String) (read : UInt32) :
    (CommandManager.system owner).Reachable (commanded.execute name cmd args read).manager := by
  have called : (CommandManager.system owner).Reachable
      (cmd.deliver commanded.manager args read).manager := by
    rw [Command.deliver_eq]
    split
    · exact reachable
    · dsimp only
      split
      · have changed (level : UInt32) : (CommandManager.system owner).step commanded.manager
            (.changeLevel level) = some (commanded.manager.changeLevel level) := rfl
        exact .step reachable trivial (changed _)
      · exact reachable
  have passed : (CommandManager.system owner).step (cmd.deliver commanded.manager args read).manager
      .verifyLevel = some (commanded.execute name cmd args read).manager := rfl
  exact .step called trivial passed

/-- The manager of a reachable state is a reachable manager. -/
theorem reachable_manager {owner : String} {commanded : CommandedApp}
    (reachable : (commandedSystem owner).Reachable commanded) :
    (CommandManager.system owner).Reachable commanded.manager := by
  apply reachable.invariant fun commanded =>
    (CommandManager.system owner).Reachable commanded.manager
  · exact reachable_foldl constructorCommands .initial
  intro before label after reached _ taken
  have operated : ∀ {operation : ManagerLabel} {manager : CommandManager},
      before.manager.step operation = some manager →
        (CommandManager.system owner).Reachable manager :=
    fun steps => .step reached trivial steps
  cases label with
  | thread result =>
    simp only [commandedSystem, CommandedApp.step, CommandedApp.thread] at taken
    split at taken
    · obtain ⟨_, _, rfl⟩ := Option.map_eq_some_iff.mp taken
      exact reached
    · obtain ⟨manager, steps, rfl⟩ := Option.map_eq_some_iff.mp taken
      exact operated steps
  | execute name args read =>
    obtain ⟨_, runs⟩ := Option.ite_none_right_eq_some.mp taken
    obtain ⟨cmd, _, rfl⟩ := Option.map_eq_some_iff.mp runs
    exact reachable_execute reached name cmd args read
  | verifyLevel =>
    obtain rfl := Option.some.inj taken
    have passed : before.manager.step .verifyLevel = some before.manager.verifyLevel := rfl
    exact operated passed
  | request event =>
    obtain ⟨_, _, rfl⟩ := Option.map_eq_some_iff.mp taken
    exact reached
  | setFailure =>
    obtain rfl := Option.some.inj taken
    exact reached
  | addCommand name numArg f level enabled =>
    obtain rfl := Option.some.inj taken
    have added : before.manager.step (.addCommand name numArg f level enabled) = some _ := rfl
    exact operated added
  | addCommandWithoutArgs name f level enabled =>
    obtain rfl := Option.some.inj taken
    have added : before.manager.step (.addCommandWithoutArgs name f level enabled) = some _ := rfl
    exact operated added

/-- After a pass of the level watcher the commands that are available have their readers. -/
theorem active_of_available {owner : String} {commanded next : CommandedApp}
    (reachable : (commandedSystem owner).Reachable commanded)
    (passes : commanded.step .verifyLevel = some next) {name : String}
    (available : next.available name = true) :
    (next.manager.getCommand name).any Command.active = true := by
  obtain rfl := Option.some.inj passes
  have passed : commanded.manager.verifyLevel.getCommand name =
      (commanded.manager.getCommand name).map (Command.verifyLevel commanded.manager.level) := by
    simp [CommandManager.getCommand, CommandManager.verifyLevel]
  simp only [CommandedApp.available, passed, Option.any_map] at available ⊢
  obtain ⟨cmd, entry, holds⟩ := (Option.any_eq_true _ _).mp available
  have valid := CommandManager.Valid.of_reachable (reachable_manager reachable)
  have linked := (valid.registered name cmd entry).linked
  have both : cmd.enabled = true ∧ cmd.testLevel commanded.manager.level = true := by
    simpa [Command.testLevel] using holds
  rw [entry, Option.any_some, linked.verifyLevel_eq, if_pos both.1]
  exact both.2

/-! ### The activities and the commands -/

/-- The thread is on its way from ACTIVATION to RUN. -/
def Pc.Entering (pc : Pc) : Prop :=
  pc = .lookup .activated ∨ ∃ target, pc = .write .activated target

/-- The activities leave `pause` and `continue` alone. -/
theorem upkeep_name {pc next : Pc} {task : Upkeep} (member : task ∈ upkeep pc next) :
    task.name ≠ "pause" ∧ task.name ≠ "continue" := by
  unfold upkeep at member
  split at member <;> simp only [List.mem_cons, List.not_mem_nil, or_false] at member
  case h_3 => obtain rfl | rfl | rfl := member <;> decide
  all_goals first
    | exact member.elim
    | (subst member; decide)

/-- `run` does nothing to the commands. -/
theorem upkeep_run {pc : Pc} (next : Pc) (located : pc.within .run = true)
    (inside : pc ≠ .dispatch) : upkeep pc next = [] := by
  unfold upkeep
  split <;> simp_all [Pc.within]

/-- RUN is entered by one event. -/
theorem event_of_run {state : AppState} {event : AppEvent}
    (known : transition state event = some .run) : event = .activated := by
  cases state <;> cases event <;> simp_all [transition]

/-- Activation succeeds at one place. -/
theorem move_activated {kind : AppKind} {result : Bool} {app : App}
    (moves : app.move kind result = some (.lookup .activated)) : app.pc = .activationExit true := by
  cases place : app.pc with
  | activationExit activate =>
    cases activate with
    | true => rfl
    | false =>
      simp only [App.move, place, Bool.false_eq_true, if_false] at moves
      split at moves <;> simp at moves
  | _ =>
    simp only [App.move, place] at moves
    repeat' split at moves
    all_goals simp at moves

theorem Pc.eq_write_of_entersRun {pc : Pc} (enters : pc.entersRun = true) :
    ∃ event, pc = .write event (some .run) := by
  unfold entersRun at enters
  split at enters
  · exact ⟨_, rfl⟩
  · cases enters

/-- No move ends in the last step of `nextState`. -/
theorem move_ne_write {kind : AppKind} {result : Bool} {app : App} {event : AppEvent}
    {target : Option AppState} : app.move kind result ≠ some (.write event target) := by
  intro moves
  cases place : app.pc with
  | _ =>
    simp only [App.move, place] at moves
    repeat' split at moves
    all_goals simp at moves

namespace CommandedApp

variable {commanded next : CommandedApp}

/-- The invariant: `deactivate` is enabled in RUN. On the way there it is enabled, or
enabling it is the last thing the thread is still to do. -/
structure Prepared (commanded : CommandedApp) : Prop where
  furnished : Furnished commanded.manager
  lifecycle : ∀ task ∈ commanded.pending, task.name ≠ "pause" ∧ task.name ≠ "continue"
  entering : commanded.app.pc.Entering →
    (commanded.pending = [] ∧ IsEnabled commanded.manager "deactivate") ∨
      commanded.pending.getLast? = some ⟨"deactivate", true⟩
  running : commanded.Running →
    commanded.pending = [] ∧ IsEnabled commanded.manager "deactivate"

namespace Prepared

theorem beside (prepared : Prepared commanded) (beside : Beside commanded next) :
    Prepared next := by
  have enabled : IsEnabled commanded.manager "deactivate" → IsEnabled next.manager "deactivate" :=
    fun was => was.kept (beside.kept "deactivate") id
  constructor
  case furnished => exact prepared.furnished.kept beside.kept id id
  case lifecycle =>
    rw [beside.pending]
    exact prepared.lifecycle
  case entering =>
    rw [beside.pc, beside.pending]
    intro entering
    obtain ⟨none, was⟩ | last := prepared.entering entering
    · exact .inl ⟨none, enabled was⟩
    · exact .inr last
  case running =>
    unfold Running
    rw [beside.state, beside.pending]
    intro running
    obtain ⟨none, was⟩ := prepared.running running
    exact ⟨none, enabled was⟩

/-- One task of an activity. -/
theorem upkeep {first : Upkeep} {rest : List Upkeep} {manager : CommandManager}
    (prepared : Prepared commanded) (pending : commanded.pending = first :: rest)
    (steps : commanded.manager.step first.label = some manager) :
    Prepared { commanded with manager := manager, pending := rest } := by
  have names := prepared.lifecycle first (by simp [pending])
  have kept : ∀ name, CommandManager.Kept (name = first.name) name commanded.manager manager := by
    intro name
    obtain ⟨other, enabled⟩ := first
    cases enabled with
    | true =>
      obtain ⟨_, _, rfl⟩ := Option.map_eq_some_iff.mp steps
      exact .setEnabled other
    | false =>
      obtain ⟨_, _, rfl⟩ := Option.map_eq_some_iff.mp steps
      exact .setDisabled other
  constructor
  case furnished => exact prepared.furnished.kept kept names.1.symm names.2.symm
  case lifecycle =>
    intro task member
    exact prepared.lifecycle task (by simp [pending, member])
  case entering =>
    intro entering
    have last : commanded.pending.getLast? = some ⟨"deactivate", true⟩ := by
      simpa [pending] using prepared.entering entering
    cases rest with
    | nil =>
      -- the last task has been done
      obtain rfl : first = ⟨"deactivate", true⟩ := by simpa [pending] using last
      obtain ⟨cmd, entry, rfl⟩ := Option.map_eq_some_iff.mp steps
      refine .inl ⟨rfl, cmd.setEnabled, ?_, by simp⟩
      have found : commanded.manager.commands.lookup "deactivate" = some cmd := entry
      simp [CommandManager.getCommand, CommandManager.onCommand, found]
    | cons second others =>
      refine .inr ?_
      rw [← last, pending, List.getLast?_cons_cons]
  case running =>
    intro running
    have none := (prepared.running running).1
    simp [pending] at none

/-- One step of the thread with nothing left to do to the commands. -/
theorem thread {result : Bool} {app : App} {state : AppState} (prepared : Prepared commanded)
    (idle : commanded.pending = []) (coherent : commanded.app.Coherent state)
    (steps : commanded.app.step .periodic result = some app) :
    Prepared { commanded with
      app := app, pending := Application.upkeep commanded.app.pc app.pc } := by
  have enabled : commanded.app.pc.Entering → IsEnabled commanded.manager "deactivate" := by
    intro entering
    simpa [idle] using prepared.entering entering
  have running : state = .run → IsEnabled commanded.manager "deactivate" := by
    rintro rfl
    exact (prepared.running coherent.current).2
  constructor
  case furnished => exact prepared.furnished
  case lifecycle => exact fun task member => upkeep_name member
  case entering =>
    dsimp only
    cases coherent.effect steps with
    | @consumed event target place async known =>
      rintro (same | ⟨_, same⟩)
      · obtain rfl : event = .activated := by simpa using same
        cases async
      · cases same
    | @lookedUp event target place known =>
      rintro (same | ⟨_, same⟩)
      · cases same
      · obtain rfl : event = .activated := by
          injection same
        refine .inl ⟨?_, enabled (.inl place)⟩
        rw [place]
        rfl
    | wrote | announced | stopped | ended => simp [Pc.Entering]
    | closed => simp [Pc.Entering]
    | entered place =>
      intro entering
      cases state <;> simp [Pc.Entering, App.activity] at entering
    | @moved pc moves inside =>
      rintro (same | ⟨_, same⟩)
      · obtain rfl : pc = .lookup .activated := same
        rw [move_activated moves]
        exact .inr rfl
      · obtain rfl : pc = .write .activated _ := same
        exact absurd moves move_ne_write
  case running =>
    have current := coherent.current
    have located := coherent.located
    unfold Running
    dsimp only
    cases coherent.effect steps with
    | @wrote event target place known =>
      intro same
      obtain rfl : target = .run := by simpa using same
      obtain rfl : event = .activated := event_of_run known
      exact ⟨by rw [place]; rfl, enabled (.inr ⟨_, place⟩)⟩
    | consumed place _ _ | lookedUp place _ | ended place | entered place =>
      intro same
      obtain rfl : state = .run := by simpa [current] using same
      exact ⟨by rw [place]; rfl, running rfl⟩
    | @moved pc moves inside =>
      intro same
      obtain rfl : state = .run := by simpa [current] using same
      refine ⟨upkeep_run _ located ?_, running rfl⟩
      intro place
      simp [App.move, place] at moves
    | closed place quitting | announced place quitting | stopped place quitting =>
      intro same
      simp [current, quitting] at same

/-- A step of a coherent application keeps it prepared. -/
theorem step {label : CommandedLabel} {state : AppState} (prepared : Prepared commanded)
    (coherent : commanded.app.Coherent state) (taken : commanded.step label = some next) :
    Prepared next := by
  cases effect_of_step taken with
  | thread idle steps => exact prepared.thread idle coherent steps
  | upkeep pending steps => exact prepared.upkeep pending steps
  | execute entry => exact prepared.beside (beside_execute _ _ _ _ _)
  | surroundings _ _ _ beside => exact prepared.beside beside

/-- Every reachable application is prepared. -/
theorem of_reachable {owner : String} (reachable : (commandedSystem owner).Reachable commanded) :
    Prepared commanded := by
  apply reachable.invariantFrom Prepared
  · constructor
    case furnished => exact furnished_new owner
    case lifecycle => simp [commandedSystem, new]
    case entering => simp [commandedSystem, new, App.new, Pc.Entering]
    case running =>
      intro running
      cases running
  · intro before label after reached prepared _ taken
    obtain ⟨state, coherent⟩ := reachable_coherent (reachable_app reached)
    exact prepared.step coherent taken

end Prepared

/-- A command that is executed leaves an application paused at level one alone exactly
when it neither ends the pause nor leads to another level. -/
theorem pausedAtOne_execute_iff {name : String} {cmd : Command} {args : List String}
    {read : UInt32} (paused : commanded.PausedAtOne) :
    (commanded.execute name cmd args read).PausedAtOne ↔
      ∀ given ∈ cmd.accepted args, name ≠ "continue" ∧
        (cmd.f given = true → cmd.nextLevelOr commanded.manager.level read = 1) := by
  unfold PausedAtOne execute
  rw [Command.deliver_eq]
  cases accepted : cmd.accepted args with
  | none => simpa using And.intro paused.1 paused.2
  | some given =>
    have resumes := afterCallback_isPaused paused.1 name
    by_cases agreed : cmd.f given = true
    · simp [agreed, resumes]
    · simp [agreed, resumes, paused.2]

/-- A step of the thread after which the application runs enters RUN or is taken there,
and a pause lasts. -/
theorem running_thread {app after : App} {result : Bool} {state : AppState}
    (coherent : app.Coherent state) (steps : app.step .periodic result = some after)
    (running : after.sm.state = some .run) :
    (app.pc.entersRun = true ∨ app.sm.state = some .run) ∧
      after.isPaused = app.isPaused := by
  cases coherent.effect steps with
  | @wrote event target place known =>
    obtain rfl : target = .run := by simpa using running
    exact ⟨.inl (by simp [place, Pc.entersRun]), rfl⟩
  | consumed | lookedUp => exact ⟨.inr (by simpa using running), rfl⟩
  | ended | entered | moved => exact ⟨.inr running, rfl⟩
  | closed place quitting | announced place quitting | stopped place quitting =>
    simp [coherent.current, quitting] at running

/-- While the steps of a run stay paused, the application is paused at level one in RUN. -/
theorem pausedAtOne_of_reachable {owner : String}
    (reachable : (commandedSystem owner).ReachableUnder StaysPaused commanded) :
    commanded.Running → commanded.PausedAtOne := by
  apply reachable.invariantFrom fun commanded => commanded.Running → commanded.PausedAtOne
  · intro running
    cases running
  intro before label after reached holds stays taken running
  obtain ⟨state, coherent⟩ := reachable_coherent (reachable_app reached.reachable)
  cases effect_of_step taken with
  | thread idle steps =>
    obtain ⟨entered | stayed, same⟩ := running_thread coherent steps running
    · obtain ⟨paused, level⟩ := stays idle entered
      exact ⟨same.trans paused, level⟩
    · obtain ⟨paused, level⟩ := holds stayed
      exact ⟨same.trans paused, level⟩
  | upkeep pending steps =>
    have none := ((Prepared.of_reachable reached.reachable).running running).1
    simp [pending] at none
  | @execute name cmd args read entry =>
    have stayed : before.Running :=
      (beside_execute before name cmd args read).state.symm.trans running
    apply (pausedAtOne_execute_iff (holds stayed)).mpr
    exact stays stayed cmd entry
  | surroundings _ paused level beside =>
    have stayed : before.Running := beside.state.symm.trans running
    exact ⟨paused.trans (holds stayed).1, level.trans (holds stayed).2⟩

/-- A step that does not stay paused leads to RUN and not to level one with a pause. -/
theorem not_pausedAtOne_of_not_staysPaused {label : CommandedLabel}
    (holds : commanded.Running → commanded.PausedAtOne) (leaves : ¬ StaysPaused commanded label)
    (taken : commanded.step label = some next) : next.Running ∧ ¬ next.PausedAtOne := by
  cases label with
  | thread result =>
    simp only [StaysPaused, not_forall] at leaves
    obtain ⟨idle, enters, notPaused⟩ := leaves
    obtain ⟨event, place⟩ := Pc.eq_write_of_entersRun enters
    simp only [step, thread, idle, App.step, place, Option.map_some, Option.some.injEq] at taken
    subst taken
    exact ⟨rfl, notPaused⟩
  | execute name args read =>
    simp only [StaysPaused, not_forall] at leaves
    obtain ⟨running, cmd, entry, given, accepts, moves⟩ := leaves
    obtain ⟨_, runs⟩ := Option.ite_none_right_eq_some.mp taken
    obtain ⟨other, same, rfl⟩ := Option.map_eq_some_iff.mp runs
    obtain rfl : cmd = other := Option.some.inj (entry.symm.trans same)
    refine ⟨(beside_execute commanded name cmd args read).state.trans running, ?_⟩
    intro paused
    exact moves ((pausedAtOne_execute_iff (holds running)).mp paused given accepts)
  | _ => exact absurd trivial leaves

end CommandedApp

/-- In every run that stays paused, an application in RUN can be deactivated, paused and
continued as it should. In any run it can exactly while it is paused at level one, and
the first step that does not stay paused leads to RUN without that. -/
theorem usable_of_staysPaused (owner : String) :
    (∀ commanded, (commandedSystem owner).ReachableUnder CommandedApp.StaysPaused commanded →
      commanded.Running → commanded.Usable) ∧
    (∀ commanded, (commandedSystem owner).Reachable commanded → commanded.Running →
      (commanded.Usable ↔ commanded.PausedAtOne)) ∧
    ∀ commanded label next,
      (commandedSystem owner).ReachableUnder CommandedApp.StaysPaused commanded →
      ¬ commanded.StaysPaused label → commanded.step label = some next →
      next.Running ∧ ¬ next.Usable := by
  have iff : ∀ commanded, (commandedSystem owner).Reachable commanded → commanded.Running →
      (commanded.Usable ↔ commanded.PausedAtOne) := by
    intro commanded reachable running
    have prepared := CommandedApp.Prepared.of_reachable reachable
    exact usable_iff prepared.furnished (prepared.running running).2
  refine ⟨?_, iff, ?_⟩
  · intro commanded reachable running
    apply (iff commanded reachable.reachable running).mpr
    exact CommandedApp.pausedAtOne_of_reachable reachable running
  · intro commanded label next reachable leaves taken
    have holds := CommandedApp.pausedAtOne_of_reachable reachable
    obtain ⟨running, notPaused⟩ :=
      CommandedApp.not_pausedAtOne_of_not_staysPaused holds leaves taken
    have reached : (commandedSystem owner).Reachable next :=
      .step reachable.reachable trivial taken
    exact ⟨running, fun usable => notPaused ((iff next reached running).mp usable)⟩

/-- `continue` and `pause` are executed during the activation. -/
theorem paused_before_run : ∃ commanded,
    (commandedSystem "app").ReachableUnder CommandedApp.StaysPaused commanded ∧
      commanded.Running ∧ commanded.Usable := by
  have admitted : (commandedSystem "app").AdmitsFrom CommandedApp.StaysPaused
      (commandedSystem "app").initial
      (List.replicate 4 (.thread true) ++ [.execute "activate" [] 0, .execute "continue" [] 0,
        .execute "pause" [] 0] ++ List.replicate 16 (.thread true)) := by
    decide
  have passes : ((commandedSystem "app").run
      (List.replicate 4 (.thread true) ++ [.execute "activate" [] 0, .execute "continue" [] 0,
        .execute "pause" [] 0] ++ List.replicate 16 (.thread true))).any (fun commanded =>
      commanded.app.sm.state == some .run) = true := by
    decide
  obtain ⟨commanded, reachable, holds⟩ := System.exists_reachableUnder_of_run admitted passes
  have running : commanded.Running := beq_iff_eq.mp holds
  exact ⟨commanded, reachable, running,
    (usable_of_staysPaused "app").1 commanded reachable running⟩

/-- An application is activated and runs. Its level is one, so it cannot be paused. -/
theorem activated_cannot_pause : ∃ commanded, (commandedSystem "app").Reachable commanded ∧
    commanded.Running ∧ commanded.app.isPaused = false ∧
      commanded.available "pause" = false := by
  have passes : ((commandedSystem "app").run
      (List.replicate 4 (.thread true) ++ [.verifyLevel, .execute "activate" [] 0] ++
        List.replicate 16 (.thread true) ++ [.verifyLevel])).any (fun commanded =>
      commanded.app.sm.state == some .run && !commanded.app.isPaused &&
        !commanded.available "pause") = true := by
    decide
  obtain ⟨commanded, reachable, holds⟩ := System.exists_reachable_of_run passes
  simp only [Bool.and_eq_true, Bool.not_eq_true', beq_iff_eq] at holds
  exact ⟨commanded, reachable, holds.1.1, holds.1.2, holds.2⟩

end Dls2.Application
