import Dls2.Commands.CommandBase
import Dls2.ControlLayer.Operations

/-!
# The levels of the control layer's commands

A control layer keeps its controllers and motion generators in two maps, and says by
the level of its command manager which of the two are not empty: 1 for generators, 2
for controllers, 3 for both. Each command has a transition set that is meant to carry
the level along. The inherited commands share the level and know nothing of the maps:
`stopActivation` leads from 1 to 0, and `deactivate` from anywhere to 0.

Commands are executed one after the other. The next level of `deactivate` is read
through the end iterator of its transition set; `read` stands for what is found there.
-/

namespace Dls2.ControlLayer

open Dls2.Commands Dls2.Transition

/-- Commands of a control layer, the inherited ones last. -/
inductive LayerCommand where
  | loadGenerator
  | unloadGenerator
  | loadController
  | loadPythonController
  | loadExternalController
  | unloadController
  | unloadExternalController
  | activate
  | stopActivation
  | deactivate
deriving DecidableEq, Repr

/-- The transition sets they are registered with. -/
def LayerCommand.transitionSet : LayerCommand → LevelType
  | .loadGenerator => [⟨0, 1⟩, ⟨1, 1⟩, ⟨2, 3⟩, ⟨3, 3⟩].toAList
  | .unloadGenerator => [⟨1, 0⟩, ⟨3, 2⟩].toAList
  | .loadController => [⟨0, 2⟩, ⟨1, 3⟩, ⟨2, 2⟩, ⟨3, 3⟩].toAList
  | .loadPythonController => [⟨0, 2⟩, ⟨1, 3⟩, ⟨2, 2⟩, ⟨3, 3⟩].toAList
  | .loadExternalController => [⟨0, 2⟩, ⟨1, 3⟩, ⟨2, 2⟩, ⟨3, 3⟩].toAList
  | .unloadController => [⟨2, 0⟩, ⟨3, 1⟩].toAList
  | .unloadExternalController => [⟨2, 0⟩, ⟨3, 1⟩].toAList
  | .activate => [⟨0, 1⟩].toAList
  | .stopActivation => [⟨1, 0⟩].toAList
  | .deactivate => [⟨allStatesExceptZero, 0⟩].toAList

/-- The level of the command manager, the two maps with the processes of their entries,
`closing_`, and the number of processes launched so far. -/
structure LeveledLayer (Name : Type) where
  level : UInt32
  controllers : AList fun _ : Name => Option Nat
  motionGenerators : AList fun _ : Name => Nat
  closing : Bool
  launched : Nat

/-- The negation of `empty`. -/
def loaded {Name : Type} {Data : Name → Type} (map : AList Data) : Bool := !map.entries.isEmpty

namespace LeveledLayer

variable {Name : Type} [DecidableEq Name]

def loadController (layer : LeveledLayer Name) (name : Name) (launches : Bool) :
    Bool × LeveledLayer Name :=
  if layer.closing then (false, layer)
  else if name ∈ layer.controllers then (false, layer)
  else if launches then
    (true, { layer with
      controllers := Controllers.emplace layer.controllers name (some layer.launched)
      launched := layer.launched + 1 })
  else (false, layer)

/-- An external controller has no process of the layer. -/
def loadExternalController (layer : LeveledLayer Name) (name : Name) :
    Bool × LeveledLayer Name :=
  if layer.closing then (false, layer)
  else if name ∈ layer.controllers then (false, layer)
  else (true, { layer with controllers := Controllers.emplace layer.controllers name none })

/-- Unlike the others it does not test `closing_`. -/
def loadPythonController (layer : LeveledLayer Name) (name : Name) (launches : Bool) :
    Bool × LeveledLayer Name :=
  if name ∈ layer.controllers then (false, layer)
  else if launches then
    (true, { layer with
      controllers := Controllers.emplace layer.controllers name (some layer.launched)
      launched := layer.launched + 1 })
  else (false, layer)

def unloadController (layer : LeveledLayer Name) (name : Name) : Bool × LeveledLayer Name :=
  match layer.controllers.lookup name with
  | none => (false, layer)
  | some _ => (true, { layer with controllers := layer.controllers.erase name })

/-- A controller with a process is not external. -/
def unloadExternalController (layer : LeveledLayer Name) (name : Name) :
    Bool × LeveledLayer Name :=
  match layer.controllers.lookup name with
  | none | some (some _) => (false, layer)
  | some none => (true, { layer with controllers := layer.controllers.erase name })

def loadMotionGenerator (layer : LeveledLayer Name) (name : Name) (launches : Bool) :
    Bool × LeveledLayer Name :=
  if layer.closing then (false, layer)
  else if name ∈ layer.motionGenerators then (false, layer)
  else if launches then
    (true, { layer with
      motionGenerators := layer.motionGenerators.insert name layer.launched
      launched := layer.launched + 1 })
  else (false, layer)

def unloadMotionGenerator (layer : LeveledLayer Name) (name : Name) :
    Bool × LeveledLayer Name :=
  match layer.motionGenerators.lookup name with
  | none => (false, layer)
  | some _ => (true, { layer with motionGenerators := layer.motionGenerators.erase name })

/-- The callbacks of the commands. The inherited ones raise an event and return `true`
whatever becomes of it. -/
def callback (layer : LeveledLayer Name) (name : Name) (launches : Bool) :
    LayerCommand → Bool × LeveledLayer Name
  | .loadGenerator => layer.loadMotionGenerator name launches
  | .unloadGenerator =>
    let (unloaded, layer) := layer.unloadMotionGenerator name
    (unloaded && layer.motionGenerators.entries.isEmpty, layer)
  | .loadController => layer.loadController name launches
  | .loadPythonController => layer.loadPythonController name launches
  | .loadExternalController => layer.loadExternalController name
  | .unloadController =>
    let (unloaded, layer) := layer.unloadController name
    (unloaded && layer.controllers.entries.isEmpty, layer)
  | .unloadExternalController =>
    let (unloaded, layer) := layer.unloadExternalController name
    (unloaded && layer.controllers.entries.isEmpty, layer)
  | .activate | .stopActivation | .deactivate => (true, layer)

/-- `Command::call`: the level changes when the callback has returned `true`. -/
def call (layer : LeveledLayer Name) (command : LayerCommand) (name : Name) (launches : Bool)
    (read : UInt32) : LeveledLayer Name :=
  let (agreed, layer) := layer.callback name launches command
  if agreed then
    { layer with
      level := ((command.transitionSet.getNextLevel layer.level).map Int32.toUInt32).getD read }
  else layer

/-- `close` empties the maps. -/
def close (layer : LeveledLayer Name) : LeveledLayer Name :=
  { layer with closing := true, controllers := ∅, motionGenerators := ∅ }

end LeveledLayer

/-- A command is executed, with its argument, the success of its launch and what is read
past the end of its transition set, or the layer is closed. -/
inductive LevelLabel (Name : Type) where
  | execute (command : LayerCommand) (name : Name) (launches : Bool) (read : UInt32)
  | close
deriving DecidableEq, Repr

/-- A command is executed only where it is available. -/
def LeveledLayer.step {Name : Type} [DecidableEq Name] (layer : LeveledLayer Name) :
    LevelLabel Name → Option (LeveledLayer Name)
  | .execute command name launches read =>
    if command.transitionSet.testLevel layer.level then
      some (layer.call command name launches read)
    else none
  | .close => some layer.close

/-- A layer with nothing loaded, at level 0. -/
def levelSystem (Name : Type) [DecidableEq Name] :
    System (LeveledLayer Name) (LevelLabel Name) where
  initial := ⟨0, ∅, ∅, false, 0⟩
  step := LeveledLayer.step

/-- What is loaded can be unloaded. -/
structure Unloadable {Name : Type} (layer : LeveledLayer Name) : Prop where
  controllers : loaded layer.controllers = true →
    LayerCommand.unloadController.transitionSet.testLevel layer.level = true
  motionGenerators : loaded layer.motionGenerators = true →
    LayerCommand.unloadGenerator.transitionSet.testLevel layer.level = true

/-- `stopActivation` is executed while no generator is loaded, and `deactivate` while
nothing is. -/
def SparesLoaded {Name : Type} (layer : LeveledLayer Name) : LevelLabel Name → Prop
  | .execute .stopActivation _ _ _ => loaded layer.motionGenerators = false
  | .execute .deactivate _ _ _ =>
    loaded layer.controllers = false ∧ loaded layer.motionGenerators = false
  | _ => True

/-- The invariant: the level knows which of the maps are not empty. -/
structure Leveled {Name : Type} (layer : LeveledLayer Name) : Prop where
  controllers : loaded layer.controllers = true → layer.level = 2 ∨ layer.level = 3
  motionGenerators : loaded layer.motionGenerators = true → layer.level = 1 ∨ layer.level = 3

/-- The three commands that enter a controller, and the two that take one out, have the
same transition set each. -/
def LayerCommand.loadsController : LayerCommand → Bool
  | .loadController | .loadPythonController | .loadExternalController => true
  | _ => false

def LayerCommand.unloadsController : LayerCommand → Bool
  | .unloadController | .unloadExternalController => true
  | _ => false

section Callbacks

variable {Name : Type} {layer : LeveledLayer Name}

/-- Nothing is loaded by erasing an entry. -/
theorem loaded_of_loaded_erase [DecidableEq Name] {Data : Name → Type} {map : AList Data}
    {name : Name} (still : loaded (map.erase name) = true) : loaded map = true := by
  cases entries : map.entries with
  | nil =>
    have erased : (map.erase name).entries = map.entries.kerase name := rfl
    simp [loaded, erased, entries] at still
  | cons entry rest => simp [loaded, entries]

/-- What the result of a callback says about the maps: a command that loads returns
`false` when it has entered nothing, one that unloads returns `true` only when its map
has become empty. -/
structure Reports (layer : LeveledLayer Name) (command : LayerCommand) (agreed : Bool)
    (after : LeveledLayer Name) : Prop where
  level : after.level = layer.level
  controllers : loaded after.controllers = true →
    loaded layer.controllers = true ∨ (agreed = true ∧ command.loadsController = true)
  motionGenerators : loaded after.motionGenerators = true →
    loaded layer.motionGenerators = true ∨ (agreed = true ∧ command = .loadGenerator)
  controllersEmpty : agreed = true → command.unloadsController = true →
    loaded after.controllers = false
  generatorsEmpty : agreed = true → command = .unloadGenerator →
    loaded after.motionGenerators = false

namespace Reports

variable {command : LayerCommand} {agreed : Bool}

/-- A callback that does nothing, and does not claim to have unloaded anything. -/
theorem idle (silent : agreed = true → command.unloadsController = false ∧
    command ≠ .unloadGenerator) : Reports layer command agreed layer where
  level := rfl
  controllers := .inl
  motionGenerators := .inl
  controllersEmpty claims unloads := by simp [(silent claims).1] at unloads
  generatorsEmpty claims unloads := absurd unloads (silent claims).2

/-- A controller is entered. -/
theorem loadsController (loads : command.loadsController = true)
    (controllers : AList fun _ : Name => Option Nat) (launched : Nat) :
    Reports layer command true
      { layer with controllers := controllers, launched := launched } where
  level := rfl
  controllers _ := .inr ⟨rfl, loads⟩
  motionGenerators := .inl
  controllersEmpty _ unloads := by cases command <;> simp_all [LayerCommand.loadsController,
    LayerCommand.unloadsController]
  generatorsEmpty _ unloads := by simp [unloads, LayerCommand.loadsController] at loads

/-- A controller is taken out. -/
theorem unloadsController [DecidableEq Name] (unloads : command.unloadsController = true)
    (name : Name) :
    Reports layer command (true && (layer.controllers.erase name).entries.isEmpty)
      { layer with controllers := layer.controllers.erase name } where
  level := rfl
  controllers still := .inl (loaded_of_loaded_erase still)
  motionGenerators := .inl
  controllersEmpty claims _ := by simpa [loaded] using claims
  generatorsEmpty _ other := by simp [other, LayerCommand.unloadsController] at unloads

end Reports

/-- Every callback reports what it does. -/
theorem callback_reports [DecidableEq Name] (layer : LeveledLayer Name)
    (command : LayerCommand) (name : Name) (launches : Bool) :
    Reports layer command (layer.callback name launches command).1
      (layer.callback name launches command).2 := by
  have refused : ∀ {command}, Reports layer command false layer :=
    Reports.idle fun claims => by cases claims
  cases command with
  | loadGenerator =>
    simp only [LeveledLayer.callback, LeveledLayer.loadMotionGenerator]
    split_ifs
    · exact refused
    · exact refused
    · exact ⟨rfl, .inl, fun _ => .inr ⟨rfl, rfl⟩, by simp [LayerCommand.unloadsController], by simp⟩
    · exact refused
  | unloadGenerator =>
    simp only [LeveledLayer.callback, LeveledLayer.unloadMotionGenerator]
    cases layer.motionGenerators.lookup name with
    | none => exact refused
    | some proc =>
      exact ⟨rfl, .inl, fun still => .inl (loaded_of_loaded_erase still),
        by simp [LayerCommand.unloadsController], fun claims _ => by simpa [loaded] using claims⟩
  | loadController =>
    simp only [LeveledLayer.callback, LeveledLayer.loadController]
    split_ifs
    · exact refused
    · exact refused
    · exact Reports.loadsController rfl _ _
    · exact refused
  | loadPythonController =>
    simp only [LeveledLayer.callback, LeveledLayer.loadPythonController]
    split_ifs
    · exact refused
    · exact Reports.loadsController rfl _ _
    · exact refused
  | loadExternalController =>
    simp only [LeveledLayer.callback, LeveledLayer.loadExternalController]
    split_ifs
    · exact refused
    · exact refused
    · exact Reports.loadsController rfl _ layer.launched
  | unloadController =>
    simp only [LeveledLayer.callback, LeveledLayer.unloadController]
    cases layer.controllers.lookup name with
    | none => exact refused
    | some proc => exact Reports.unloadsController rfl name
  | unloadExternalController =>
    simp only [LeveledLayer.callback, LeveledLayer.unloadExternalController]
    cases layer.controllers.lookup name with
    | none => exact refused
    | some proc =>
      cases proc with
      | none => exact Reports.unloadsController rfl name
      | some proc => exact refused
  | activate | stopActivation | deactivate =>
    exact Reports.idle fun _ => by simp [LayerCommand.unloadsController]

end Callbacks

/-! ### The level along a sequence of commands -/

/-- Apart from `deactivate`, a command that is available leads from one of its pairs to
the other level. -/
theorem LayerCommand.leads {command : LayerCommand} {level : UInt32}
    (plain : command ≠ .deactivate) (available : command.transitionSet.testLevel level = true) :
    ∃ next, ⟨level, next⟩ ∈ command.transitionSet.entries ∧
      command.transitionSet.getNextLevel level = some next.toInt32 := by
  apply LevelType.getNextLevel_of_testLevel _ _ available
  · cases command <;> rfl
  · cases command <;> first | decide | exact absurd rfl plain

/-- The pairs of the commands, as conditions on the two levels. -/
theorem LayerCommand.mem_entries {command : LayerCommand} {level next : UInt32}
    (pair : ⟨level, next⟩ ∈ command.transitionSet.entries) :
    match command with
    | .loadGenerator => (level = 0 ∨ level = 1) ∧ next = 1 ∨ (level = 2 ∨ level = 3) ∧ next = 3
    | .unloadGenerator => level = 1 ∧ next = 0 ∨ level = 3 ∧ next = 2
    | .loadController | .loadPythonController | .loadExternalController =>
      (level = 0 ∨ level = 2) ∧ next = 2 ∨ (level = 1 ∨ level = 3) ∧ next = 3
    | .unloadController | .unloadExternalController => level = 2 ∧ next = 0 ∨ level = 3 ∧ next = 1
    | .activate => level = 0 ∧ next = 1
    | .stopActivation => level = 1 ∧ next = 0
    | .deactivate => level = allStatesExceptZero ∧ next = 0 := by
  cases command with
  | loadGenerator =>
    have entries : LayerCommand.loadGenerator.transitionSet.entries =
      [⟨0, 1⟩, ⟨1, 1⟩, ⟨2, 3⟩, ⟨3, 3⟩] := rfl
    simp only [entries, List.mem_cons, Sigma.mk.injEq, heq_eq_eq, List.not_mem_nil] at pair
    grind
  | unloadGenerator =>
    have entries : LayerCommand.unloadGenerator.transitionSet.entries = [⟨1, 0⟩, ⟨3, 2⟩] := rfl
    simpa [entries] using pair
  | loadController | loadPythonController | loadExternalController =>
    have entries : LayerCommand.loadController.transitionSet.entries =
      [⟨0, 2⟩, ⟨1, 3⟩, ⟨2, 2⟩, ⟨3, 3⟩] := rfl
    change _ ∈ LayerCommand.loadController.transitionSet.entries at pair
    simp only [entries, List.mem_cons, Sigma.mk.injEq, heq_eq_eq, List.not_mem_nil] at pair
    grind
  | unloadController | unloadExternalController =>
    have entries : LayerCommand.unloadController.transitionSet.entries = [⟨2, 0⟩, ⟨3, 1⟩] := rfl
    change _ ∈ LayerCommand.unloadController.transitionSet.entries at pair
    simpa [entries] using pair
  | activate =>
    have entries : LayerCommand.activate.transitionSet.entries = [⟨0, 1⟩] := rfl
    simpa [entries] using pair
  | stopActivation =>
    have entries : LayerCommand.stopActivation.transitionSet.entries = [⟨1, 0⟩] := rfl
    simpa [entries] using pair
  | deactivate =>
    have entries : LayerCommand.deactivate.transitionSet.entries =
      [⟨allStatesExceptZero, 0⟩] := rfl
    simpa [entries] using pair

namespace Leveled

variable {Name : Type} {layer after : LeveledLayer Name}

/-- A callback that has returned `false` leaves the level as it was, and nothing more
loaded than before. -/
theorem of_refused {command : LayerCommand} (leveled : Leveled layer)
    (reports : Reports layer command false after) : Leveled after where
  controllers still := by
    rw [reports.level]
    apply leveled.controllers
    simpa using reports.controllers still
  motionGenerators still := by
    rw [reports.level]
    apply leveled.motionGenerators
    simpa using reports.motionGenerators still

/-- With a pair of its transition set a command carries the level along. -/
theorem of_pair {command : LayerCommand} (leveled : Leveled layer)
    (reports : Reports layer command true after) {next : UInt32}
    (pair : ⟨layer.level, next⟩ ∈ command.transitionSet.entries)
    (plain : command ≠ .deactivate)
    (spares : command = .stopActivation → loaded layer.motionGenerators = false) :
    Leveled { after with level := next } := by
  have pair := LayerCommand.mem_entries pair
  obtain ⟨_, controllers, generators, noControllers, noGenerators⟩ := reports
  obtain ⟨ofControllers, ofGenerators⟩ := leveled
  cases command with
  | deactivate => exact absurd rfl plain
  | stopActivation =>
    -- at level 1 no controller is loaded
    obtain ⟨level, rfl⟩ := pair
    constructor
    · intro still
      have before : loaded layer.controllers = true := by
        simpa [LayerCommand.loadsController] using controllers still
      simpa [level] using ofControllers before
    · intro still
      have before : loaded layer.motionGenerators = true := by simpa using generators still
      simp [spares rfl] at before
  | activate =>
    -- at level 0 nothing is loaded
    obtain ⟨level, rfl⟩ := pair
    constructor
    · intro still
      have before : loaded layer.controllers = true := by
        simpa [LayerCommand.loadsController] using controllers still
      simpa [level] using ofControllers before
    · exact fun _ => .inl rfl
  | loadGenerator =>
    simp only [LayerCommand.loadsController, Bool.false_eq_true, and_false, or_false] at controllers
    constructor
    · intro still
      have level := ofControllers (controllers still)
      grind
    · intro _
      grind
  | unloadGenerator =>
    simp only [LayerCommand.loadsController, Bool.false_eq_true, and_false, or_false] at controllers
    constructor
    · intro still
      have level := ofControllers (controllers still)
      grind
    · intro still
      simp [noGenerators rfl rfl] at still
  | loadController | loadPythonController | loadExternalController =>
    simp only [reduceCtorEq, and_false, or_false] at generators
    constructor
    · intro _
      grind
    · intro still
      have level := ofGenerators (generators still)
      grind
  | unloadController | unloadExternalController =>
    simp only [reduceCtorEq, and_false, or_false] at generators
    constructor
    · intro still
      simp [noControllers rfl rfl] at still
    · intro still
      have level := ofGenerators (generators still)
      grind

/-- The level says that what is loaded can be unloaded. -/
theorem unloadable (leveled : Leveled layer) : Unloadable layer where
  controllers still := by
    obtain level | level := leveled.controllers still <;> rw [level] <;> decide
  motionGenerators still := by
    obtain level | level := leveled.motionGenerators still <;> rw [level] <;> decide

variable [DecidableEq Name]

/-- Executing an available command keeps the invariant. -/
theorem call {command : LayerCommand} {name : Name} {launches : Bool} {read : UInt32}
    (leveled : Leveled layer) (available : command.transitionSet.testLevel layer.level = true)
    (spares : SparesLoaded layer (.execute command name launches read)) :
    Leveled (layer.call command name launches read) := by
  have reports := callback_reports layer command name launches
  unfold LeveledLayer.call
  revert reports
  obtain ⟨agreed, after⟩ := layer.callback name launches command
  intro reports
  dsimp only at reports ⊢
  cases agreed with
  | false => exact leveled.of_refused reports
  | true =>
    by_cases plain : command = .deactivate
    · subst plain
      -- nothing is loaded, whatever level is read
      have none := spares
      constructor
      · intro still
        simpa [none.1, LayerCommand.loadsController] using reports.controllers still
      · intro still
        simpa [none.2] using reports.motionGenerators still
    · obtain ⟨next, pair, leads⟩ := LayerCommand.leads plain available
      simp only [reports.level, leads, Option.map_some, Option.getD_some, if_true,
        UInt32.toUInt32_toInt32]
      exact leveled.of_pair reports pair plain fun same => by subst same; exact spares

/-- So does every step that spares what is loaded. -/
theorem step {label : LevelLabel Name} {next : LeveledLayer Name} (leveled : Leveled layer)
    (spares : SparesLoaded layer label) (taken : layer.step label = some next) :
    Leveled next := by
  cases label with
  | execute command name launches read =>
    obtain ⟨available, runs⟩ := Option.ite_none_right_eq_some.mp taken
    obtain rfl := Option.some.inj runs
    exact leveled.call available spares
  | close =>
    obtain rfl := Option.some.inj taken
    constructor <;> simp [LeveledLayer.close, loaded]

end Leveled

/-- At level 0 nothing can be unloaded. -/
theorem not_unloadable {Name : Type} {layer : LeveledLayer Name} (level : layer.level = 0)
    (still : loaded layer.controllers = true ∨ loaded layer.motionGenerators = true) :
    ¬ Unloadable layer := by
  rintro ⟨controllers, generators⟩
  rw [level] at controllers generators
  obtain still | still := still
  · exact absurd (controllers still) (by decide)
  · exact absurd (generators still) (by decide)

/-- The only entry of `deactivate` leads to 0. -/
theorem nextLevel_deactivate (level : UInt32) :
    ((LayerCommand.deactivate.transitionSet.getNextLevel level).map Int32.toUInt32).getD 0 = 0 := by
  have nonempty : LayerCommand.deactivate.transitionSet.entries.isEmpty = false := rfl
  cases entry : LayerCommand.deactivate.transitionSet.lookup level with
  | none => simp [LevelType.getNextLevel, nonempty, entry]
  | some next =>
    obtain ⟨_, rfl⟩ := LayerCommand.mem_entries (AList.mem_lookup_iff.mp entry)
    simp only [LevelType.getNextLevel, nonempty, entry]
    rfl

/-- A command that does not spare what is loaded can strand it: there is something that
cannot be unloaded at the next level, if `deactivate` reads a suitable one. -/
theorem stranded_of_not_sparesLoaded {Name : Type} [DecidableEq Name]
    {layer next : LeveledLayer Name} {command : LayerCommand} {name : Name} {launches : Bool}
    {read : UInt32} (harms : ¬ SparesLoaded layer (.execute command name launches read))
    (taken : layer.step (.execute command name launches read) = some next) :
    ∃ read other, layer.step (.execute command name launches read) = some other ∧
      ¬ Unloadable other := by
  obtain ⟨available, _⟩ := Option.ite_none_right_eq_some.mp taken
  cases command with
  | stopActivation =>
    have still : loaded layer.motionGenerators = true := by simpa [SparesLoaded] using harms
    obtain ⟨next, pair, leads⟩ := LayerCommand.leads (by decide) available
    obtain ⟨_, rfl⟩ := LayerCommand.mem_entries pair
    have level : (layer.call .stopActivation name launches read).level = 0 := by
      simp only [LeveledLayer.call, LeveledLayer.callback, leads]
      rfl
    exact ⟨read, _, if_pos available, not_unloadable level (.inr still)⟩
  | deactivate =>
    have still : loaded layer.controllers = true ∨ loaded layer.motionGenerators = true := by
      simpa [SparesLoaded, Decidable.imp_iff_not_or] using harms
    have level : (layer.call .deactivate name launches 0).level = 0 := by
      simp only [LeveledLayer.call, LeveledLayer.callback, if_true]
      exact nextLevel_deactivate layer.level
    exact ⟨0, _, if_pos available, not_unloadable level still⟩
  | _ => exact absurd trivial harms

/-- In every sequence of commands that spares what is loaded, what is loaded can be
unloaded. A command that does not spare it can leave something that cannot. -/
theorem unloadable_of_sparesLoaded (Name : Type) [DecidableEq Name] :
    (∀ layer, (levelSystem Name).ReachableUnder SparesLoaded layer → Unloadable layer) ∧
    ∀ layer command name launches read next, (levelSystem Name).Reachable layer →
      ¬ SparesLoaded layer (.execute command name launches read) →
      (levelSystem Name).step layer (.execute command name launches read) = some next →
      ∃ read other, (levelSystem Name).step layer (.execute command name launches read) =
        some other ∧ ¬ Unloadable other := by
  constructor
  · intro layer reachable
    have leveled : Leveled layer := by
      apply reachable.invariant Leveled
      · constructor <;> simp [levelSystem, loaded]
      · intro before label after leveled spares taken
        exact leveled.step spares taken
    exact leveled.unloadable
  · intro layer command name launches read next _ harms taken
    exact stranded_of_not_sparesLoaded harms taken

/-- `stopActivation` is executed before a generator and a controller are loaded. -/
theorem unloadable_after_stopActivation : ∃ layer, (levelSystem String).run
      [.execute .activate "" true 0, .execute .stopActivation "" true 0,
        .execute .loadGenerator "trot" true 0, .execute .loadController "mpc" true 0] =
        some layer ∧ loaded layer.motionGenerators = true ∧ loaded layer.controllers = true ∧
      Unloadable layer := by
  have admitted : (levelSystem String).AdmitsFrom SparesLoaded (levelSystem String).initial
      [.execute .activate "" true 0, .execute .stopActivation "" true 0,
        .execute .loadGenerator "trot" true 0, .execute .loadController "mpc" true 0] := by
    refine ⟨trivial, ?_⟩
    rintro _ ⟨⟩
    refine ⟨show loaded _ = false from rfl, ?_⟩
    rintro _ ⟨⟩
    refine ⟨trivial, ?_⟩
    rintro _ ⟨⟩
    refine ⟨trivial, ?_⟩
    rintro _ ⟨⟩
    trivial
  have reachable := System.ReachableUnder.initial.runFrom admitted rfl
  exact ⟨_, rfl, rfl, rfl, (unloadable_of_sparesLoaded String).1 _ reachable⟩

/-- A generator is loaded and then `stopActivation` executed: the generator can no longer
be unloaded. -/
theorem stopActivation_strands : ∃ layer, (levelSystem String).Reachable layer ∧
    loaded layer.motionGenerators = true ∧ layer.level = 0 ∧
      LayerCommand.unloadGenerator.transitionSet.testLevel layer.level = false := by
  have passes : ((levelSystem String).run [.execute .loadGenerator "trot" true 0,
      .execute .stopActivation "" true 0]).any (fun layer =>
        loaded layer.motionGenerators && layer.level == 0) = true := by
    decide
  obtain ⟨layer, reachable, holds⟩ := System.exists_reachable_of_run passes
  simp only [Bool.and_eq_true, beq_iff_eq] at holds
  refine ⟨layer, reachable, holds.1, holds.2, ?_⟩
  rw [holds.2]
  decide

/-! ### Operations as a whole

`Controllers` takes the operations on controllers apart. A thread that nobody disturbs
makes of them what the functions above say in one piece. -/

section Whole

variable {Name : Type} [DecidableEq Name]

/-- The function of an operation. -/
def LeveledLayer.operation (layer : LeveledLayer Name) (name : Name) (launches : Bool) :
    Operation → Bool × LeveledLayer Name
  | .loadController => layer.loadController name launches
  | .loadExternalController => layer.loadExternalController name
  | .loadPythonController => layer.loadPythonController name launches
  | .unloadController => layer.unloadController name
  | .unloadExternalController => layer.unloadExternalController name

/-- The thread starts the operation, or goes on with it. -/
def OpLabel.Runs (thread : Nat) (operation : Operation) (name : Name) (launches : Bool)
    (label : OpLabel Name) : Prop :=
  label = .start thread operation name ∨ label = .go thread launches

/-- What the two models have in common is the same. -/
structure SameMap (leveled : LeveledLayer Name) (layer : Controllers Name) : Prop where
  controllers : layer.controllers = leveled.controllers
  closing : layer.closing = leveled.closing
  launched : layer.launched = leveled.launched

/-- The thread is at rest, and so is the mutex. -/
structure AtRest (thread : Nat) (leveled : LeveledLayer Name) (layer : Controllers Name) :
    Prop extends SameMap leveled layer where
  idle : layer.threads thread = .idle
  free : layer.operationsMutex = none

namespace AtRest

variable {layer : Controllers Name} {leveled : LeveledLayer Name} {thread : Nat}
  {operation : Operation} {name : Name} {launches : Bool}

/-- A step on the way, whether or not it conflicts with accesses in progress. -/
theorem onward {goal : Controllers Name → Prop} {label : OpLabel Name} (next : Controllers Name)
    (mine : OpLabel.Runs thread operation name launches label)
    (advances : layer.advance label = some next)
    (later : ∀ undefined, (controllersSystem Name).LeadsTo
      (OpLabel.Runs thread operation name launches) goal { next with undefined := undefined }) :
    (controllersSystem Name).LeadsTo (OpLabel.Runs thread operation name launches) goal layer := by
  refine .step _ mine ?_ (later (layer.undefined || layer.conflicts label))
  simp [controllersSystem, Controllers.step, advances]

/-- The last step of an operation. -/
theorem unlock (place : layer.threads thread = .unlock) (same : SameMap leveled layer) :
    (controllersSystem Name).LeadsTo (OpLabel.Runs thread operation name launches)
      (AtRest thread leveled) layer := by
  refine onward ({ layer with operationsMutex := none }.goto thread .idle) (.inr rfl) ?_
    fun _ => .here ?_
  · simp [Controllers.advance, Controllers.go, place]
  · exact { same with idle := by simp [Controllers.goto], free := rfl }

/-- `loadPythonController` has no mutex to release. -/
theorem finish (place : layer.threads thread = Controllers.finish operation)
    (free : operation = .loadPythonController → layer.operationsMutex = none)
    (same : SameMap leveled layer) :
    (controllersSystem Name).LeadsTo (OpLabel.Runs thread operation name launches)
      (AtRest thread leveled) layer := by
  cases operation with
  | loadPythonController => exact .here { same with idle := place, free := free rfl }
  | _ => exact unlock place same

/-- A controller is entered. `loadPythonController` takes two steps for that. -/
theorem emplace {proc : Option Nat} (place : layer.threads thread = .emplace operation name proc)
    (free : operation = .loadPythonController → layer.operationsMutex = none)
    (same : SameMap leveled layer) :
    (controllersSystem Name).LeadsTo (OpLabel.Runs thread operation name launches)
      (AtRest thread { leveled with
        controllers := Controllers.emplace leveled.controllers name proc }) layer := by
  by_cases python : operation = .loadPythonController
  · subst python
    refine onward ({ layer with entries := layer.entries + 1 }.goto thread (.entering name proc))
      (.inr rfl) ?_ fun raced => ?_
    · simp [Controllers.advance, Controllers.go, place]
    refine onward ({ layer with
      controllers := Controllers.emplace layer.controllers name proc
      undefined := raced }.goto thread (Controllers.finish .loadPythonController)) (.inr rfl) ?_
        fun _ => finish ?_ free ?_
    · simp [Controllers.advance, Controllers.go, Controllers.goto]
    · simp [Controllers.goto]
    · exact { same with controllers := by simp [Controllers.goto, same.controllers] }
  · refine onward ({ layer with
      controllers := Controllers.emplace layer.controllers name proc }.goto thread
        (Controllers.finish operation)) (.inr rfl) ?_ fun _ => finish ?_ free ?_
    · simp [Controllers.advance, Controllers.go, place, python]
    · simp [Controllers.goto]
    · exact { same with controllers := by simp [Controllers.goto, same.controllers] }

/-- A process is launched and its controller entered, or the launch fails. -/
theorem launch (place : layer.threads thread = .launch operation name)
    (free : operation = .loadPythonController → layer.operationsMutex = none)
    (same : SameMap leveled layer) :
    (controllersSystem Name).LeadsTo (OpLabel.Runs thread operation name launches)
      (AtRest thread (if launches then { leveled with
          controllers := Controllers.emplace leveled.controllers name (some leveled.launched)
          launched := leveled.launched + 1 }
        else leveled)) layer := by
  cases launches with
  | false =>
    refine onward (layer.goto thread (Controllers.finish operation)) (.inr rfl) ?_
      fun _ => finish ?_ free { same with }
    · simp [Controllers.advance, Controllers.go, place]
    · simp [Controllers.goto]
  | true =>
    have counted : ∀ raced, SameMap { leveled with launched := leveled.launched + 1 }
        { { layer with
          processes := Function.update layer.processes layer.launched (some name)
          launched := layer.launched + 1 }.goto thread
            (.emplace operation name (some leveled.launched)) with undefined := raced } :=
      fun _ => { same with launched := congrArg (· + 1) same.launched }
    refine onward _ (.inr rfl) ?_ fun raced => emplace ?_ ?_ (counted raced)
    · simp [Controllers.advance, Controllers.go, place, same.launched]
    · simp [Controllers.goto]
    · exact free

/-- A load operation ends where it finds the name in the map. -/
theorem loaded (place : layer.threads thread = Controllers.finish operation)
    (present : name ∈ leveled.controllers)
    (loads : operation ≠ .unloadController ∧ operation ≠ .unloadExternalController)
    (free : operation = .loadPythonController → layer.operationsMutex = none)
    (same : SameMap leveled layer) :
    (controllersSystem Name).LeadsTo (OpLabel.Runs thread operation name launches)
      (AtRest thread (leveled.operation name launches operation).2) layer := by
  have unchanged : (leveled.operation name launches operation).2 = leveled := by
    cases operation <;> simp_all [LeveledLayer.operation, LeveledLayer.loadController,
      LeveledLayer.loadExternalController, LeveledLayer.loadPythonController]
  rw [unchanged]
  exact finish place free same

/-- Where it does not, it goes on to create the controller. -/
theorem create (place : layer.threads thread = Controllers.create operation name)
    (absent : name ∉ leveled.controllers)
    (loads : operation ≠ .unloadController ∧ operation ≠ .unloadExternalController)
    (opened : operation ≠ .loadPythonController → leveled.closing = false)
    (free : operation = .loadPythonController → layer.operationsMutex = none)
    (same : SameMap leveled layer) :
    (controllersSystem Name).LeadsTo (OpLabel.Runs thread operation name launches)
      (AtRest thread (leveled.operation name launches operation).2) layer := by
  cases operation with
  | loadExternalController =>
    have whole : (leveled.operation name launches .loadExternalController).2 =
        { leveled with
          controllers := Controllers.emplace leveled.controllers name none } := by
      simp [LeveledLayer.operation, LeveledLayer.loadExternalController, absent, opened]
    rw [whole]
    exact emplace (by simp [place, Controllers.create]) (by simp) same
  | loadController =>
    have whole : (leveled.operation name launches .loadController).2 =
        if launches then { leveled with
          controllers := Controllers.emplace leveled.controllers name (some leveled.launched)
          launched := leveled.launched + 1 }
        else leveled := by
      cases launches <;>
        simp [LeveledLayer.operation, LeveledLayer.loadController, absent, opened]
    rw [whole]
    exact launch (by simp [place, Controllers.create]) (by simp) same
  | loadPythonController =>
    have whole : (leveled.operation name launches .loadPythonController).2 =
        if launches then { leveled with
          controllers := Controllers.emplace leveled.controllers name (some leveled.launched)
          launched := leveled.launched + 1 }
        else leveled := by
      cases launches <;>
        simp [LeveledLayer.operation, LeveledLayer.loadPythonController, absent]
    rw [whole]
    exact launch (by simp [place, Controllers.create]) free same
  | unloadController => exact absurd rfl loads.1
  | unloadExternalController => exact absurd rfl loads.2

/-- What follows the tests that a load operation makes first. `loadPythonController`
takes two steps for its lookup. -/
theorem find (place : layer.threads thread = .find operation name)
    (loads : operation ≠ .unloadController ∧ operation ≠ .unloadExternalController)
    (opened : operation ≠ .loadPythonController → leveled.closing = false)
    (free : operation = .loadPythonController → layer.operationsMutex = none)
    (same : SameMap leveled layer) :
    (controllersSystem Name).LeadsTo (OpLabel.Runs thread operation name launches)
      (AtRest thread (leveled.operation name launches operation).2) layer := by
  have map := same.controllers
  by_cases python : operation = .loadPythonController
  · subst python
    refine onward ({ layer with lookups := layer.lookups + 1 }.goto thread (.finding name))
      (.inr rfl) ?_ fun raced => ?_
    · simp [Controllers.advance, Controllers.go, place]
    by_cases present : name ∈ leveled.controllers
    · refine onward ({ layer with undefined := raced }.goto thread
        (Controllers.finish .loadPythonController)) (.inr rfl) ?_
        fun _ => loaded (by simp [Controllers.goto]) present loads free { same with }
      simp [Controllers.advance, Controllers.go, Controllers.goto, map, present]
    · refine onward ({ layer with undefined := raced }.goto thread
        (Controllers.create .loadPythonController name)) (.inr rfl) ?_
        fun _ => create (by simp [Controllers.goto]) present loads opened free { same with }
      simp [Controllers.advance, Controllers.go, Controllers.goto, map, present]
  · by_cases present : name ∈ leveled.controllers
    · refine onward (layer.goto thread (Controllers.finish operation)) (.inr rfl) ?_
        fun _ => loaded (by simp [Controllers.goto]) present loads free { same with }
      simp [Controllers.advance, Controllers.go, place, map, python, present]
    · refine onward (layer.goto thread (Controllers.create operation name)) (.inr rfl) ?_
        fun _ => create (by simp [Controllers.goto]) present loads opened free { same with }
      simp [Controllers.advance, Controllers.go, place, map, python, present]

/-- The process of a controller that has been taken out is shut down. -/
theorem shutdown {proc : Nat} (place : layer.threads thread = .shutdown name proc)
    (same : SameMap leveled layer) :
    (controllersSystem Name).LeadsTo (OpLabel.Runs thread operation name launches)
      (AtRest thread leveled) layer := by
  refine onward ((layer.kill proc).goto thread .unlock) (.inr rfl) ?_
    fun _ => unlock (by simp [Controllers.goto]) { same with }
  simp [Controllers.advance, Controllers.go, place]

/-- What follows the lock of an unload operation. -/
theorem extract (place : layer.threads thread = .extract operation name)
    (unloads : operation = .unloadController ∨ operation = .unloadExternalController)
    (same : SameMap leveled layer) :
    (controllersSystem Name).LeadsTo (OpLabel.Runs thread operation name launches)
      (AtRest thread (leveled.operation name launches operation).2) layer := by
  cases entry : layer.controllers.lookup name with
  | none =>
    have unchanged : (leveled.operation name launches operation).2 = leveled := by
      rw [same.controllers] at entry
      obtain rfl | rfl := unloads <;> simp [LeveledLayer.operation,
        LeveledLayer.unloadController, LeveledLayer.unloadExternalController, entry]
    rw [unchanged]
    refine onward (layer.goto thread .unlock) (.inr rfl) ?_
      fun _ => unlock (by simp [Controllers.goto]) { same with }
    simp [Controllers.advance, Controllers.go, place, entry]
  | some held =>
    have found : leveled.controllers.lookup name = some held := same.controllers ▸ entry
    have erased : SameMap { leveled with controllers := leveled.controllers.erase name }
        { layer with controllers := layer.controllers.erase name } :=
      { same with controllers := congrArg (AList.erase name) same.controllers }
    cases held with
    | none =>
      have whole : (leveled.operation name launches operation).2 =
          { leveled with controllers := leveled.controllers.erase name } := by
        obtain rfl | rfl := unloads <;> simp [LeveledLayer.operation,
          LeveledLayer.unloadController, LeveledLayer.unloadExternalController, found]
      rw [whole]
      refine onward ({ layer with controllers := layer.controllers.erase name }.goto thread .unlock)
        (.inr rfl) ?_ fun _ => unlock (by simp [Controllers.goto]) { erased with }
      simp [Controllers.advance, Controllers.go, place, entry]
    | some proc =>
      obtain rfl | rfl := unloads
      · have whole : (leveled.operation name launches .unloadController).2 =
            { leveled with controllers := leveled.controllers.erase name } := by
          simp [LeveledLayer.operation, LeveledLayer.unloadController, found]
        have next : ({ layer with controllers := layer.controllers.erase name }.goto thread
            (.shutdown name proc)).threads thread = .shutdown name proc := by
          simp [Controllers.goto]
        rw [whole]
        refine onward ({ layer with controllers := layer.controllers.erase name }.goto thread
          (.shutdown name proc)) (.inr rfl) ?_ fun _ => shutdown next { erased with }
        simp [Controllers.advance, Controllers.go, place, entry]
      · have unchanged : (leveled.operation name launches .unloadExternalController).2 =
            leveled := by
          simp [LeveledLayer.operation, LeveledLayer.unloadExternalController, found]
        rw [unchanged]
        refine onward (layer.goto thread .unlock) (.inr rfl) ?_
          fun _ => unlock (by simp [Controllers.goto]) { same with }
        simp [Controllers.advance, Controllers.go, place, entry]

/-- The locked load operations test `closing_` first. -/
theorem testClosing (place : layer.threads thread = .testClosing operation name)
    (loads : operation = .loadController ∨ operation = .loadExternalController)
    (same : SameMap leveled layer) :
    (controllersSystem Name).LeadsTo (OpLabel.Runs thread operation name launches)
      (AtRest thread (leveled.operation name launches operation).2) layer := by
  cases closing : layer.closing with
  | true =>
    have unchanged : (leveled.operation name launches operation).2 = leveled := by
      rw [same.closing] at closing
      obtain rfl | rfl := loads <;> simp [LeveledLayer.operation, LeveledLayer.loadController,
        LeveledLayer.loadExternalController, closing]
    rw [unchanged]
    refine onward (layer.goto thread .unlock) (.inr rfl) ?_
      fun _ => unlock (by simp [Controllers.goto]) { same with }
    simp [Controllers.advance, Controllers.go, place, closing]
  | false =>
    have notUnload : operation ≠ .unloadController ∧ operation ≠ .unloadExternalController := by
      obtain rfl | rfl := loads <;> decide
    have locked : operation ≠ .loadPythonController := by
      obtain rfl | rfl := loads <;> decide
    refine onward (layer.goto thread (.find operation name)) (.inr rfl) ?_
      fun _ => find (by simp [Controllers.goto]) notUnload
        (fun _ => same.closing.symm.trans closing) (fun python => absurd python locked)
        { same with }
    simp [Controllers.advance, Controllers.go, place, closing]

/-- The first step of the locked operations. -/
theorem lock (place : layer.threads thread = .lock operation name)
    (free : layer.operationsMutex = none) (locked : operation ≠ .loadPythonController)
    (same : SameMap leveled layer) :
    (controllersSystem Name).LeadsTo (OpLabel.Runs thread operation name launches)
      (AtRest thread (leveled.operation name launches operation).2) layer := by
  by_cases unloads : operation = .unloadController ∨ operation = .unloadExternalController
  · refine onward ({ layer with operationsMutex := some thread }.goto thread
      (.extract operation name)) (.inr rfl) ?_
        fun _ => extract (by simp [Controllers.goto]) unloads { same with }
    obtain rfl | rfl := unloads <;>
      simp [Controllers.advance, Controllers.go, place, free]
  · have loads : operation = .loadController ∨ operation = .loadExternalController := by
      cases operation <;> simp_all
    refine onward ({ layer with operationsMutex := some thread }.goto thread
      (.testClosing operation name)) (.inr rfl) ?_
        fun _ => testClosing (by simp [Controllers.goto]) loads { same with }
    obtain rfl | rfl := loads <;>
      simp [Controllers.advance, Controllers.go, place, free]

/-- A thread that starts an operation at rest, and is not disturbed, does what the
function of the operation says. -/
theorem operation_leadsTo (rest : AtRest thread leveled layer) (operation : Operation)
    (name : Name) (launches : Bool) :
    (controllersSystem Name).LeadsTo (OpLabel.Runs thread operation name launches)
      (AtRest thread (leveled.operation name launches operation).2) layer := by
  by_cases python : operation = .loadPythonController
  · subst python
    refine onward (layer.goto thread (.find .loadPythonController name)) (.inl rfl) ?_
      fun _ => find (by simp [Controllers.goto]) (by simp) (by simp) (fun _ => rest.free)
        { rest.toSameMap with }
    simp [Controllers.advance, rest.idle]
  · refine onward (layer.goto thread (.lock operation name)) (.inl rfl) ?_
      fun _ => lock (by simp [Controllers.goto]) rest.free python { rest.toSameMap with }
    simp [Controllers.advance, rest.idle, python]

end AtRest

end Whole

end Dls2.ControlLayer
