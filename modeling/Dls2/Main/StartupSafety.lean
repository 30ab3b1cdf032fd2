import Dls2.Main.StartupSuccess

/-!
# What a startup does and does not do

The surroundings of a startup are arbitrary: signals arrive, layers are slow, crash or are
there twice, and commands get lost at any point. The only thing that they do not do is to reset
the flag that ends the startup.
-/

namespace Dls2.Main

open Dialogue CoreFramework Utils Main.Log RunDLS2

/-- Surroundings that do not reset the flag. -/
structure Framework where
  answer : Surroundings Answer
  steady : ∀ past, QuitSeen past → answer past .shouldQuit = true

namespace Framework

variable (framework : Framework)

theorem faithful (past : Log) (question : Question) :
    order.keeps past question (framework.answer past question) := by
  cases question with
  | shouldQuit => exact framework.steady past
  | _ => trivial

/-- The whole startup, with what has been said and how it has ended. -/
def startup {Node : Type} (site : Site) (yaml : Yaml Node) (options : Options)
    (file : Except String (List (String × Node))) : Log × Except String Bool :=
  (runStartup site yaml options file).run framework.answer []

variable {Node : Type} (site : Site) (yaml : Yaml Node) (options : Options)
  (file : Except String (List (String × Node)))

theorem startup_error {error : String} (refused : readStartup yaml file = .error error) :
    framework.startup site yaml options file = ([], .error error) := by
  simp [startup, runStartup, refused, lift, Program.bind, Program.run]

theorem startup_ok {config : StartupConfig} (accepted : readStartup yaml file = .ok config) :
    framework.startup site yaml options file =
      (runConfig site options config).run framework.answer [] := by
  simp [startup, runStartup, accepted, lift, Program.bind]

/-- Every step of a startup is allowed and answered by the framework. -/
theorem startup_steps : ∃ said, (framework.startup site yaml options file).1 = said ∧
    Program.Keeps order [] said ∧ Program.AnsweredBy framework.answer [] said := by
  cases read : readStartup yaml file with
  | error error =>
    rw [startup_error framework site yaml options file read]
    exact ⟨[], rfl, Program.keeps_nil, Program.answeredBy_nil⟩
  | ok config =>
    rw [startup_ok framework site yaml options file read]
    obtain ⟨said, log, keeps, answered, -⟩ :=
      (adds_runConfig site options config).run framework.faithful
    exact ⟨said, log, keeps, answered⟩

/-- In every startup, a process is started only while the flag has not been seen to be set and
all layers that were started before it have been seen idle, activated and seen running. A
command is called only while the flag has not been seen to be set and all such layers other than
the owner of the command have been, just after exactly one participant has been found that has
it; any command but `activate` only when its owner has been, too, if it is a layer; and
`activate` only after its owner was started, or loaded by a layer, and then seen to be idle. -/
theorem startup_in_order :
    Program.Keeps order [] (framework.startup site yaml options file).1 := by
  obtain ⟨said, log, keeps, -⟩ := startup_steps framework site yaml options file
  exact log ▸ keeps

theorem startup_outcome {config : StartupConfig} (accepted : readStartup yaml file = .ok config) :
    StartupOutcome site options config (framework.startup site yaml options file).1
      (framework.startup site yaml options file).2 := by
  rw [startup_ok framework site yaml options file accepted]
  obtain ⟨said, log, -, -, outcome⟩ := (adds_runConfig site options config).run framework.faithful
  exact log ▸ outcome

/-- In every startup, the processes that have been started and the commands that have been sent
are those of the plan of the startup file, each at most once and in the order of the plan. Where
the startup returns true, the servers and layers of the plan have all been started and the
layers are up, and nothing at all is left of the plan unless a failure has been reported. A file
that is refused starts nothing. -/
theorem startup_follows_plan :
    match readStartup yaml file with
    | .error error => framework.startup site yaml options file = ([], .error error)
    | .ok config => StartupOutcome site options config
      (framework.startup site yaml options file).1
      (framework.startup site yaml options file).2 := by
  cases read : readStartup yaml file with
  | error error => exact startup_error framework site yaml options file read
  | ok config => exact startup_outcome framework site yaml options file read

/-- The applications that have been loaded in a startup have been loaded by type, the hardwares
first, then the hardwares on Xenomai, then the estimators, and the other types last. -/
theorem startup_loads_producers_first :
    (loadedTypes (actions (framework.startup site yaml options file).1)).Pairwise
      fun first later => rank first ≤ rank later := by
  cases read : readStartup yaml file with
  | error error => simp [startup_error framework site yaml options file read, loadedTypes]
  | ok config =>
    exact (loadedTypes_sorted site options config).sublist
      ((startup_outcome framework site yaml options file read).within.filterMap loadedType)

/-- The participants of the layers offer what the layers register, and nothing else. -/
def OffersRegistered : Prop :=
  ∀ past owner name commands, layerCommands.lookup owner = some commands → name ∉ commands →
    framework.answer past (.find owner name) = (0 : ℕ)

/-- The startup file may list generic plugins, but no startup ever has them loaded: the
supervisor has no such command. -/
theorem startup_never_loads_generic_app_plugins (offers : framework.OffersRegistered) :
    "generic_app_plugins" ∉
      loadedTypes (actions (framework.startup site yaml options file).1) := by
  intro loaded
  obtain ⟨said, log, keeps, answered⟩ := startup_steps framework site yaml options file
  rw [log] at loaded
  obtain ⟨taken, member, typed⟩ := List.mem_filterMap.mp loaded
  obtain ⟨event, heard, acted⟩ := List.mem_filterMap.mp member
  obtain ⟨name, rfl⟩ := loadedType_generic typed
  obtain rfl := action_eq_call acted
  obtain ⟨before, after, split⟩ := List.append_of_mem heard
  obtain ⟨earlier, rfl⟩ := (keeps before _ after split).found
  have found := answered earlier (foundOne "Supervisor" "loadAppPlugin") _ (by
    simpa using split)
  have absent := offers ([] ++ earlier) "Supervisor" "loadAppPlugin" _ rfl (by decide)
  rw [foundOne] at found
  simp only at found
  rw [absent] at found
  exact absurd found (by decide)

/-- The framework obliges for as long as the flag has not been set. -/
def Obliges : Prop :=
  ∀ past question, obliging.keeps past question (framework.answer past question)

/-- When the framework obliges, the startup returns true and has done all of its plan, exactly
as the plan has it, without reporting anything. -/
theorem startup_succeeds {config : StartupConfig} (obliges : framework.Obliges)
    (accepted : readStartup yaml file = .ok config) (readable : Readable site config) :
    (framework.startup site yaml options file).2 = .ok true ∧
      Silent (framework.startup site yaml options file).1 ∧
      actions (framework.startup site yaml options file).1 = plan site options config := by
  have running : Running [] := fun seen => by simp [QuitSeen] at seen
  obtain ⟨said, log, -, -, ended, silent, -⟩ := Program.Adds.run obliges
    (succeeds_runConfig options readable (typed_readStartup accepted) running)
  rw [← startup_ok framework site yaml options file accepted] at log ended
  have outcome := startup_outcome framework site yaml options file accepted
  rw [log, ended] at outcome
  exact ⟨ended, by rwa [log], by rw [log]; exact outcome.done rfl silent⟩

/-- A framework in which everything is done that is asked for, and the participants offer what
`offers` says. -/
def ready (offers : String → String → ℕ) : Framework where
  answer past
    | .shouldQuit => decide (QuitSeen past)
    | .startProcess _ _ _ => .ok ()
    | .findState _ _ => true
    | .find owner name => offers owner name
    | .callCommand _ _ _ => (1 : ℕ)
    | .sleepFor _ => (0 : ℕ)
    | .cerr _ => ()
  steady _ seen := decide_eq_true seen

/-- Files whose nodes are lists of words. -/
def words : Yaml (List String) where
  badConversion := "bad conversion"
  isSequence _ := true
  asString node := .ok (" ".intercalate node)
  asStrings node := .ok node
  asBool node := .ok (node == ["true"])
  asHeight node := .ok (" ".intercalate node)

/-- A site without servers. -/
def here : Site := ⟨"/usr/lib/dls2", .ok []⟩

/-- A command line with nothing but a startup file. -/
def nothingElse : Options := Options.cleared ⟨false, false, true, false, false⟩

/-- Every layer offers each of its commands once. -/
def registered (owner name : String) : ℕ :=
  if name ∈ (layerCommands.lookup owner).getD [name] then 1 else 0

/-- A plugin of the startup file that is never loaded. -/
theorem startup_never_loads_logger : "generic_app_plugins" ∉ loadedTypes (actions
    ((ready registered).startup here words nothingElse (.ok [("generic_app_plugins", ["logger"]),
      ("robot_name", ["hyq"]), ("activate", ["logger"]), ("run_supervisor", ["true"])])).1) := by
  refine startup_never_loads_generic_app_plugins _ here words nothingElse _ ?_
  intro past owner name commands listed missing
  simp [ready, registered, listed, missing]

/-- A hardware that is activated and has the model loaded. -/
theorem startup_succeeds_hardware :
    actions ((ready fun _ _ => 1).startup here words nothingElse (.ok
      [("layers", ["hardware"]), ("hardwares", ["gazebo"]), ("robot_name", ["hyq"]),
        ("activate", ["gazebo"]), ("load_model", ["true"])])).1 =
    [.start "HardwareLayer"
        ["/usr/lib/dls2/child_process_launcher", "HardwareLayer", "hardware", "layer", "hyq"] true,
      .call "activate" [] "HardwareLayer", .call "loadHardware" ["gazebo"] "HardwareLayer",
      .call "activate" [] "gazebo", .call "loadModel" ["hyq", "1.000000"] "gazebo"] := by
  have obliges : (ready fun _ _ => 1).Obliges := by
    rintro past (_ | _) <;> simp [obliging, ready, Running]
  have accepted : readStartup words (.ok [("layers", ["hardware"]), ("hardwares", ["gazebo"]),
      ("robot_name", ["hyq"]), ("activate", ["gazebo"]), ("load_model", ["true"])]) =
      .ok ⟨["hardware"], [("hardwares", ["gazebo"])], "hyq", "1.000000", ["gazebo"], false,
        .ok false, .ok true⟩ := rfl
  exact (startup_succeeds _ here words nothingElse _ obliges accepted
    ⟨fun _ => ⟨[], rfl⟩, ⟨false, rfl⟩, ⟨true, rfl⟩⟩).2.2

end Framework

end Dls2.Main
