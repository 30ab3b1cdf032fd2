import Dls2.Main.RunDLS2

/-!
# What a startup is to do

The plan of a startup is the list of the processes that it starts and of the commands that it
calls, in order. What has become of it so far is read off what has been said: a process that
was started, and a command that was sent, which is when `callCommand` returns one.
-/

namespace Dls2.Main

open Dialogue CoreFramework

/-- What a startup does to its surroundings. -/
inductive Action where
  | start (id : String) (args : List String) (ownGroup : Bool)
  | call (name : String) (args : List String) (owner : String)
  deriving DecidableEq, Repr

/-- What has been said between the startup and its surroundings. -/
abbrev Log := List (Said Answer)

namespace Log

/-- The action that a question and its answer amount to. -/
def action : Said Answer → Option Action
  | ⟨.startProcess id args ownGroup, .ok ()⟩ => some (.start id args ownGroup)
  | ⟨.callCommand name args owner, called⟩ =>
    if called = 1 then some (.call name args owner) else none
  | _ => none

def actions (log : Log) : List Action := log.filterMap action

/-- The flag has been seen to be set. -/
def QuitSeen (log : Log) : Prop := ⟨.shouldQuit, true⟩ ∈ log

/-- Whether a piece of the history is the flag seen to be set. -/
def tellsQuit : Said Answer → Bool
  | ⟨.shouldQuit, quitting⟩ => quitting
  | _ => false

theorem tellsQuit_iff (event : Said Answer) :
    tellsQuit event = true ↔ event = ⟨.shouldQuit, true⟩ := by
  match event with
  | ⟨.shouldQuit, true⟩ => simp [tellsQuit]
  | ⟨.shouldQuit, false⟩ => simp [tellsQuit]
  | ⟨.startProcess _ _ _, _⟩ => simp [tellsQuit]
  | ⟨.findState _ _, _⟩ => simp [tellsQuit]
  | ⟨.find _ _, _⟩ => simp [tellsQuit]
  | ⟨.callCommand _ _ _, _⟩ => simp [tellsQuit]
  | ⟨.sleepFor _, _⟩ => simp [tellsQuit]
  | ⟨.cerr _, _⟩ => simp [tellsQuit]

instance QuitSeen.decidable (log : Log) : Decidable (QuitSeen log) :=
  decidable_of_iff (log.any tellsQuit = true) (by
    simp only [List.any_eq_true, tellsQuit_iff, QuitSeen]
    exact ⟨fun ⟨_, member, same⟩ => same ▸ member, fun member => ⟨_, member, rfl⟩⟩)

def Running (log : Log) : Prop := ¬ QuitSeen log

/-- Something has been reported to have failed. -/
def Reports (log : Log) : Prop := ∃ text, ⟨.cerr text, ()⟩ ∈ log

def started (id : String) (args : List String) (ownGroup : Bool) : Said Answer :=
  ⟨.startProcess id args ownGroup, .ok ()⟩

def saw (app state : String) : Said Answer := ⟨.findState app state, true⟩

def sent (name : String) (args : List String) (owner : String) : Said Answer :=
  ⟨.callCommand name args owner, (1 : ℕ)⟩

def foundOne (owner name : String) : Said Answer := ⟨.find owner name, (1 : ℕ)⟩

@[simp] theorem action_started (id : String) (args : List String) (ownGroup : Bool) :
    action (started id args ownGroup) = some (.start id args ownGroup) := rfl

@[simp] theorem action_sent (name : String) (args : List String) (owner : String) :
    action (sent name args owner) = some (.call name args owner) := rfl

/-- A call is an action when the command has been sent. -/
theorem action_eq_call {event : Said Answer} {name owner : String} {args : List String}
    (acted : action event = some (.call name args owner)) : event = sent name args owner := by
  match event with
  | ⟨.callCommand _ _ _, called⟩ =>
    by_cases one : called = 1
    · simp only [action, one, if_true, Option.some.injEq, Action.call.injEq] at acted
      obtain ⟨rfl, rfl, rfl⟩ := acted
      rw [one, sent]
    · simp [action, one] at acted
  | ⟨.startProcess _ _ _, .ok ()⟩ => simp [action] at acted
  | ⟨.startProcess _ _ _, .error _⟩ => simp [action] at acted

/-- The arguments of the launcher that make it a layer. -/
def IsLayer (args : List String) : Prop := args[3]? = some "layer"

/-- The layer has been started, seen to be idle, activated and seen to run, in this order. -/
def LayerUp (id : String) (log : Log) : Prop :=
  ∃ args ownGroup, List.Sublist
    [started id args ownGroup, saw id "idle", sent "activate" [] id, saw id "run"] log

/-- Every layer that has been started is up. -/
def AllUp (log : Log) : Prop :=
  ∀ id args ownGroup, started id args ownGroup ∈ log → IsLayer args → LayerUp id log

/-- All layers that have been started are up, but for the owner of a command. -/
def OthersUp (owner : String) (log : Log) : Prop :=
  ∀ id args ownGroup, started id args ownGroup ∈ log → IsLayer args → id ≠ owner → LayerUp id log

/-- The participant has been brought into being, as a process or by a layer that loads it. -/
def Introduces (id : String) (event : Said Answer) : Prop :=
  (∃ args ownGroup, event = started id args ownGroup) ∨
    ∃ command layer, event = sent command [id] layer

end Log

namespace RunDLS2

open Main.Log

/-- The servers that are started before an entry of the configuration that cannot be read. -/
def serverPlan : ℕ → List (Except String (String × Int)) → List Action
  | _, [] => []
  | _, .error _ :: _ => []
  | serverId, .ok (ip, port) :: rest =>
    .start ("DiscoveryServer" ++ toString serverId) (serverArgs serverId ip port) true ::
      serverPlan (serverId + 1) rest

def serversPlan (site : Site) : List Action :=
  match site.serversConfig with
  | .error _ => []
  | .ok servers => serverPlan 0 servers

def layerPlan (site : Site) (robotName : String) (layer : String × String) : List Action :=
  [.start layer.2 (layerArgs site robotName layer.1 layer.2) (layer.1 != "console"),
    .call "activate" [] layer.2]

def layersPlan (site : Site) (robotName : String) (layers : List (String × String)) :
    List Action :=
  layers.flatMap (layerPlan site robotName)

def supervisorPlan (site : Site) (config : StartupConfig) : List Action :=
  match config.runSupervisor with
  | .ok true => layerPlan site config.robotName ("supervisor", "Supervisor")
  | _ => []

def modelPlan (config : StartupConfig) (appType name : String) : List Action :=
  match config.loadModel with
  | .ok true => if appType = "hardwares" ∨ appType = "xeno_hardwares" then
      [.call "loadModel" [config.robotName, config.spawningHeight] name] else []
  | _ => []

def startPlan (appsToActivate : List String) (name loadCommand layer : String) : List Action :=
  .call loadCommand [name] layer ::
    if name ∈ appsToActivate then [.call "activate" [] name] else []

def applicationPlan (config : StartupConfig) (appType layer command name : String) :
    List Action :=
  startPlan config.appsToActivate name command layer ++ modelPlan config appType name

def applicationsPlan (config : StartupConfig) (appType : String) : List Action :=
  match config.appsToLaunch.lookup appType, instructionsSet.lookup appType with
  | some names, some (layer, command) =>
    names.flatMap (applicationPlan config appType layer command)
  | _, _ => []

/-- The servers of the configuration, where the file asks for them. -/
def requestedServers (site : Site) (config : StartupConfig) : List Action :=
  if config.runServers then serversPlan site else []

/-- What comes before the applications. -/
def frameworkPlan (site : Site) (options : Options) (config : StartupConfig) : List Action :=
  requestedServers site config ++
    layersPlan site config.robotName (requestedLayers (launchFlags options config.layers)) ++
    supervisorPlan site config

/-- The whole plan of a startup file. -/
def plan (site : Site) (options : Options) (config : StartupConfig) : List Action :=
  frameworkPlan site options config ++
    (appLaunchOrder config.appsToLaunch).flatMap (applicationsPlan config)

/-! ### The commands of the layers -/

/-- The commands that every application has. -/
def appCommands : List String :=
  ["shutdown", "where", "activate", "stopActivation", "deactivate"]

/-- The commands that the layers register. -/
def layerCommands : List (String × List String) :=
  [("HardwareLayer", appCommands ++ ["loadHardware", "loadXenoHardware", "unloadHardware", "list"]),
    ("ControlLayer", appCommands ++ ["loadGenerator", "unloadGenerator", "loadController",
      "loadPythonController", "loadExternalController", "unloadController",
      "unloadExternalController", "ls"]),
    ("EstimationLayer", appCommands ++ ["loadEstimator", "unloadEstimator"]),
    ("Supervisor", appCommands ++ ["info", "runProcedure", "loadPeriodicAppPlugin",
      "unloadPeriodicAppPlugin", "loadPythonPeriodicApp"])]

/-! ### The order of the applications -/

/-- The types of applications that others need the state of. -/
def producers : List String := ["hardwares", "xeno_hardwares", "estimators"]

/-- The producers come first, one type after the other. -/
def rank (appType : String) : ℕ := producers.idxOf appType

/-- The type of the application that an action loads. -/
def loadedType : Action → Option String
  | .call command [_] layer =>
    (instructionsSet.find? fun entry => entry.2 = (layer, command)).map Prod.fst
  | _ => none

/-- The types of the applications that are loaded, in order. -/
def loadedTypes (actions : List Action) : List String := actions.filterMap loadedType

@[simp] theorem loadedType_start (id : String) (args : List String) (ownGroup : Bool) :
    loadedType (.start id args ownGroup) = none := rfl

@[simp] theorem loadedType_activate (owner : String) :
    loadedType (.call "activate" [] owner) = none := rfl

/-- A command belongs to one type of application. -/
theorem loadedType_load {appType layer command : String} (name : String)
    (listed : instructionsSet.lookup appType = some (layer, command)) :
    loadedType (.call command [name] layer) = some appType := by
  have own : ∀ entry ∈ instructionsSet,
      instructionsSet.find? (fun other => other.2 = (entry.2.1, entry.2.2)) = some entry := by
    decide
  obtain ⟨before, after, split, -⟩ := List.lookup_eq_some_iff.mp listed
  have found := own (appType, layer, command) (by simp [split])
  simp only at found
  simp [loadedType, found]

theorem loadedType_generic {action : Action}
    (typed : loadedType action = some "generic_app_plugins") :
    ∃ name, action = .call "loadAppPlugin" [name] "Supervisor" := by
  have entries : ∀ entry ∈ instructionsSet, entry.1 = "generic_app_plugins" →
      entry.2 = ("Supervisor", "loadAppPlugin") := by decide
  unfold loadedType at typed
  split at typed
  next command name layer =>
    obtain ⟨entry, found, same⟩ := Option.map_eq_some_iff.mp typed
    have own : entry.2 = (layer, command) := by simpa using List.find?_some found
    have meant := entries entry (List.mem_of_find?_eq_some found) same
    rw [own, Prod.mk.injEq] at meant
    exact ⟨name, by rw [meant.1, meant.2]⟩
  next => simp at typed

@[simp] theorem loadedTypes_append (first second : List Action) :
    loadedTypes (first ++ second) = loadedTypes first ++ loadedTypes second :=
  List.filterMap_append

theorem loadedTypes_application (config : StartupConfig) {appType layer command : String}
    (name : String) (listed : instructionsSet.lookup appType = some (layer, command)) :
    loadedTypes (applicationPlan config appType layer command name) = [appType] := by
  have model : loadedTypes (modelPlan config appType name) = [] := by
    unfold modelPlan
    repeat' split
    all_goals simp [loadedTypes, loadedType]
  rw [applicationPlan, loadedTypes_append, model, startPlan]
  split <;> simp [loadedTypes, List.filterMap_cons, loadedType_load name listed]

/-- All that the plan of a type loads is of this type. -/
theorem loadedTypes_applications (config : StartupConfig) (appType : String) :
    ∀ loaded ∈ loadedTypes (applicationsPlan config appType), loaded = appType := by
  unfold applicationsPlan
  split
  next names layer command launched listed =>
    intro loaded member
    simp only [loadedTypes, List.filterMap_flatMap, List.mem_flatMap] at member
    obtain ⟨name, -, member⟩ := member
    have one := loadedTypes_application config name listed
    rw [loadedTypes] at one
    simpa [one] using member
  next => simp [loadedTypes]

theorem loadedType_server {entries : List (Except String (String × Int))} {serverId : ℕ}
    {action : Action} (planned : action ∈ serverPlan serverId entries) :
    loadedType action = none := by
  induction entries generalizing serverId with
  | nil => simp [serverPlan] at planned
  | cons entry rest ih =>
    match entry with
    | .error error => simp [serverPlan] at planned
    | .ok (ip, port) =>
      rcases List.mem_cons.mp planned with rfl | planned
      · rfl
      · exact ih planned

theorem loadedType_layer {site : Site} {robotName : String} {layer : String × String}
    {action : Action} (planned : action ∈ layerPlan site robotName layer) :
    loadedType action = none := by
  simp only [layerPlan, List.mem_cons, List.not_mem_nil, or_false] at planned
  rcases planned with rfl | rfl <;> rfl

/-- Nothing is loaded before the applications. -/
theorem loadedTypes_framework (site : Site) (options : Options) (config : StartupConfig) :
    loadedTypes (frameworkPlan site options config) = [] := by
  refine List.filterMap_eq_nil_iff.mpr fun action planned => ?_
  simp only [frameworkPlan, List.mem_append] at planned
  rcases planned with (server | layer) | supervisor
  · unfold requestedServers serversPlan at server
    split at server
    · split at server
      · simp at server
      · exact loadedType_server server
    · simp at server
  · obtain ⟨entry, -, layer⟩ := List.mem_flatMap.mp layer
    exact loadedType_layer layer
  · unfold supervisorPlan at supervisor
    split at supervisor
    · exact loadedType_layer supervisor
    · simp at supervisor

/-- The order of the types puts the producers first. -/
theorem appLaunchOrder_sorted (appsToLaunch : List (String × List String)) :
    (appLaunchOrder appsToLaunch).Pairwise fun first later => rank first ≤ rank later := by
  have last {appType : String} (other : appType ∉ producers) : rank appType = 3 :=
    List.idxOf_eq_length other
  have bounded (appType : String) : rank appType ≤ 3 := List.idxOf_le_length
  have rest {appType : String} (listed : appType ∈ (appsToLaunch.map Prod.fst).filter
      (· ∉ ["hardwares", "xeno_hardwares", "estimators"])) : rank appType = 3 :=
    last (by simpa [producers] using (List.mem_filter.mp listed).2)
  refine List.pairwise_append.mpr ⟨by decide, ?_, fun first _ later listed => ?_⟩
  · exact List.pairwise_of_forall_mem_list fun first listed later also => by
      rw [rest listed, rest also]
  · rw [rest listed]
    exact bounded first

/-- The whole plan loads the producers first. -/
theorem loadedTypes_sorted (site : Site) (options : Options) (config : StartupConfig) :
    (loadedTypes (plan site options config)).Pairwise fun first later =>
      rank first ≤ rank later := by
  rw [plan, loadedTypes_append, loadedTypes_framework, List.nil_append, loadedTypes,
    List.filterMap_flatMap, List.pairwise_flatMap]
  have typed := loadedTypes_applications config
  refine ⟨fun appType _ => List.pairwise_of_forall_mem_list fun first listed later also => ?_,
    (appLaunchOrder_sorted config.appsToLaunch).imp fun {first later} sorted loaded listed other
      also => ?_⟩
  · rw [typed appType first listed, typed appType later also]
  · rw [typed first loaded listed, typed later other also]
    exact sorted

end RunDLS2

end Dls2.Main
