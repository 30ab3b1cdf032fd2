import Dls2.CoreFramework.Options
import Dls2.Utils.Wait

/-!
# The startup node

`RunDLS2` launches the discovery servers and the layers, waits for each layer to be idle,
activates it, waits for it to run, and then loads and activates the applications of the
startup file. Everything it learns comes from outside: the flag that a signal or a command
sets, the states that the watcher has seen, the participants that have been discovered, and
what becomes of a process that is started. All of these are questions here.
-/

namespace Dls2.Main

open Dialogue CoreFramework Utils

/-- What the startup node asks of its surroundings. -/
inductive Question where
  | shouldQuit
  | startProcess (id : String) (args : List String) (ownGroup : Bool)
  | findState (app state : String)
  | find (owner name : String)
  | callCommand (name : String) (args : List String) (owner : String)
  | sleepFor (ms : ℕ)
  | cerr (text : String)
  deriving DecidableEq

/-- `startProcess` may throw, `find` is answered by the number of participants, `callCommand`
by what it returns, and `sleepFor` by the time that it took on top. -/
abbrev Answer : Question → Type
  | .shouldQuit => Bool
  | .startProcess _ _ _ => Except String Unit
  | .findState _ _ => Bool
  | .find _ _ => ℕ
  | .callCommand _ _ _ => ℕ
  | .sleepFor _ => ℕ
  | .cerr _ => Unit

abbrev Startup := Program Answer String

/-- What is configured outside the repository. -/
structure Site where
  installRuntimeDir : String
  serversConfig : Except String (List (Except String (String × Int)))

/-- The functions of the YAML library that read a node. A spawning height is read as the text
that `std::to_string` makes of it, and `badConversion` is what reading nothing throws. -/
structure Yaml (Node : Type) where
  badConversion : String
  isSequence : Node → Bool
  asString : Node → Except String String
  asStrings : Node → Except String (List String)
  asBool : Node → Except String Bool
  asHeight : Node → Except String String

namespace RunDLS2

def startupDiscoveryTimeoutMs : ℕ := 30000

def startupStateTimeoutMs : ℕ := 10000

def startupRetryIntervalMs : ℕ := 1000

/-- How often a loop runs that counts from zero to a timeout. -/
def rounds (timeout interval : ℕ) : ℕ := (timeout + interval - 1) / interval

def shouldQuit : Startup Bool := .query Question.shouldQuit

def cerr (text : String) : Startup Unit := .query (Question.cerr text)

def sleepFor (ms : ℕ) : Startup ℕ := .query (Question.sleepFor ms)

/-- The test of the watcher. -/
def findState (app state : String) : Startup Bool := .query (Question.findState app state)

def lift {α : Type} : Except String α → Startup α
  | .ok value => .done value
  | .error error => .fail error

/-- The constructor of `OwnedProcess`. -/
def ownedProcess (id : String) (args : List String) (ownGroup : Bool) : Startup Unit := do
  lift (← .query (Question.startProcess id args ownGroup))

def waiting : Waiting Answer String where
  stopWait := shouldQuit
  sleepFor := sleepFor
  cerr := cerr

/-- The second operand of `&&` is not evaluated after a first one that is false. -/
def andAlso (first second : Startup Bool) : Startup Bool :=
  first.bind fun held => if held then second else .done false

/-- `waitForState` of `runLayer` and of `runStartup`, which differ in what they report. -/
def waitForState (report app state : String) : Startup Bool := do
  let ended ← Program.retry shouldQuit
    (fun _ => do
      let reached ← waitState waiting findState app state false
      if reached then return .inr () else return .inl ())
    (rounds startupStateTimeoutMs 5000) ()
  match ended with
  | .inr () => return true
  | .inl () =>
    cerr (report ++ " did not reach " ++ state ++ " within "
      ++ toString (startupStateTimeoutMs / 1000) ++ " seconds")
    return false

/-- The loop that calls a command as soon as one participant has it; otherwise the number of
participants that were found last. -/
def callWhenUnique (owner command : String) (args : List String) : Startup (ℕ ⊕ Unit) :=
  Program.retry shouldQuit
    (fun _ => do
      let found ← .query (Question.find owner command)
      if found ≠ 1 then
        let _ ← sleepFor startupRetryIntervalMs
        return .inl found
      else
        let called ← .query (Question.callCommand command args owner)
        if called = 1 then return .inr () else return .inl found)
    (rounds startupDiscoveryTimeoutMs startupRetryIntervalMs) 0

/-- What `runLayer` does with the process that it has started. -/
def bringUp (id : String) : Startup Bool :=
  andAlso (waitForState ("Layer " ++ id) id "idle") do
    let called ← callWhenUnique id "activate" []
    match called with
    | .inr () => waitForState ("Layer " ++ id) id "run"
    | .inl found =>
      cerr ("Layer " ++ id ++ " did not expose a unique activate command within "
        ++ toString (startupDiscoveryTimeoutMs / 1000) ++ " seconds (found "
        ++ toString found ++ " matching participants)")
      return false

/-- The command line of a layer. -/
def layerArgs (site : Site) (robotName lib id : String) : List String :=
  [site.installRuntimeDir ++ "/child_process_launcher", id, lib, "layer", robotName]

/-- `RunDLS2::runLayer` -/
def runLayer (site : Site) (robotName lib id : String) : Startup Bool := do
  let quitting ← shouldQuit
  if quitting then return false
  else
    ownedProcess id (layerArgs site robotName lib id) (lib != "console")
    bringUp id

/-- The layers that the options ask for, with the libraries they are in and their names. -/
def requestedLayers (options : Options) : List (String × String) :=
  (if options.launchLog then [("log", "LogLayer")] else []) ++
  (if options.launchHardware then [("hardware", "HardwareLayer")] else []) ++
  (if options.launchControl then [("control", "ControlLayer")] else []) ++
  (if options.launchConsole then [("console", "ConsoleLayer")] else []) ++
  (if options.launchEstimation then
    [("estimation", String.ofList options.estimationLayerName)] else [])

/-- One of the layers of `launchLayers`. It is passed over once the flag is set. -/
def launchLayer (site : Site) (robotName : String) (layer : String × String) : Startup Bool := do
  let quitting ← shouldQuit
  if quitting then return true else runLayer site robotName layer.1 layer.2

/-- `RunDLS2::launchLayers` -/
def launchLayers (site : Site) (robotName : String) (options : Options) : Startup Bool := do
  let launched ← Program.eachWhile (launchLayer site robotName) (requestedLayers options)
  if launched then return !(← shouldQuit) else return false

/-- The command line of a discovery server. -/
def serverArgs (serverId : ℕ) (ip : String) (port : Int) : List String :=
  ["/usr/bin/env", "fastdds", "discovery", "-p", toString port, "--server-id",
    toString serverId, "-l", ip]

/-- `RunDLS2::launchSingleServer`; the result is the next value of `server_id`. -/
def launchSingleServer (serverId : ℕ) (ip : String) (port : Int) : Startup ℕ := do
  let quitting ← shouldQuit
  if quitting then return serverId
  else
    ownedProcess ("DiscoveryServer" ++ toString serverId) (serverArgs serverId ip port) true
    return serverId + 1

/-- `RunDLS2::launchServers` -/
def launchServers (site : Site) : Startup Unit := do
  let servers ← lift site.serversConfig
  let _ ← servers.foldlM
    (fun serverId server => do
      let (ip, port) ← lift server
      launchSingleServer serverId ip port)
    0
  return ()

/-! ### The startup file -/

def allPossibleOptions : List String :=
  ["layers", "hardwares", "xeno_hardwares", "controllers", "python_controllers",
    "motion_generators", "estimators", "generic_periodic_app_plugins", "python_periodic_apps",
    "generic_app_plugins", "robot_name", "robot_spawning_height", "load_model", "activate",
    "run_servers", "run_supervisor"]

def layerNames : List String := ["estimation", "hardware", "control", "console", "log"]

/-- Who loads the applications of each type, and by which command, in the order of the map. -/
def instructionsSet : List (String × String × String) :=
  [("controllers", "ControlLayer", "loadController"),
    ("estimators", "EstimationLayer", "loadEstimator"),
    ("generic_app_plugins", "Supervisor", "loadAppPlugin"),
    ("generic_periodic_app_plugins", "Supervisor", "loadPeriodicAppPlugin"),
    ("hardwares", "HardwareLayer", "loadHardware"),
    ("motion_generators", "ControlLayer", "loadGenerator"),
    ("python_controllers", "ControlLayer", "loadPythonController"),
    ("python_periodic_apps", "Supervisor", "loadPythonPeriodicApp"),
    ("xeno_hardwares", "HardwareLayer", "loadXenoHardware")]

variable {Node : Type}

/-- `RunDLS2::validateStartupConfig` -/
def validateStartupConfig (config : List (String × Node)) : Except String Unit :=
  let invalid := (config.map Prod.fst).filter (· ∉ allPossibleOptions)
  if invalid = [] then .ok ()
  else .error ("\nInvalid entries in startup config file. The invalid entries are:\n"
    ++ "\n".intercalate invalid ++ "\n--------\nAllowed entries are:\n"
    ++ "\n".intercalate allPossibleOptions)

/-- `RunDLS2::collectLayersToRun` -/
def collectLayersToRun (yaml : Yaml Node) (config : List (String × Node)) :
    Except String (List String) :=
  match config.lookup "layers" with
  | none => .ok []
  | some node =>
    if yaml.isSequence node then do
      let layers ← yaml.asStrings node
      match layers.find? (· ∉ layerNames) with
      | none => return layers
      | some layer => .error ("Layer " ++ layer ++ " is not allowed. Allowed layers names are: "
        ++ ", ".intercalate layerNames)
    else .ok []

/-- `RunDLS2::collectApplicationsToRun` -/
def collectApplicationsToRun (yaml : Yaml Node) (config : List (String × Node)) :
    Except String (List (String × List String)) :=
  (instructionsSet.map Prod.fst).filterMapM fun appType =>
    match config.lookup appType with
    | none => return none
    | some node => do return some (appType, ← yaml.asStrings node)

/-- An entry that the file has to have. -/
def required {α : Type} (yaml : Yaml Node) (config : List (String × Node)) (key : String)
    (read : Node → Except String α) : Except String α :=
  match config.lookup key with
  | none => .error yaml.badConversion
  | some node => read node

/-- `config[key] && config[key].as<bool>()` -/
def flag (yaml : Yaml Node) (config : List (String × Node)) (key : String) :
    Except String Bool :=
  match config.lookup key with
  | none => .ok false
  | some node => yaml.asBool node

/-- The spawning height, one meter where the file has none. -/
def readSpawningHeight (yaml : Yaml Node) (config : List (String × Node)) :
    Except String String :=
  match config.lookup "robot_spawning_height" with
  | none => .ok "1.000000"
  | some node => yaml.asHeight node

/-- What `runStartup` reads before it starts anything. The last two flags are read later, each
time that they are needed. -/
structure StartupConfig where
  layers : List String
  appsToLaunch : List (String × List String)
  robotName : String
  spawningHeight : String
  appsToActivate : List String
  runServers : Bool
  runSupervisor : Except String Bool
  loadModel : Except String Bool

/-- The first part of `RunDLS2::runStartup`. -/
def readStartup (yaml : Yaml Node) (file : Except String (List (String × Node))) :
    Except String StartupConfig := do
  let config ← file
  validateStartupConfig config
  let layers ← collectLayersToRun yaml config
  let appsToLaunch ← collectApplicationsToRun yaml config
  let robotName ← required yaml config "robot_name" yaml.asString
  let spawningHeight ← readSpawningHeight yaml config
  let appsToActivate ← required yaml config "activate" yaml.asStrings
  let runServers ← flag yaml config "run_servers"
  return {
    layers, appsToLaunch, robotName, spawningHeight, appsToActivate, runServers
    runSupervisor := flag yaml config "run_supervisor"
    loadModel := flag yaml config "load_model" }

/-- The flags that the layers of the startup file set. -/
def launchFlags (options : Options) (layers : List String) : Options where
  toOtherOptions := options.toOtherOptions
  launchLog := options.launchLog || "log" ∈ layers
  launchHardware := options.launchHardware || "hardware" ∈ layers
  launchControl := options.launchControl || "control" ∈ layers
  launchConsole := options.launchConsole || "console" ∈ layers
  launchEstimation := options.launchEstimation || "estimation" ∈ layers
  launchService := options.launchService
  estimationLayerName := options.estimationLayerName

/-- `callRequiredCommand` -/
def callRequiredCommand (owner command : String) (args : List String) : Startup Bool := do
  let called ← callWhenUnique owner command args
  match called with
  | .inr () => return true
  | .inl found =>
    cerr ("Startup node failed: command " ++ owner ++ "::" ++ command
      ++ " was not available within " ++ toString (startupDiscoveryTimeoutMs / 1000)
      ++ " seconds (found " ++ toString found ++ " matching participants; "
      ++ "0 = not discovered yet, >1 = duplicate/stale participant)")
    return false

def startupReport (app : String) : String := "Startup node failed: " ++ app

/-- `startApplication` -/
def startApplication (appsToActivate : List String) (name loadCommand layer : String) :
    Startup Bool :=
  andAlso (callRequiredCommand layer loadCommand [name]) <|
    andAlso (waitForState (startupReport name) name "idle") <|
      if name ∈ appsToActivate then
        andAlso (callRequiredCommand name "activate" [])
          (waitForState (startupReport name) name "run")
      else .done true

/-- The types of the applications to launch, those that others need the state of first. -/
def appLaunchOrder (appsToLaunch : List (String × List String)) : List String :=
  ["hardwares", "xeno_hardwares", "estimators"] ++
    (appsToLaunch.map Prod.fst).filter (· ∉ ["hardwares", "xeno_hardwares", "estimators"])

/-- Whether the model of the robot is loaded after an application of this type. -/
def loadsModel (config : StartupConfig) (appType : String) : Startup Bool :=
  if appType = "hardwares" ∨ appType = "xeno_hardwares" then lift config.loadModel
  else .done false

/-- An application that cannot be started is reported. -/
def tryApplication (config : StartupConfig) (appType layer command name : String) :
    Startup Unit := do
  let ready ← startApplication config.appsToActivate name command layer
  if !ready then
    cerr ("DLS2 STARTUP NODE: Failed to start application " ++ name ++ " of type " ++ appType)

/-- The model of the robot is loaded after a hardware when the file says so. -/
def loadModel (config : StartupConfig) (appType name : String) : Startup Bool := do
  let model ← loadsModel config appType
  if model then
    let quitting ← shouldQuit
    if quitting then return false
    else
      let _ ← sleepFor 1000
      let quitting ← shouldQuit
      if quitting then return false
      else callRequiredCommand name "loadModel" [config.robotName, config.spawningHeight]
  else return true

/-- One application: a failure to start it is no reason to stop, one to load the model is. -/
def launchApplication (config : StartupConfig) (appType layer command name : String) :
    Startup Bool := do
  tryApplication config appType layer command name
  loadModel config appType name

/-- The applications of one type. -/
def launchApplications (config : StartupConfig) (appType : String) : Startup Bool :=
  match config.appsToLaunch.lookup appType with
  | none => .done true
  | some names => Program.eachWhile
    (fun name => match instructionsSet.lookup appType with
      | none => .fail "map::at"
      | some (layer, command) => launchApplication config appType layer command name)
    names

def runServers (site : Site) (config : StartupConfig) : Startup Unit :=
  if config.runServers then launchServers site else return ()

def launchSupervisor (site : Site) (config : StartupConfig) : Startup Bool := do
  let supervised ← lift config.runSupervisor
  if supervised then runLayer site config.robotName "supervisor" "Supervisor" else return true

/-- All applications of the file, type by type. -/
def launchAll (config : StartupConfig) : Startup Bool := do
  let finished ← Program.eachWhile (launchApplications config)
    (appLaunchOrder config.appsToLaunch)
  if finished then return !(← shouldQuit) else return false

/-- The rest of `RunDLS2::runStartup`. -/
def runConfig (site : Site) (options : Options) (config : StartupConfig) : Startup Bool := do
  runServers site config
  andAlso (launchLayers site config.robotName (launchFlags options config.layers)) <|
    andAlso (launchSupervisor site config) (launchAll config)

/-- `RunDLS2::runStartup` for a file that has been loaded, or not. -/
def runStartup (site : Site) (yaml : Yaml Node) (options : Options)
    (file : Except String (List (String × Node))) : Startup Bool := do
  runConfig site options (← lift (readStartup yaml file))

end RunDLS2

end Dls2.Main
