import Dls2.Lib.Assoc
import Dls2.Utils.Wait

/-!
# Layers that run plugins

The hardware layer, the estimation layer and the supervisor keep a table of the processes that they
have launched, by the name of the plugin. Loading launches a process and enters it. Unloading calls
the plugin's own `shutdown`, waits for its process to end, kills it if it does not, and takes it out
of the table.

The layers differ in the environment variable and the texts, in the type and the last argument on
the command line of the process, and in whether they detach it. Children are numbered in the order
in which the layer creates them.

`monitor` is left out. It polls the processes of the table with `checkAppData` and keeps the entries
of those that have ended.
-/

namespace Dls2.CoreFramework.PluginLayers

open Assoc Dialogue Utils

/-- Where a text goes. -/
inductive Sink where
  | error
  | warning
  | info
  | cout
  deriving DecidableEq, Repr

/-- What a layer asks of its surroundings. -/
inductive Ask where
  | getenv (name : String)
  | launch (child : ℕ) (args : List String)
  | detach (child : ℕ)
  | running (child : ℕ)
  | kill (child : ℕ)
  | callCommand (name : String) (args : List String) (owner : String)
  | sleepFor (ms : ℕ)
  | print (sink : Sink) (text : String)
  deriving DecidableEq, Repr

/-- `launch` is answered by whether there is a child, and throws otherwise. `running` throws where
there is no answer, and `sleepFor` is answered by the time that it took on top. -/
abbrev Reply : Ask → Type
  | .getenv _ => Option String
  | .launch _ _ => Bool
  | .detach _ => Unit
  | .running _ => Option Bool
  | .kill _ => Unit
  | .callCommand _ _ _ => ℕ
  | .sleepFor _ => ℕ
  | .print _ _ => Unit

/-- The table, and how many children there have been. -/
structure Plugins where
  table : Map String ℕ
  launched : ℕ

/-- A program of the layer leaves its plugins behind when it throws. -/
abbrev LayerProgram := Program Reply Plugins

/-- What a kind of plugin has of its own. -/
structure Kind where
  componentType : String
  lastArg : String → String
  detached : Bool
  alreadyLoaded : String → String
  notLoaded : String → String
  forcing : String → Sink × String
  unloaded : String → Option String

namespace Plugins

def new : Plugins := ⟨∅, 0⟩

def print (sink : Sink) (text : String) : LayerProgram Unit := .query (Ask.print sink text)

def error (text : String) : LayerProgram Unit := print .error text

/-- A variable of the environment that has to be there, and, for the hardware layer, not empty. -/
def requireEnv (name : String) (nonempty : Bool) (missing : String) :
    LayerProgram (Option String) := do
  match ← (.query (Ask.getenv name) : LayerProgram (Option String)) with
  | none =>
    error missing
    return none
  | some value =>
    if nonempty && value == "" then
      error missing
      return none
    else return some value

/-- The load functions, with the program that finds the launcher. -/
def load (kind : Kind) (launcher : LayerProgram (Option String)) (plugins : Plugins)
    (name : String) : LayerProgram (Bool × Plugins) := do
  if name ∈ plugins.table then
    error (kind.alreadyLoaded name)
    return (false, plugins)
  else
    match ← launcher with
    | none => return (false, plugins)
    | some launcher =>
      let child := plugins.launched
      let started ← (.query (Ask.launch child
        [launcher, name, name, kind.componentType, kind.lastArg name]) : LayerProgram Bool)
      if !started then .fail plugins
      else
        if kind.detached then .query (Ask.detach child)
        return (true, ⟨emplace name child plugins.table, child + 1⟩)

/-- The wait for the end of a process has a flag of its own, which nobody sets. -/
def waiting : Waiting Reply Plugins where
  stopWait := .done false
  sleepFor ms := .query (Ask.sleepFor ms)
  cerr text := print .cout text

/-- Whether the process of a child is not running. -/
def ended (plugins : Plugins) (child : ℕ) : LayerProgram Bool := do
  match ← (.query (Ask.running child) : LayerProgram (Option Bool)) with
  | none => .fail plugins
  | some running => return !running

/-- The supervisor says nothing. -/
def printUnloaded : Option String → LayerProgram Unit
  | none => return ()
  | some text => print .cout text

/-- The unload functions. -/
def unload (kind : Kind) (plugins : Plugins) (name : String) : LayerProgram (Bool × Plugins) := do
  match plugins.table.lookup name with
  | none =>
    error (kind.notLoaded name)
    return (false, plugins)
  | some child =>
    let _ ← (.query (Ask.callCommand "shutdown" [] name) : LayerProgram ℕ)
    let unloaded ← wait waiting (plugins.ended child) 2000 10 (by decide)
    if !unloaded then
      print (kind.forcing name).1 (kind.forcing name).2
      .query (Ask.kill child)
    printUnloaded (kind.unloaded name)
    return (true, { plugins with table := plugins.table.erase name })

/-- The keys of the table in the order of the map. -/
def keys (plugins : Plugins) : List String := plugins.table.keys.mergeSort (· ≤ ·)

/-- The loop of `close` over a copy of the keys. -/
def unloadAll (kind : Kind) : List String → Plugins → LayerProgram Plugins
  | [], plugins => return plugins
  | name :: rest, plugins => do
    let (_, plugins) ← plugins.unload kind name
    unloadAll kind rest plugins

def close (kind : Kind) (plugins : Plugins) : LayerProgram Plugins :=
  unloadAll kind plugins.keys plugins

end Plugins

/-! ### The hardware layer -/

namespace HardwareLayer

def kind : Kind where
  componentType := "hardware"
  lastArg name := name
  detached := true
  alreadyLoaded name := "hardware " ++ name ++ " already loaded"
  notLoaded name := "hardware " ++ name ++ " is not loaded"
  forcing name := (.warning, "### FORCING HARDWARE " ++ name ++ " EXIT ###")
  unloaded name := some ("Hardware " ++ name ++ " is unloaded")

def missing (name : String) : String :=
  "ERROR: env variable " ++ name ++ " is missing or empty. Check the launch script."

def loadHardware (libName childProcessName : String) (plugins : Plugins) :
    LayerProgram (Bool × Plugins) :=
  let launcher := if childProcessName = "" then
      Plugins.requireEnv "DLS_CHILD_PROCESS_LAUNCHER" true (missing "DLS_CHILD_PROCESS_LAUNCHER")
    else .done (some childProcessName)
  plugins.load kind launcher libName

/-- The callback of `loadXenoHardware`. -/
def loadXenoHardware (type : String) (plugins : Plugins) : LayerProgram (Bool × Plugins) := do
  match ← Plugins.requireEnv "DLS_CHILD_PROCESS_LAUNCHER_XENO" true
    (missing "DLS_CHILD_PROCESS_LAUNCHER_XENO") with
  | none => return (false, plugins)
  | some launcher => loadHardware type launcher plugins

def unloadHardware (name : String) (plugins : Plugins) : LayerProgram (Bool × Plugins) :=
  plugins.unload kind name

def close (plugins : Plugins) : LayerProgram Plugins := plugins.close kind

end HardwareLayer

/-! ### The estimation layer -/

namespace EstimationLayer

def kind (robotName : String) : Kind where
  componentType := "estimator"
  lastArg _ := robotName
  detached := false
  alreadyLoaded name := "estimator " ++ name ++ " already loaded"
  notLoaded name := "Estimator " ++ name ++ " is not loaded"
  forcing name := (.cout, "### FORCING ESTIMATOR " ++ name ++ " EXIT ###")
  unloaded name := some ("Estimator " ++ name ++ " is unloaded")

def loadEstimator (robotName libName : String) (plugins : Plugins) :
    LayerProgram (Bool × Plugins) :=
  plugins.load (kind robotName) (Plugins.requireEnv "DLS_CHILD_PROCESS_LAUNCHER" false
    ("ERROR: env variable DLS_CHILD_PROCESS_LAUNCHER not " ++
      "defined.  This is probably an error with the launch script")) libName

/-- The callback of `unloadEstimator`: true only if no estimator is left. -/
def unloadEstimator (robotName name : String) (plugins : Plugins) :
    LayerProgram (Bool × Plugins) := do
  let (unloaded, plugins) ← plugins.unload (kind robotName) name
  return (unloaded && plugins.table.keys.length == 0, plugins)

def close (robotName : String) (plugins : Plugins) : LayerProgram Plugins :=
  plugins.close (kind robotName)

end EstimationLayer

/-! ### The supervisor -/

namespace Supervisor

/-- The kinds of the supervisor differ in their type only. -/
def kind (robotName componentType : String) : Kind where
  componentType := componentType
  lastArg _ := robotName
  detached := true
  alreadyLoaded name := "plugin " ++ name ++ " already loaded"
  notLoaded name := "plugin " ++ name ++ " not loaded"
  forcing name := (.cout, "### FORCING PERIODIC PERIODIC APP PLUGIN " ++ name ++ " EXIT ###")
  unloaded _ := none

def periodicAppPlugin (robotName : String) : Kind := kind robotName "periodic_app_plugin"

def pythonPeriodicApp (robotName : String) : Kind := kind robotName "python_periodic_app"

def launcher : LayerProgram (Option String) :=
  Plugins.requireEnv "DLS_CHILD_PROCESS_LAUNCHER" false
    ("env variable DLS_CHILD_PROCESS_LAUNCHER not " ++
      "defined.  This is probably an error with the launch script")

def loadPeriodicAppPlugin (robotName name : String) (plugins : Plugins) :
    LayerProgram (Bool × Plugins) :=
  plugins.load (periodicAppPlugin robotName) launcher name

def loadPythonPeriodicApp (robotName name : String) (plugins : Plugins) :
    LayerProgram (Bool × Plugins) :=
  plugins.load (pythonPeriodicApp robotName) launcher name

def unloadPeriodicAppPlugin (robotName name : String) (plugins : Plugins) :
    LayerProgram (Bool × Plugins) :=
  plugins.unload (periodicAppPlugin robotName) name

end Supervisor

/-! ### The commands of the layers -/

inductive PluginLayer where
  | hardware
  | estimation (robotName : String)
  | supervisor (robotName : String)
  deriving DecidableEq, Repr

/-- What is asked of a layer. -/
inductive Call where
  | command (name argument : String)
  | close
  deriving DecidableEq, Repr

namespace PluginLayer

/-- The callbacks of the commands that load or unload a plugin, by their names; there is nothing
to call under other names. -/
def callback : PluginLayer → String → Option (String → Plugins → LayerProgram (Bool × Plugins))
  | .hardware, name =>
    if name = "loadHardware" then some fun type => HardwareLayer.loadHardware type ""
    else if name = "loadXenoHardware" then some HardwareLayer.loadXenoHardware
    else if name = "unloadHardware" then some HardwareLayer.unloadHardware
    else none
  | .estimation robotName, name =>
    if name = "loadEstimator" then some (EstimationLayer.loadEstimator robotName)
    else if name = "unloadEstimator" then some (EstimationLayer.unloadEstimator robotName)
    else none
  | .supervisor robotName, name =>
    if name = "loadPeriodicAppPlugin" then some (Supervisor.loadPeriodicAppPlugin robotName)
    else if name = "unloadPeriodicAppPlugin" then
      some (Supervisor.unloadPeriodicAppPlugin robotName)
    else if name = "loadPythonPeriodicApp" then some (Supervisor.loadPythonPeriodicApp robotName)
    else none

/-- The `close` of a layer; the supervisor has the one of its base class, which does nothing. -/
def close : PluginLayer → Plugins → LayerProgram Plugins
  | .hardware, plugins => HardwareLayer.close plugins
  | .estimation robotName, plugins => EstimationLayer.close robotName plugins
  | .supervisor _, plugins => return plugins

def call (layer : PluginLayer) (plugins : Plugins) : Call → LayerProgram Plugins
  | .command name argument =>
    match layer.callback name with
    | none => return plugins
    | some callback => do
      let (_, plugins) ← callback argument plugins
      return plugins
  | .close => layer.close plugins

/-- One call after the other. A call that throws leaves the plugins as they are by then. -/
def session (layer : PluginLayer) : List Call → Plugins → Program Reply Empty Plugins
  | [], plugins => .done plugins
  | call :: rest, plugins => (layer.call plugins call).attempt.bind fun
    | .ok plugins => session layer rest plugins
    | .error plugins => session layer rest plugins

end PluginLayer

end Dls2.CoreFramework.PluginLayers
