import Mathlib.Data.List.Basic

/-!
# The launcher of child processes

Layers and plugins run as processes of one program, `child_process_launcher`. It reads what it is to
load from its command line, and either loads a library, becomes another program, or exits.
-/

namespace Dls2.ChildProcess

structure Args where
  componentName : String
  libName : String
  componentType : String
  robotName : String
  deriving DecidableEq, Repr

/-- The types that `parse_args` lets through. -/
def knownTypes : List String :=
  ["layer", "controller", "motion_generator", "hardware", "estimator", "service",
    "periodic_app_plugin", "python_periodic_app", "app_plugin"]

/-- `parse_args`, with the program's own name first. It exits after an error. -/
def parseArgs : List String → Except String Args
  | [_, componentName, libName, componentType, robotName] =>
    if componentType ∈ knownTypes then .ok ⟨componentName, libName, componentType, robotName⟩
    else .error ("Error: unknown component type '" ++ componentType ++ "'")
  | _ => .error "Error: incorrect number of arguments"

/-- The directories that are configured when the launcher is built. -/
structure Install where
  libDir : String
  controllerDir : String
  motionGeneratorDir : String
  hardwareDir : String
  estimatorDir : String
  periodicAppPluginDir : String
  appPluginDir : String

/-- What the launcher loads, with the arguments of the constructor, or what it becomes. -/
inductive Component where
  | layer (library name type robotName : String)
  | periodicAppPlugin (library name robotName : String)
  | hardware (library robotName : String)
  | appPlugin (library name robotName : String)
  | exec (path : String) (argv : List String)
  deriving DecidableEq, Repr

/-- The library of a plugin. -/
def pluginLibrary (dir libName : String) : String := dir ++ "/lib" ++ libName ++ ".so"

/-- The types that `main` tells apart; `none` is the error at the end. -/
def Install.component (install : Install) (args : Args) : Option Component :=
  if args.componentType = "layer" then
    some (.layer (install.libDir ++ "/libdls_framework.so") args.componentName args.libName
      args.robotName)
  else if args.componentType = "controller" then
    some (.periodicAppPlugin (pluginLibrary install.controllerDir args.libName) args.componentName
      args.robotName)
  else if args.componentType = "motion_generator" then
    some (.periodicAppPlugin (pluginLibrary install.motionGeneratorDir args.libName)
      args.componentName args.robotName)
  else if args.componentType = "hardware" then
    some (.hardware (pluginLibrary install.hardwareDir args.libName) args.robotName)
  else if args.componentType = "estimator" then
    some (.periodicAppPlugin (pluginLibrary install.estimatorDir args.libName) args.componentName
      args.robotName)
  else if args.componentType = "periodic_app_plugin" then
    some (.periodicAppPlugin (pluginLibrary install.periodicAppPluginDir args.libName)
      args.componentName args.robotName)
  else if args.componentType = "python_periodic_app" then
    some (.exec "/usr/bin/launch_python.sh" ["launch_python.sh", args.libName, args.componentName])
  else if args.componentType = "app_plugin" then
    some (.appPlugin (pluginLibrary install.appPluginDir args.libName) args.componentName
      args.robotName)
  else none

/-- The layers that the framework library has. -/
inductive LayerClass where
  | log
  | hardware
  | control
  | console
  | estimation
  | supervisor
  deriving DecidableEq, Repr

/-- `create` of the framework library; `none` is a null pointer. -/
def create (type : String) : Option LayerClass :=
  if type = "log" then some .log
  else if type = "hardware" then some .hardware
  else if type = "control" then some .control
  else if type = "console" then some .console
  else if type = "estimation" then some .estimation
  else if type = "supervisor" then some .supervisor
  else none

/-- The launcher lets through one type that it cannot start anything for. -/
theorem component_isSome_iff (install : Install) {argv : List String} {args : Args}
    (parsed : parseArgs argv = .ok args) :
    (install.component args).isSome = true ↔ args.componentType ≠ "service" := by
  unfold parseArgs at parsed
  split at parsed
  next program componentName libName componentType robotName =>
    split_ifs at parsed with known
    obtain rfl := Except.ok.inj parsed
    simp only [knownTypes, List.mem_cons, List.not_mem_nil, or_false] at known
    rcases known with rfl | rfl | rfl | rfl | rfl | rfl | rfl | rfl | rfl <;>
      simp [Install.component]
  next => simp at parsed

end Dls2.ChildProcess
