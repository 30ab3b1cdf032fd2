import Dls2.ChildProcess.Launcher
import Dls2.Main.StartupSafety

/-!
# The processes of a startup

A startup starts discovery servers and layers. A layer is a process of the launcher of child
processes, which reads from its command line what the startup has written there, and the library
that it loads then has such a layer.
-/

namespace Dls2.Main

open CoreFramework Main.Log RunDLS2 ChildProcess

/-- A process is a discovery server, or a layer that the launcher loads under the same name. -/
def Loads (install : Install) : Action → Prop
  | .start id args _ => (∃ serverId ip port,
      id = "DiscoveryServer" ++ toString serverId ∧ args = serverArgs serverId ip port) ∨
    ∃ lib robotName layer, parseArgs args = .ok ⟨id, lib, "layer", robotName⟩ ∧
      install.component ⟨id, lib, "layer", robotName⟩ =
        some (.layer (install.libDir ++ "/libdls_framework.so") id lib robotName) ∧
      create lib = some layer
  | .call _ _ _ => True

/-- All processes that have been started are such processes. -/
def AllLoad (install : Install) (log : Log) : Prop := ∀ action ∈ actions log, Loads install action

section Plan

variable {install : Install} {site : Site} {robotName : String} {action : Action}

theorem loads_server {entries : List (Except String (String × Int))} {serverId : ℕ}
    (planned : action ∈ serverPlan serverId entries) : Loads install action := by
  induction entries generalizing serverId with
  | nil => simp [serverPlan] at planned
  | cons entry rest ih =>
    cases entry with
    | error error => simp [serverPlan] at planned
    | ok server =>
      rcases List.mem_cons.mp planned with rfl | planned
      · exact .inl ⟨serverId, server.1, server.2, rfl, rfl⟩
      · exact ih planned

theorem loads_layer {layer : String × String} (known : (create layer.1).isSome = true)
    (planned : action ∈ layerPlan site robotName layer) : Loads install action := by
  simp only [layerPlan, List.mem_cons, List.not_mem_nil, or_false] at planned
  rcases planned with rfl | rfl
  · obtain ⟨found, created⟩ := Option.isSome_iff_exists.mp known
    exact .inr ⟨layer.1, robotName, found, by simp [layerArgs, parseArgs, knownTypes],
      by simp [Install.component], created⟩
  · trivial

/-- The framework library has all the layers that options and startup files can ask for. -/
theorem create_requested {options : Options} {layer : String × String}
    (requested : layer ∈ requestedLayers options) : (create layer.1).isSome = true := by
  have one {asked : Bool} {lib id : String} (known : (create lib).isSome = true)
      (among : layer ∈ if asked then [(lib, id)] else []) : (create layer.1).isSome = true := by
    cases asked with
    | true =>
      obtain rfl := List.mem_singleton.mp among
      exact known
    | false => simp at among
  simp only [requestedLayers, List.mem_append] at requested
  rcases requested with (((log | hardware) | control) | console) | estimation
  · exact one rfl log
  · exact one rfl hardware
  · exact one rfl control
  · exact one rfl console
  · exact one rfl estimation

theorem loads_application {config : StartupConfig} {appType : String}
    (planned : action ∈ applicationsPlan config appType) : Loads install action := by
  cases action with
  | call name args owner => trivial
  | start id args ownGroup =>
    exfalso
    unfold applicationsPlan at planned
    split at planned
    · obtain ⟨name, -, planned⟩ := List.mem_flatMap.mp planned
      simp only [applicationPlan, startPlan, modelPlan, List.mem_append, List.mem_cons] at planned
      rcases planned with (planned | planned) | planned
      · cases planned
      · split at planned <;> simp at planned
      · split at planned
        · split at planned <;> simp at planned
        · simp at planned
    · simp at planned

theorem loads_plan {options : Options} {config : StartupConfig}
    (planned : action ∈ plan site options config) : Loads install action := by
  simp only [plan, frameworkPlan, List.mem_append] at planned
  rcases planned with ((server | layer) | supervisor) | application
  · unfold requestedServers serversPlan at server
    split at server
    · split at server
      · simp at server
      · exact loads_server server
    · simp at server
  · obtain ⟨entry, requested, layer⟩ := List.mem_flatMap.mp layer
    exact loads_layer (create_requested requested) layer
  · unfold supervisorPlan at supervisor
    split at supervisor
    · exact loads_layer rfl supervisor
    · simp at supervisor
  · obtain ⟨appType, -, application⟩ := List.mem_flatMap.mp application
    exact loads_application application

end Plan

/-- Whatever the command line and the startup file ask for, every process that a startup has started
is a discovery server, or a layer that the launcher reads, finds and loads under the same name. -/
theorem Framework.startup_layers_load (framework : Framework) (install : Install) (site : Site)
    {Node : Type} (yaml : Yaml Node) (options : Options)
    (file : Except String (List (String × Node))) :
    AllLoad install (framework.startup site yaml options file).1 := by
  intro action done
  cases read : readStartup yaml file with
  | error error =>
    rw [startup_error framework site yaml options file read] at done
    simp [actions] at done
  | ok config =>
    exact loads_plan ((startup_outcome framework site yaml options file read).within.subset done)

end Dls2.Main
