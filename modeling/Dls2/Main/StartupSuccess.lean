import Dls2.Main.StartupSteps

/-!
# Startups that succeed

In surroundings that oblige, no flag is set, every process starts, every state is seen, every
command is found once and is sent. A startup then reports nothing and returns true, as long as
the entries of its file can be read.
-/

namespace Dls2.Main

open Dialogue CoreFramework Utils Main.Log

namespace RunDLS2

/-- Surroundings that oblige, for as long as the flag has not been set. -/
def obliging : Rules Answer where
  may _ _ := True
  keeps past
    | .shouldQuit, answer => Running past → answer = false
    | .startProcess _ _ _, answer => answer = .ok ()
    | .findState _ _, answer => answer = true
    | .find _ _, answer => answer = (1 : ℕ)
    | .callCommand _ _ _, answer => answer = (1 : ℕ)
    | .sleepFor _, _ => True
    | .cerr _, _ => True

/-- The program returns the value, reports nothing and does not see the flag set. -/
def Succeeds {α : Type} (past : Log) (program : Startup α) (value : α) : Prop :=
  Running past → Program.Adds obliging past program fun said result =>
    result = .ok value ∧ Silent said ∧ Running (past ++ said)

variable {past : Log} {α β : Type}

theorem silent_cons {event : Said Answer} {log : Log} (quiet : ∀ text, event ≠ ⟨.cerr text, ()⟩)
    (silent : Silent log) : Silent (event :: log) := by
  rintro ⟨text, member⟩
  rcases List.mem_cons.mp member with same | member
  · exact quiet text same.symm
  · exact silent ⟨text, member⟩

theorem silent_append {first second : Log} (silent : Silent first) (still : Silent second) :
    Silent (first ++ second) := by
  rintro ⟨text, member⟩
  rcases List.mem_append.mp member with member | member
  · exact silent ⟨text, member⟩
  · exact still ⟨text, member⟩

theorem silent_nil : Silent [] := fun ⟨_, member⟩ => by simp at member

theorem running_concat {event : Said Answer} (running : Running past)
    (unset : event ≠ ⟨.shouldQuit, true⟩) : Running (past ++ [event]) := by
  intro seen
  rcases List.mem_append.mp seen with seen | seen
  · exact running seen
  · exact unset (List.mem_singleton.mp seen).symm

theorem succeeds_done (value : α) : Succeeds past (.done value) value :=
  fun running => Program.adds_done ⟨rfl, silent_nil, by simpa using running⟩

theorem Succeeds.bind {program : Startup α} {next : α → Startup β} {value : α} {result : β}
    (first : Succeeds past program value)
    (second : ∀ past, Succeeds past (next value) result) :
    Succeeds past (program.bind next) result := by
  intro running
  refine Program.Adds.bind (first running) ?_ (by rintro said error ⟨⟨⟩, _⟩)
  rintro said _ ⟨⟨⟩, silent, still⟩
  exact (second _ still).mono fun more ended ⟨done, later, on⟩ =>
    ⟨done, silent_append silent later, by simpa using on⟩

theorem succeeds_query (question : Question) (value : Answer question)
    (answered : ∀ past answer, Running past → obliging.keeps past question answer →
      answer = value)
    (quiet : ∀ text, question ≠ .cerr text)
    (unset : (⟨question, value⟩ : Said Answer) ≠ ⟨.shouldQuit, true⟩) :
    Succeeds past (.query question) value := by
  intro running
  refine Program.adds_query trivial fun answer kept => ?_
  obtain rfl := answered past answer running kept
  exact ⟨rfl, silent_cons (fun text same => quiet text (congrArg Said.question same)) silent_nil,
    running_concat running unset⟩

theorem succeeds_shouldQuit : Succeeds past shouldQuit false :=
  succeeds_query .shouldQuit false (fun _ _ running kept => kept running) (by simp) (by simp)

theorem succeeds_ownedProcess (id : String) (args : List String) (ownGroup : Bool) :
    Succeeds past (ownedProcess id args ownGroup) () :=
  (succeeds_query (.startProcess id args ownGroup) (.ok ()) (fun _ _ _ kept => kept) (by simp)
    (by simp)).bind fun _ => succeeds_done ()

theorem succeeds_andAlso {first second : Startup Bool} (held : Succeeds past first true)
    (then_held : ∀ past, Succeeds past second true) :
    Succeeds past (andAlso first second) true :=
  held.bind then_held

theorem succeeds_waitState (app state : String) :
    Succeeds past (waitState waiting findState app state false) true := by
  have polled (past : Log) : Succeeds past (wait waiting (findState app state)
      5000 waitPollPeriodMs waitPollPeriodMs_pos) true := by
    rw [wait, waitFrom]
    refine Succeeds.bind succeeds_shouldQuit fun past => ?_
    exact (succeeds_query (.findState app state) true (fun _ _ _ kept => kept) (by simp)
      (by simp)).bind
      fun past => succeeds_done true
  exact (polled past).bind fun past => Succeeds.bind succeeds_shouldQuit fun past =>
    succeeds_done true

theorem succeeds_waitForState (report app state : String) :
    Succeeds past (waitForState report app state) true := by
  have looped (past : Log) : Succeeds past (Program.retry shouldQuit (fun _ : Unit => do
      let reached ← waitState waiting findState app state false
      if reached then return .inr () else return .inl ())
      (rounds startupStateTimeoutMs 5000) ()) (.inr () : Unit ⊕ Unit) := by
    refine Succeeds.bind succeeds_shouldQuit fun past => ?_
    exact ((succeeds_waitState app state).bind fun past => succeeds_done (Sum.inr ())).bind
      fun past => succeeds_done (Sum.inr ())
  exact (looped past).bind fun past => succeeds_done true

theorem succeeds_callWhenUnique (owner command : String) (args : List String) :
    Succeeds past (callWhenUnique owner command args) (.inr ()) := by
  refine Succeeds.bind succeeds_shouldQuit fun past => ?_
  have called (past : Log) : Succeeds past (do
      let found ← .query (Question.find owner command)
      if found ≠ 1 then
        let _ ← sleepFor startupRetryIntervalMs
        return .inl found
      else
        let called ← .query (Question.callCommand command args owner)
        if called = 1 then return .inr () else return .inl found) (.inr () : ℕ ⊕ Unit) := by
    refine (succeeds_query (.find owner command) (1 : ℕ) (fun _ _ _ kept => kept) (by simp)
      (by simp)).bind
      fun past => ?_
    exact (succeeds_query (.callCommand command args owner) (1 : ℕ) (fun _ _ _ kept => kept)
      (by simp) (by simp)).bind fun past => succeeds_done (Sum.inr ())
  exact (called past).bind fun past => succeeds_done (Sum.inr ())

theorem succeeds_runLayer (site : Site) (robotName lib id : String) :
    Succeeds past (runLayer site robotName lib id) true := by
  refine Succeeds.bind succeeds_shouldQuit fun past => ?_
  refine (succeeds_ownedProcess id _ _).bind fun past => ?_
  refine succeeds_andAlso (succeeds_waitForState _ id "idle") fun past => ?_
  exact (succeeds_callWhenUnique id "activate" []).bind fun _ =>
    succeeds_waitForState _ id "run"

theorem succeeds_eachWhile {ι : Type} {body : ι → Startup Bool} {items : List ι}
    (each : ∀ item ∈ items, ∀ past, Succeeds past (body item) true) :
    Succeeds past (Program.eachWhile body items) true := by
  induction items generalizing past with
  | nil => exact succeeds_done true
  | cons first rest ih =>
    exact (each first (by simp) past).bind fun _ =>
      ih fun item member => each item (by simp [member])

theorem succeeds_notQuitting : Succeeds past (do return !(← shouldQuit)) true :=
  Succeeds.bind succeeds_shouldQuit fun _ => succeeds_done true

theorem succeeds_launchLayers (site : Site) (robotName : String) (options : Options) :
    Succeeds past (launchLayers site robotName options) true := by
  refine (succeeds_eachWhile fun layer _ past => ?_).bind fun _ => succeeds_notQuitting
  exact Succeeds.bind succeeds_shouldQuit fun _ =>
    succeeds_runLayer site robotName layer.1 layer.2

theorem succeeds_callRequiredCommand (owner command : String) (args : List String) :
    Succeeds past (callRequiredCommand owner command args) true :=
  (succeeds_callWhenUnique owner command args).bind fun _ => succeeds_done true

theorem succeeds_startApplication (appsToActivate : List String)
    (name loadCommand layer : String) :
    Succeeds past (startApplication appsToActivate name loadCommand layer) true := by
  refine succeeds_andAlso (succeeds_callRequiredCommand layer loadCommand [name]) fun past => ?_
  refine succeeds_andAlso (succeeds_waitForState _ name "idle") fun past => ?_
  split
  · exact succeeds_andAlso (succeeds_callRequiredCommand name "activate" []) fun past =>
      succeeds_waitForState _ name "run"
  · exact succeeds_done true

theorem succeeds_sleepFor {next : ℕ → Startup β} {ms : ℕ} {result : β}
    (second : ∀ slept past, Succeeds past (next slept) result) :
    Succeeds past ((sleepFor ms).bind next) result := by
  intro running
  refine Program.adds_query_bind trivial fun slept _ => ?_
  have later : Running (past ++ [⟨.sleepFor ms, slept⟩]) := running_concat running (by simp)
  exact (second slept _ later).mono fun more ended ⟨done, silent, on⟩ =>
    ⟨done, silent_cons (by simp) silent, by simpa using on⟩

/-- The model is loaded, or not to be loaded, when the file says which. -/
theorem succeeds_loadModel (config : StartupConfig) (appType name : String)
    (read : ∃ model, config.loadModel = .ok model) :
    Succeeds past (loadModel config appType name) true := by
  obtain ⟨model, read⟩ := read
  have wanted (past : Log) : ∃ model, Succeeds past (loadsModel config appType) model := by
    unfold loadsModel
    split
    · exact ⟨model, by rw [read]; exact succeeds_done model⟩
    · exact ⟨false, succeeds_done false⟩
  obtain ⟨loads, wanted⟩ := wanted past
  refine wanted.bind fun past => ?_
  cases loads with
  | false => exact succeeds_done true
  | true =>
    refine Succeeds.bind succeeds_shouldQuit fun past => succeeds_sleepFor fun slept past => ?_
    exact Succeeds.bind succeeds_shouldQuit fun past => succeeds_callRequiredCommand _ _ _

theorem succeeds_launchApplication (config : StartupConfig) (appType layer command name : String)
    (read : ∃ model, config.loadModel = .ok model) :
    Succeeds past (launchApplication config appType layer command name) true := by
  have tried (past : Log) : Succeeds past (tryApplication config appType layer command name) () :=
    (succeeds_startApplication config.appsToActivate name command layer).bind fun past =>
      succeeds_done ()
  exact (tried past).bind fun past => succeeds_loadModel config appType name read

/-- What is read late, or by another function, can be read. -/
structure Readable (site : Site) (config : StartupConfig) : Prop where
  servers : config.runServers = true → ∃ servers : List (String × Int),
    site.serversConfig = .ok (servers.map .ok)
  supervisor : ∃ supervised, config.runSupervisor = .ok supervised
  model : ∃ model, config.loadModel = .ok model

/-- Every type of application that is to be launched is in the table. -/
def Typed (appsToLaunch : List (String × List String)) : Prop :=
  ∀ entry ∈ appsToLaunch, ∃ instruction, instructionsSet.lookup entry.1 = some instruction

theorem bind_eq_ok {error : Type} {first : Except error α} {next : α → Except error β}
    {result : β} : (first >>= next) = .ok result ↔
      ∃ value, first = .ok value ∧ next value = .ok result := by
  cases first <;> simp [Bind.bind, Except.bind]

/-- What a filter that keeps its keys has found, it has found under one of them. -/
theorem key_mem_of_filterMapM {error key : Type} {keys : List key}
    {find : key → Except error (Option (key × β))} {entries : List (key × β)}
    (keeps : ∀ key first, find key = .ok (some first) → first.1 = key)
    (collected : keys.filterMapM find = .ok entries) :
    ∀ entry ∈ entries, entry.1 ∈ keys := by
  induction keys generalizing entries with
  | nil =>
    obtain rfl : [] = entries := Except.ok.inj collected
    simp
  | cons key rest ih =>
    rw [List.filterMapM_cons, bind_eq_ok] at collected
    obtain ⟨read, here, collected⟩ := collected
    cases read with
    | none => exact fun entry member => List.mem_cons_of_mem _ (ih collected entry member)
    | some first =>
      rw [bind_eq_ok] at collected
      obtain ⟨others, collected, whole⟩ := collected
      obtain rfl : first :: others = entries := Except.ok.inj whole
      rintro entry (_ | ⟨_, member⟩)
      · exact keeps key first here ▸ List.mem_cons_self
      · exact List.mem_cons_of_mem _ (ih collected entry member)

theorem typed_collectApplicationsToRun {Node : Type} {yaml : Yaml Node}
    {config : List (String × Node)} {appsToLaunch : List (String × List String)}
    (collected : collectApplicationsToRun yaml config = .ok appsToLaunch) :
    Typed appsToLaunch := by
  intro entry member
  have key : entry.1 ∈ instructionsSet.map Prod.fst := by
    refine key_mem_of_filterMapM (fun appType first here => ?_) collected entry member
    cases found : config.lookup appType with
    | none => simp [found, pure, Except.pure] at here
    | some node =>
      simp only [found, bind_eq_ok] at here
      obtain ⟨names, -, same⟩ := here
      simpa using congrArg Prod.fst (Option.some.inj (Except.ok.inj same)).symm
  obtain ⟨instruction, listed, same⟩ := List.mem_map.mp key
  have all : ∀ instruction ∈ instructionsSet,
      (instructionsSet.lookup instruction.1).isSome = true := by decide
  exact same ▸ Option.isSome_iff_exists.mp (all instruction listed)

theorem typed_readStartup {Node : Type} {yaml : Yaml Node}
    {file : Except String (List (String × Node))} {config : StartupConfig}
    (accepted : readStartup yaml file = .ok config) : Typed config.appsToLaunch := by
  unfold readStartup at accepted
  simp only [bind_eq_ok] at accepted
  obtain ⟨entries, -, _, -, layers, -, apps, collected, robotName, -, height, -, activate, -,
    servers, -, whole⟩ := accepted
  obtain rfl := Except.ok.inj whole
  exact typed_collectApplicationsToRun collected

theorem succeeds_launchAll {site : Site} {config : StartupConfig}
    (readable : Readable site config) (typed : Typed config.appsToLaunch) :
    Succeeds past (launchAll config) true := by
  refine (succeeds_eachWhile fun appType _ past => ?_).bind fun _ => succeeds_notQuitting
  unfold launchApplications
  cases launched : config.appsToLaunch.lookup appType with
  | none => exact succeeds_done true
  | some names =>
    obtain ⟨before, after, split, -⟩ := List.lookup_eq_some_iff.mp launched
    obtain ⟨⟨layer, command⟩, listed⟩ := typed (appType, names) (by simp [split])
    refine succeeds_eachWhile fun name _ past => ?_
    rw [listed]
    exact succeeds_launchApplication config appType layer command name readable.model

theorem succeeds_servers (servers : List (String × Int)) (serverId : ℕ) :
    Succeeds past ((servers.map Except.ok).foldlM (fun serverId server => do
        let (ip, port) ← lift server
        launchSingleServer serverId ip port) serverId) (serverId + servers.length) := by
  induction servers generalizing serverId past with
  | nil => exact succeeds_done serverId
  | cons server rest ih =>
    rw [List.map_cons, List.foldlM_cons, List.length_cons, Nat.add_comm rest.length,
      ← Nat.add_assoc]
    have launched (past : Log) :
        Succeeds past (launchSingleServer serverId server.1 server.2) (serverId + 1) :=
      Succeeds.bind succeeds_shouldQuit fun past =>
        (succeeds_ownedProcess _ _ _).bind fun past => succeeds_done _
    exact (launched past).bind fun past => ih (serverId + 1)

theorem succeeds_runConfig {site : Site} (options : Options) {config : StartupConfig}
    (readable : Readable site config) (typed : Typed config.appsToLaunch) :
    Succeeds past (runConfig site options config) true := by
  have served (past : Log) : Succeeds past (runServers site config) () := by
    unfold runServers
    split
    next asked =>
      obtain ⟨servers, read⟩ := readable.servers asked
      unfold launchServers
      rw [read]
      exact (succeeds_servers servers 0).bind fun past => succeeds_done ()
    next => exact succeeds_done ()
  refine (served past).bind fun past => ?_
  refine succeeds_andAlso (succeeds_launchLayers site _ _) fun past => ?_
  refine succeeds_andAlso ?_ fun past => succeeds_launchAll readable typed
  obtain ⟨supervised, read⟩ := readable.supervisor
  unfold launchSupervisor
  rw [read]
  cases supervised with
  | false => exact succeeds_done true
  | true => exact succeeds_runLayer site _ _ _

end RunDLS2

end Dls2.Main
