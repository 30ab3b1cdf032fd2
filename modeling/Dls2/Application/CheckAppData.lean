import Dls2.Lib.Transition
import Dls2.Log.EventNotifier

/-!
# Watching the processes of a layer

A pass of `Layer::checkAppData` first collects the names of the processes that are
not running, and then reports one after the other through the layer's event
notifier. Other threads of the application use the same notifier between any two of
these reports.

The notifier filters by event type. A report is therefore also dropped when another
process has been reported recently.
-/

namespace Dls2.Application

open Dls2.Log Dls2.Transition

/-- A child process, as far as it is asked whether it runs. -/
structure ChildProcess where
  running : Bool
deriving DecidableEq, Repr

/-- What a layer keeps of a loaded application. -/
structure AppData where
  proc : Option ChildProcess
deriving DecidableEq, Repr

/-- The name of an application that has a process which is not running. -/
def stoppedKey (enableProcessDied : Bool) : String × Option AppData → Option String
  | (key, data) =>
    match data with
    | none | some ⟨none⟩ => none
    | some ⟨some proc⟩ =>
      if !proc.running then if enableProcessDied then some key else none else none

/-- The loop over the map, which fills the vector `stopped`. -/
def notRunning (enableProcessDied : Bool) (appData : List (String × Option AppData)) :
    List String :=
  appData.filterMap (stoppedKey enableProcessDied)

/-- The text of a report. -/
def notRunningMessage (layer key : String) : String := layer ++ ": " ++ key ++ " is not running"

/-- The notifier of a layer, and the processes the pass in progress still has to
report. -/
structure Monitoring where
  notifier : RobustEventNotifier
  stopped : List String

inductive MonitoringLabel where
  /-- A pass scans the map; each process answers whether it is running. -/
  | checkAppData (appData : List (String × Option AppData))
  /-- The pass reports its next process. -/
  | report (reading : ClockReading)
  /-- Anything else the application publishes. -/
  | notify (eventId : EventID) (severity : EventSeverity) (message : String)
    (reading : ClockReading)
  | setSpammingThreshold (spammingThreshold : Rat)

/-- One step of a layer. A pass begins when the one before has reported everything. -/
def Monitoring.step (layer : String) (enableProcessDied : Bool) (monitoring : Monitoring) :
    MonitoringLabel → Option Monitoring
  | .checkAppData appData =>
    match monitoring.stopped with
    | [] => some { monitoring with stopped := notRunning enableProcessDied appData }
    | _ :: _ => none
  | .report reading =>
    match monitoring.stopped with
    | [] => none
    | key :: rest => some
      { notifier := monitoring.notifier.notify .processDied .error
          (notRunningMessage layer key) reading
        stopped := rest }
  | .notify eventId severity message reading =>
    some { monitoring with notifier := monitoring.notifier.notify eventId severity message reading }
  | .setSpammingThreshold spammingThreshold => some { monitoring with
      notifier := monitoring.notifier.setSpammingThreshold spammingThreshold }

/-- A new layer and its surroundings. -/
def monitoringSystem (layer : String) (enableProcessDied : Bool) :
    System Monitoring MonitoringLabel where
  initial := ⟨.new layer RobustEventNotifier.defaultSpammingThreshold, []⟩
  step := Monitoring.step layer enableProcessDied

/-- A scan finds exactly the processes that do not run. -/
theorem mem_notRunning_iff {appData : List (String × Option AppData)} {key : String} :
    key ∈ notRunning true appData ↔
      ∃ proc, (key, some (AppData.mk (some proc))) ∈ appData ∧ proc.running = false := by
  simp only [notRunning, List.mem_filterMap]
  constructor
  · rintro ⟨⟨name, data⟩, among, found⟩
    simp only [stoppedKey] at found
    split at found
    · cases found
    · cases found
    · rename_i proc
      by_cases running : proc.running = true
      · simp [running] at found
      · obtain rfl : name = key := by simpa [running] using found
        exact ⟨proc, among, by simpa using running⟩
  · rintro ⟨proc, among, down⟩
    exact ⟨_, among, by simp [stoppedKey, down]⟩

section Runs

variable {layer : String} {enableProcessDied : Bool} {monitoring next final : Monitoring}
  {label : MonitoringLabel}

/-- Every step keeps the filter's table a record of messages sent. -/
theorem Monitoring.recorded_step (recorded : monitoring.notifier.Recorded)
    (taken : monitoring.step layer enableProcessDied label = some next) :
    next.notifier.Recorded := by
  cases label with
  | checkAppData appData =>
    simp only [step] at taken
    split at taken
    · obtain rfl := Option.some.inj taken
      exact recorded
    · cases taken
  | report reading =>
    simp only [step] at taken
    split at taken
    · cases taken
    · obtain rfl := Option.some.inj taken
      exact recorded.notify _ _ _ _
  | notify eventId severity message reading =>
    obtain rfl := Option.some.inj taken
    exact recorded.notify _ _ _ _
  | setSpammingThreshold threshold =>
    obtain rfl := Option.some.inj taken
    exact recorded

theorem reachable_recorded
    (reachable : (monitoringSystem layer enableProcessDied).Reachable monitoring) :
    monitoring.notifier.Recorded := by
  apply reachable.invariant fun monitoring => monitoring.notifier.Recorded
  · exact RobustEventNotifier.recorded_new _ _
  · intro monitoring label next recorded _ taken
    exact Monitoring.recorded_step recorded taken

/-- A process that waits for its report goes on waiting, or is reported now. -/
theorem Monitoring.mem_stopped_step {key : String} (waits : key ∈ monitoring.stopped)
    (taken : monitoring.step layer enableProcessDied label = some next) :
    (∀ appData, label ≠ .checkAppData appData) ∧
      (key ∈ next.stopped ∨ ∃ reading rest, label = .report reading ∧
        monitoring.stopped = key :: rest) := by
  cases label with
  | checkAppData appData =>
    simp only [step] at taken
    split at taken
    · rename_i idle
      simp [idle] at waits
    · cases taken
  | report reading =>
    refine ⟨by simp, ?_⟩
    simp only [step] at taken
    split at taken
    · cases taken
    · rename_i head rest whole
      obtain rfl := Option.some.inj taken
      rw [whole] at waits
      obtain rfl | later := List.mem_cons.mp waits
      · exact .inr ⟨reading, rest, rfl, whole⟩
      · exact .inl later
  | notify eventId severity message reading =>
    obtain rfl := Option.some.inj taken
    exact ⟨by simp, .inl waits⟩
  | setSpammingThreshold threshold =>
    obtain rfl := Option.some.inj taken
    exact ⟨by simp, .inl waits⟩

/-- A pass that comes to its end reports every process on its list, before the next
pass begins. -/
theorem reported_in_pass {key : String} {labels : List MonitoringLabel}
    (waits : key ∈ monitoring.stopped)
    (replayed : (monitoringSystem layer enableProcessDied).runFrom monitoring labels = some final)
    (finished : final.stopped = []) :
    ∃ before reading after prior rest, labels = before ++ .report reading :: after ∧
      (∀ appData, MonitoringLabel.checkAppData appData ∉ before) ∧
      (monitoringSystem layer enableProcessDied).runFrom monitoring before = some prior ∧
      prior.stopped = key :: rest := by
  induction labels generalizing monitoring with
  | nil =>
    obtain rfl := Option.some.inj replayed
    simp [finished] at waits
  | cons label labels ih =>
    obtain ⟨next, taken, later⟩ := System.runFrom_cons_iff.mp replayed
    obtain ⟨sameScan, stays | ⟨reading, rest, rfl, first⟩⟩ :=
      Monitoring.mem_stopped_step waits taken
    · obtain ⟨before, reading, after, prior, rest, rfl, noScan, reaches, first⟩ := ih stays later
      refine ⟨label :: before, reading, after, prior, rest, rfl, ?_, ?_, first⟩
      · intro appData among
        obtain same | among := List.mem_cons.mp among
        · exact sameScan appData same.symm
        · exact noScan appData among
      · exact System.runFrom_cons_iff.mpr ⟨next, taken, reaches⟩
    · exact ⟨[], reading, labels, monitoring, rest, rfl, by simp, rfl, first⟩

end Runs

/-- With `enable_process_died` set, a pass that finds a process not running comes to
its report before the next pass. It publishes an event that names the process,
unless a PROCESS_DIED event was published less than the notifier's threshold
earlier. -/
theorem process_died_published (layer : String) (monitoring scanned final : Monitoring)
    (appData : List (String × Option AppData)) (key : String) (proc : ChildProcess)
    (labels : List MonitoringLabel)
    (reachable : (monitoringSystem layer true).Reachable monitoring)
    (loaded : (key, some (AppData.mk (some proc))) ∈ appData) (down : proc.running = false)
    (scan : (monitoringSystem layer true).step monitoring (.checkAppData appData) = some scanned)
    (continued : (monitoringSystem layer true).runFrom scanned labels = some final)
    (finished : final.stopped = []) :
    ∃ before reading after prior next, labels = before ++ .report reading :: after ∧
      (∀ appData, MonitoringLabel.checkAppData appData ∉ before) ∧
      (monitoringSystem layer true).runFrom scanned before = some prior ∧
      (monitoringSystem layer true).step prior (.report reading) = some next ∧
      ((∃ sent : EventLog, sent.eventId = .processDied ∧ sent.severity = .error ∧
          sent.msg = notRunningMessage layer key ∧
          next.notifier.published = prior.notifier.published ++ [(reading.steady, sent)]) ∨
        ∃ earlier ∈ prior.notifier.published, earlier.2.eventId = .processDied ∧
          toMs (reading.steady - earlier.1) < prior.notifier.spammingThresholdMs) := by
  have waits : key ∈ scanned.stopped := by
    simp only [monitoringSystem, Monitoring.step] at scan
    split at scan
    · obtain rfl := Option.some.inj scan
      exact mem_notRunning_iff.mpr ⟨proc, loaded, down⟩
    · cases scan
  obtain ⟨before, reading, after, prior, rest, split, noScan, reaches, first⟩ :=
    reported_in_pass waits continued finished
  have recorded : prior.notifier.Recorded :=
    reachable_recorded (.replay (.step reachable trivial scan) reaches)
  have taken : (monitoringSystem layer true).step prior (.report reading) = some
      ⟨prior.notifier.notify .processDied .error (notRunningMessage layer key) reading, rest⟩ := by
    simp [monitoringSystem, Monitoring.step, first]
  exact ⟨before, reading, after, prior, _, split, noScan, reaches, taken,
    recorded.published_or_recent .processDied .error (notRunningMessage layer key) reading⟩

/-- Two controllers, neither of which is running. -/
def twoDead : List (String × Option AppData) :=
  [("left", some ⟨some ⟨false⟩⟩), ("right", some ⟨some ⟨false⟩⟩)]

/-- The first of the two is reported. -/
theorem first_process_published : ∃ before reading after prior next,
    [MonitoringLabel.report ⟨0, 0⟩, .report ⟨1, 1⟩] = before ++ .report reading :: after ∧
      (∀ appData, MonitoringLabel.checkAppData appData ∉ before) ∧
      (monitoringSystem "control" true).runFrom
        ⟨.new "control" RobustEventNotifier.defaultSpammingThreshold, ["left", "right"]⟩ before =
          some prior ∧
      (monitoringSystem "control" true).step prior (.report reading) = some next ∧
      ((∃ sent : EventLog, sent.eventId = .processDied ∧ sent.severity = .error ∧
          sent.msg = notRunningMessage "control" "left" ∧
          next.notifier.published = prior.notifier.published ++ [(reading.steady, sent)]) ∨
        ∃ earlier ∈ prior.notifier.published, earlier.2.eventId = .processDied ∧
          toMs (reading.steady - earlier.1) < prior.notifier.spammingThresholdMs) :=
  process_died_published "control" _ _ _ twoDead "left" ⟨false⟩ _ .initial
    (List.mem_cons_self ..) rfl rfl rfl rfl

/-- The second is found not running in the same pass, and no event ever names it: the
report is dropped because of the one before it. -/
theorem second_process_not_published : ∃ final,
    (monitoringSystem "control" true).run
        [.checkAppData twoDead, .report ⟨0, 0⟩, .report ⟨1, 1⟩] = some final ∧
      "right" ∈ notRunning true twoDead ∧ final.stopped = [] ∧
      ∀ sent ∈ final.notifier.published, sent.2.msg ≠ notRunningMessage "control" "right" := by
  have replay : ((monitoringSystem "control" true).run
      [.checkAppData twoDead, .report ⟨0, 0⟩, .report ⟨1, 1⟩]).any (fun final =>
        final.stopped == [] && final.notifier.published.all fun sent =>
          sent.2.msg != notRunningMessage "control" "right") = true := by
    decide +kernel
  obtain ⟨final, replayed, passes⟩ := (Option.any_eq_true _ _).mp replay
  simp only [Bool.and_eq_true, beq_iff_eq, List.all_eq_true, bne_iff_ne] at passes
  exact ⟨final, replayed, by decide, passes⟩

end Dls2.Application
