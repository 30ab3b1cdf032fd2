import Dls2.Lib.Assoc
import Dls2.Lib.Transition
import Dls2.Utils.NumericalMovingWindow

/-!
# The monitor of the input topics

A plugin numbers its inputs in the order of their registration, and maps each topic to the
number of its last registration. `TopicMonitor` keeps for each number what is published on that
input, and a flag that says whether its frequency is checked. The nominal frequency of the node
that writes a topic is stored with the input at which it is found, and the flag is raised at
the number that the topic is mapped to. Once a flag is raised, nothing is looked up any more.

A list access with `.at` or `[]` that misses is `none`, and so is a use of a missing window.
Frequencies are exact here.
-/

namespace Dls2.Plugin

open Dls2.Transition Dls2.Utils

/-- What `getTopicToWriter` of a reader returns. -/
abbrev TopicToWriter := Assoc.Map String String

/-- The nominal frequencies of nodes. -/
abbrev NodesSpecs := Assoc.Map String ℚ

structure InputInfo where
  latestPeriodMs : ℚ
  missedSequenceIds : Int
  topicName : String
  reader : Option TopicToWriter

/-- The inputs of a plugin. Every topic is mapped, and to one of its own numbers. -/
structure PeriodicAppPlugin where
  inputInfo : List InputInfo
  inputsMap : Assoc.Map String Nat
  mapped : ∀ topic i, inputsMap.lookup topic = some i →
    (inputInfo[i]?).map InputInfo.topicName = some topic
  total : ∀ info ∈ inputInfo, info.topicName ∈ inputsMap

/-- What the readers have measured and discovered at one input. -/
structure Sample where
  latestPeriodMs : ℚ
  missedSequenceIds : Int
  reader : Option TopicToWriter

namespace PeriodicAppPlugin

def new : PeriodicAppPlugin where
  inputInfo := []
  inputsMap := ∅
  mapped _ _ entry := by simp at entry
  total _ member := by simp at member

/-- `build_input`. -/
def buildInput (plugin : PeriodicAppPlugin) (topicName : String) :
    PeriodicAppPlugin where
  inputInfo := plugin.inputInfo ++ [⟨0, 0, topicName, some ∅⟩]
  inputsMap := plugin.inputsMap.insert topicName plugin.inputInfo.length
  mapped topic i entry := by
    by_cases same : topic = topicName
    · subst same
      obtain rfl := Option.some.inj ((AList.lookup_insert _).symm.trans entry)
      simp
    · rw [AList.lookup_insert_ne same] at entry
      obtain ⟨info, found, named⟩ := Option.map_eq_some_iff.mp (plugin.mapped topic i entry)
      rw [List.getElem?_append_left (List.getElem?_eq_some_iff.mp found).1, found, ← named]
      rfl
  total info member := by
    rw [AList.mem_insert]
    rcases List.mem_append.mp member with before | now
    · exact .inr (plugin.total info before)
    · obtain rfl := List.mem_singleton.mp now
      exact .inl rfl

def register (topics : List String) : PeriodicAppPlugin := topics.foldl buildInput new

/-- `input_info_` when a pass copies it. -/
def receive (plugin : PeriodicAppPlugin) (samples : Nat → Sample) : List InputInfo :=
  plugin.inputInfo.mapIdx fun i info => { info with
    latestPeriodMs := (samples i).latestPeriodMs
    missedSequenceIds := (samples i).missedSequenceIds
    reader := (samples i).reader }

end PeriodicAppPlugin

structure InputTopicInfo where
  topicName : String
  desiredFreq : ℚ
  currentFreq : ℚ
  missedSequenceIds : Int
deriving DecidableEq, Repr

/-- `FREQ_MOVING_WINDOW_DEFAULT_SIZE`. -/
def freqMovingWindowDefaultSize : Nat := 1000

structure TopicMonitor where
  frequenciesMovingWindows : Assoc.Map String (NumericalMovingWindow freqMovingWindowDefaultSize)
  inputsMap : Assoc.Map String Nat
  inputTopicInfos : List InputTopicInfo
  maxExceedingFactor : ℚ
  nodesSpecs : NodesSpecs
  enableChecks : List Bool

namespace TopicMonitor

/-- The rate of the latest period goes into the window of the topic. -/
def getActualFrequency (monitor : TopicMonitor) (inputTopic : String) (periodMs : ℚ) :
    Option (ℚ × TopicMonitor) :=
  let periodSec := periodMs / 1000
  (monitor.frequenciesMovingWindows.lookup inputTopic).map fun window =>
    let window := if periodSec > 0 then window.push (1 / periodSec) else window
    (window.mean, { monitor with
      frequenciesMovingWindows := monitor.frequenciesMovingWindows.insert inputTopic window })

/-- The verdicts on the inputs from number `i` on. -/
def verdicts (monitor : TopicMonitor) (i : Nat) : List InputTopicInfo → Option (List Bool)
  | [] => some []
  | topicInfo :: rest =>
    (monitor.enableChecks[i]?).bind fun enabled =>
      let isNominal :=
        if enabled && topicInfo.currentFreq > 0 then
          -- Desired frequency available, comparing it against the measured one
          let delta := |topicInfo.desiredFreq - topicInfo.currentFreq|
          decide (delta < monitor.maxExceedingFactor * topicInfo.desiredFreq)
        else true -- Not checking, desired frequency is not available
      (monitor.verdicts (i + 1) rest).map (isNominal :: ·)

def checkDesiredFrequency (monitor : TopicMonitor) : Option (List Bool) :=
  monitor.verdicts 0 monitor.inputTopicInfos

/-- `enable_checks_.at(i) = enabled`, for an index that is in range. -/
def setCheck (monitor : TopicMonitor) (i : Nat) (enabled : Bool) : TopicMonitor :=
  { monitor with enableChecks := monitor.enableChecks.set i enabled }

/-- One round of the loop in `getInputTopicInfo`. -/
def refresh (monitor : TopicMonitor) (inputInfo : List InputInfo) (topicInfo : InputTopicInfo) :
    Option (InputTopicInfo × TopicMonitor) :=
  match monitor.inputsMap.lookup topicInfo.topicName with
  | none => some (topicInfo, monitor)
  | some inputInfoIdx =>
    -- Latest measurements update
    (inputInfo[inputInfoIdx]?).bind fun inputInfoItem =>
    (monitor.getActualFrequency topicInfo.topicName inputInfoItem.latestPeriodMs).bind
      fun (actualFrequency, monitor) =>
    let topicInfo := { topicInfo with
      currentFreq := actualFrequency
      missedSequenceIds := inputInfoItem.missedSequenceIds }
    -- Checking if desired frequency is up to date, if needed
    match inputInfoItem.reader with
    | none => some (topicInfo, monitor)
    | some topicToWriterMap =>
      (monitor.enableChecks[inputInfoIdx]?).bind fun enabled =>
        if enabled then some (topicInfo, monitor)
        else
          match topicToWriterMap.lookup topicInfo.topicName with
          | none => some (topicInfo, monitor)
          | some writer =>
            match monitor.nodesSpecs.lookup writer with
            | none => some (topicInfo, monitor.setCheck inputInfoIdx false)
            | some desiredFreq =>
              some ({ topicInfo with desiredFreq := desiredFreq },
                monitor.setCheck inputInfoIdx true)

/-- The loop in `getInputTopicInfo`. -/
def refreshAll (monitor : TopicMonitor) (inputInfo : List InputInfo) :
    List InputTopicInfo → Option (List InputTopicInfo × TopicMonitor)
  | [] => some ([], monitor)
  | topicInfo :: rest =>
    (monitor.refresh inputInfo topicInfo).bind fun (topicInfo, monitor) =>
      (monitor.refreshAll inputInfo rest).map fun (rest, monitor) => (topicInfo :: rest, monitor)

def inputsMapSize (monitor : TopicMonitor) : Nat := monitor.inputsMap.entries.length

def getInputTopicInfo (monitor : TopicMonitor) (inputInfo : List InputInfo) :
    Option (List InputTopicInfo × TopicMonitor) :=
  if monitor.inputsMapSize > 0 then
    (monitor.refreshAll inputInfo monitor.inputTopicInfos).map fun (inputTopicInfos, monitor) =>
      (inputTopicInfos, { monitor with inputTopicInfos := inputTopicInfos })
  else some (monitor.inputTopicInfos, monitor)

/-- One round of the loop in `init`. -/
def initInput (inputsMap : Assoc.Map String Nat) (monitor : TopicMonitor) (topicInfo : InputInfo) :
    TopicMonitor :=
  let topic := topicInfo.topicName
  let info : InputTopicInfo := ⟨topic, 0, 0, 0⟩
  if topic ∈ inputsMap then { monitor with
    inputTopicInfos := monitor.inputTopicInfos ++ [info]
    enableChecks := monitor.enableChecks ++ [false]
    frequenciesMovingWindows := monitor.frequenciesMovingWindows.insert topic (.init _) }
  else monitor

def init (monitor : TopicMonitor) (inputsMap : Assoc.Map String Nat) (inputInfo : List InputInfo) :
    TopicMonitor :=
  inputInfo.foldl (initInput inputsMap) { monitor with
    inputsMap := inputsMap
    inputTopicInfos := []
    enableChecks := []
    frequenciesMovingWindows := ∅ }

/-- The constructor. -/
def new (maxExceedingFactor : ℚ) (inputsMap : Assoc.Map String Nat) (inputInfo : List InputInfo)
    (nodesSpecs : NodesSpecs) : TopicMonitor :=
  init ⟨∅, ∅, [], maxExceedingFactor, nodesSpecs, []⟩ inputsMap inputInfo

end TopicMonitor

namespace PeriodicAppPlugin

/-- A report of an unexpected input frequency: the measured one, the nominal one and the topic. -/
structure WrongInputFrequency where
  currentFreq : ℚ
  desiredFreq : ℚ
  topicName : String
deriving DecidableEq, Repr

/-- The reports on the inputs from number `i` on. -/
def wrongInputFrequencies (inputTopicInfo : List InputTopicInfo) (i : Nat) :
    List Bool → Option (List WrongInputFrequency)
  | [] => some []
  | nominal :: rest =>
    if nominal then wrongInputFrequencies inputTopicInfo (i + 1) rest
    else
      (inputTopicInfo[i]?).bind fun info =>
        (wrongInputFrequencies inputTopicInfo (i + 1) rest).map
          (⟨info.currentFreq, info.desiredFreq, info.topicName⟩ :: ·)

/-- The part of `PeriodicAppPlugin::childMonitor` that is about topics and their frequencies,
and the reports that it makes. -/
def childMonitor (plugin : PeriodicAppPlugin) (enableWrongInputFrequency : Bool)
    (samples : Nat → Sample) (topicMonitor : TopicMonitor) :
    Option (List WrongInputFrequency × TopicMonitor) :=
  let inputInfo := plugin.receive samples
  let topicMonitor :=
    if topicMonitor.inputsMapSize ≠ plugin.inputsMap.entries.length then
      topicMonitor.init plugin.inputsMap inputInfo
    else topicMonitor
  (topicMonitor.getInputTopicInfo inputInfo).bind fun (inputTopicInfo, topicMonitor) =>
    if enableWrongInputFrequency then
      topicMonitor.checkDesiredFrequency.bind fun nominalFrequency =>
        (wrongInputFrequencies inputTopicInfo 0 nominalFrequency).map (·, topicMonitor)
    else some ([], topicMonitor)

end PeriodicAppPlugin

/-- A pass over the inputs, a list of verdicts, or both in a round of the monitor thread. -/
inductive Call where
  | getInputTopicInfo (samples : Nat → Sample)
  | checkDesiredFrequency
  | childMonitor (enableWrongInputFrequency : Bool) (samples : Nat → Sample)

/-- The monitor of a plugin that registers no more inputs. -/
def monitorSystem (plugin : PeriodicAppPlugin) (maxExceedingFactor : ℚ)
    (nodesSpecs : NodesSpecs) : System TopicMonitor Call where
  initial := .new maxExceedingFactor plugin.inputsMap plugin.inputInfo nodesSpecs
  step
    | monitor, .getInputTopicInfo samples =>
      (monitor.getInputTopicInfo (plugin.receive samples)).map Prod.snd
    | monitor, .checkDesiredFrequency => monitor.checkDesiredFrequency.map fun _ => monitor
    | monitor, .childMonitor enabled samples =>
      (plugin.childMonitor enabled samples monitor).map Prod.snd

/-- What is sampled in the passes of some calls. -/
def passes : List Call → List (Nat → Sample)
  | [] => []
  | .getInputTopicInfo samples :: rest => samples :: passes rest
  | .checkDesiredFrequency :: rest => passes rest
  | .childMonitor _ samples :: rest => samples :: passes rest

/-- The nominal frequency of the node that writes the topic, if a reader knows the node and the
node has one. -/
def Sample.known (nodesSpecs : NodesSpecs) (topic : String) (sample : Sample) : Option ℚ :=
  sample.reader.bind fun topicToWriter => (topicToWriter.lookup topic).bind nodesSpecs.lookup

/-- What is known of a topic in a pass, by the reader that it is mapped to. -/
def PeriodicAppPlugin.known (plugin : PeriodicAppPlugin) (nodesSpecs : NodesSpecs)
    (topic : String) (samples : Nat → Sample) : Option ℚ :=
  (plugin.inputsMap.lookup topic).bind fun i => (samples i).known nodesSpecs topic

/-- What was known of a topic when it first was. -/
def PeriodicAppPlugin.learnt (plugin : PeriodicAppPlugin) (nodesSpecs : NodesSpecs)
    (passes : List (Nat → Sample)) (topic : String) : Option ℚ :=
  passes.findSome? (plugin.known nodesSpecs topic)

/-- What is known of a topic in the last pass. -/
def PeriodicAppPlugin.latest (plugin : PeriodicAppPlugin) (nodesSpecs : NodesSpecs)
    (passes : List (Nat → Sample)) (topic : String) : Option ℚ :=
  passes.getLast?.bind (plugin.known nodesSpecs topic)

/-- The verdict on a measured frequency. Without a nominal frequency, or a measured one, it
passes. -/
def nominal (maxExceedingFactor : ℚ) (desired : Option ℚ) (currentFreq : ℚ) : Bool :=
  match desired with
  | none => true
  | some desiredFreq =>
    if currentFreq > 0 then
      decide (|desiredFreq - currentFreq| < maxExceedingFactor * desiredFreq)
    else true

/-- What the entry of an input is compared with. -/
def TopicMonitor.judgedAgainst (monitor : TopicMonitor) (i : Nat) : Option ℚ :=
  if monitor.enableChecks[i]? = some true then
    (monitor.inputTopicInfos[i]?).map InputTopicInfo.desiredFreq
  else none

/-! ### One pass -/

namespace PeriodicAppPlugin

variable {plugin : PeriodicAppPlugin}

/-- The topics in the order of their registration. -/
def topics (plugin : PeriodicAppPlugin) : List String := plugin.inputInfo.map InputInfo.topicName

theorem topics_register (topics : List String) : (register topics).topics = topics := by
  suffices later : ∀ plugin : PeriodicAppPlugin,
      (topics.foldl buildInput plugin).topics = plugin.topics ++ topics from later new
  induction topics with
  | nil =>
    intro plugin
    exact (List.append_nil _).symm
  | cons topic rest ih =>
    intro plugin
    rw [List.foldl_cons, ih]
    simp [PeriodicAppPlugin.topics, buildInput]

theorem topic_of_mapped {topic : String} {i : Nat}
    (entry : plugin.inputsMap.lookup topic = some i) : plugin.topics[i]? = some topic := by
  rw [topics, List.getElem?_map]
  exact plugin.mapped topic i entry

theorem mapped_of_mem {topic : String} (member : topic ∈ plugin.topics) :
    ∃ i, plugin.inputsMap.lookup topic = some i := by
  obtain ⟨info, registered, rfl⟩ := List.mem_map.mp member
  exact Option.isSome_iff_exists.mp (AList.lookup_isSome.mpr (plugin.total info registered))

theorem known_of_mapped {topic : String} {i : Nat} {nodesSpecs : NodesSpecs}
    {samples : Nat → Sample} (entry : plugin.inputsMap.lookup topic = some i) :
    plugin.known nodesSpecs topic samples = (samples i).known nodesSpecs topic := by
  rw [known, entry]
  rfl

theorem receive_mapped {topic : String} {i : Nat} (samples : Nat → Sample)
    (entry : plugin.inputsMap.lookup topic = some i) : ∃ item,
      (plugin.receive samples)[i]? = some item ∧ item.reader = (samples i).reader := by
  obtain ⟨info, found, -⟩ := Option.map_eq_some_iff.mp (plugin.mapped topic i entry)
  simp [receive, List.getElem?_mapIdx, found]

/-- Only registered topics have a number. -/
theorem known_of_not_mem {topic : String} {nodesSpecs : NodesSpecs} {samples : Nat → Sample}
    (absent : topic ∉ plugin.topics) : plugin.known nodesSpecs topic samples = none := by
  cases entry : plugin.inputsMap.lookup topic with
  | none => simp [known, entry]
  | some i => exact absurd (List.mem_of_getElem? (topic_of_mapped entry)) absent

end PeriodicAppPlugin

/-- What is known after some topics have been looked at. -/
def learn (known learnt : String → Option ℚ) (seen : List String) (topic : String) : Option ℚ :=
  (learnt topic).or (if topic ∈ seen then known topic else none)

theorem learn_cons (known learnt : String → Option ℚ) (head : String) (rest : List String) :
    learn known (learn known learnt [head]) rest = learn known learnt (head :: rest) := by
  funext topic
  by_cases same : topic = head
  · subst same
    by_cases later : topic ∈ rest
    · simp [learn, later, Option.or_assoc]
    · simp [learn, later]
  · simp [learn, same]

/-- What is known of each topic decides the flag at the number that it is mapped to. -/
structure Flagged (plugin : PeriodicAppPlugin) (maxExceedingFactor : ℚ) (nodesSpecs : NodesSpecs)
    (learnt : String → Option ℚ) (monitor : TopicMonitor) : Prop where
  inputsMap : monitor.inputsMap = plugin.inputsMap
  maxExceedingFactor : monitor.maxExceedingFactor = maxExceedingFactor
  nodesSpecs : monitor.nodesSpecs = nodesSpecs
  flags : ∀ i topic, plugin.topics[i]? = some topic → monitor.enableChecks[i]? =
    some (plugin.inputsMap.lookup topic = some i && (learnt topic).isSome)
  windows : ∀ topic ∈ plugin.topics, topic ∈ monitor.frequenciesMovingWindows

namespace Flagged

variable {plugin : PeriodicAppPlugin} {factor : ℚ} {nodesSpecs : NodesSpecs}
  {learnt : String → Option ℚ} {monitor next : TopicMonitor}

theorem flag (flagged : Flagged plugin factor nodesSpecs learnt monitor) {topic : String}
    {i : Nat} (entry : plugin.inputsMap.lookup topic = some i) :
    monitor.enableChecks[i]? = some (learnt topic).isSome := by
  simpa [entry] using flagged.flags i topic (PeriodicAppPlugin.topic_of_mapped entry)

theorem exists_actualFrequency (flagged : Flagged plugin factor nodesSpecs learnt monitor)
    {topic : String} (member : topic ∈ plugin.topics) (periodMs : ℚ) :
    ∃ actualFrequency next,
      monitor.getActualFrequency topic periodMs = some (actualFrequency, next) := by
  have present := AList.lookup_isSome.mpr (flagged.windows topic member)
  obtain ⟨window, entry⟩ := Option.isSome_iff_exists.mp present
  simp [TopicMonitor.getActualFrequency, entry]

theorem getActualFrequency (flagged : Flagged plugin factor nodesSpecs learnt monitor)
    {topic : String} {periodMs actualFrequency : ℚ}
    (measured : monitor.getActualFrequency topic periodMs = some (actualFrequency, next)) :
    Flagged plugin factor nodesSpecs learnt next := by
  obtain ⟨window, -, updated⟩ := Option.map_eq_some_iff.mp measured
  obtain ⟨-, rfl⟩ := Prod.mk.inj updated
  exact { flagged with
    windows other registered := (AList.mem_insert _).mpr (.inr (flagged.windows other registered)) }

/-- Raising the flag of a topic once it is known. -/
theorem raise (flagged : Flagged plugin factor nodesSpecs learnt monitor) {topic : String} {i : Nat}
    {known : String → Option ℚ} {desiredFreq : ℚ}
    (entry : plugin.inputsMap.lookup topic = some i) (fresh : known topic = some desiredFreq) :
    Flagged plugin factor nodesSpecs (learn known learnt [topic]) (monitor.setCheck i true) where
  inputsMap := flagged.inputsMap
  maxExceedingFactor := flagged.maxExceedingFactor
  nodesSpecs := flagged.nodesSpecs
  flags j other registered := by
    have before := flagged.flags j other registered
    by_cases here : i = j
    · subst here
      obtain rfl := Option.some.inj
        ((PeriodicAppPlugin.topic_of_mapped entry).symm.trans registered)
      have inRange := (List.getElem?_eq_some_iff.mp before).1
      simp [TopicMonitor.setCheck, List.getElem?_set_self inRange, entry, learn, fresh]
    · have elsewhere : ¬ (other = topic ∧ plugin.inputsMap.lookup other = some j) := by
        rintro ⟨rfl, mapped⟩
        exact here (Option.some.inj (entry.symm.trans mapped))
      rw [TopicMonitor.setCheck, List.getElem?_set_ne here, before]
      by_cases same : other = topic
      · have different : plugin.inputsMap.lookup other ≠ some j :=
          fun mapped => elsewhere ⟨same, mapped⟩
        simp [different]
      · simp [learn, same]
  windows := flagged.windows

/-- Nothing changes for a topic that is not known, or was known before. -/
theorem keep (flagged : Flagged plugin factor nodesSpecs learnt monitor) {topic : String}
    {known : String → Option ℚ} (stale : known topic = none ∨ (learnt topic).isSome = true) :
    Flagged plugin factor nodesSpecs (learn known learnt [topic]) monitor := by
  have same : learn known learnt [topic] = learnt := by
    funext other
    by_cases here : other = topic
    · subst here
      rcases stale with unknown | before
      · simp [learn, unknown]
      · obtain ⟨desiredFreq, learned⟩ := Option.isSome_iff_exists.mp before
        simp [learn, learned]
    · simp [learn, here]
  rw [same]
  exact flagged

/-- A flag that is set to what it is. -/
theorem setCheck_eq {i : Nat} {enabled : Bool} (same : monitor.enableChecks[i]? = some enabled) :
    monitor.setCheck i enabled = monitor := by
  obtain ⟨inRange, same⟩ := List.getElem?_eq_some_iff.mp same
  rw [TopicMonitor.setCheck, ← same, List.set_getElem_self]

/-- One round of the loop looks at one topic. The nominal frequency is stored with the entry
if it is known for the first time. -/
theorem refresh (flagged : Flagged plugin factor nodesSpecs learnt monitor)
    (samples : Nat → Sample) {topicInfo : InputTopicInfo}
    (member : topicInfo.topicName ∈ plugin.topics) : ∃ refreshed next,
      monitor.refresh (plugin.receive samples) topicInfo = some (refreshed, next) ∧
      refreshed.topicName = topicInfo.topicName ∧
      refreshed.desiredFreq = (if (learnt topicInfo.topicName).isSome then topicInfo.desiredFreq
        else (plugin.known nodesSpecs topicInfo.topicName samples).getD topicInfo.desiredFreq) ∧
      Flagged plugin factor nodesSpecs
        (learn (plugin.known nodesSpecs · samples) learnt [topicInfo.topicName]) next := by
  obtain ⟨i, entry⟩ := PeriodicAppPlugin.mapped_of_mem member
  obtain ⟨item, found, reader⟩ := PeriodicAppPlugin.receive_mapped samples entry
  obtain ⟨actualFrequency, measuring, measured⟩ :=
    flagged.exists_actualFrequency member item.latestPeriodMs
  have mapped : monitor.inputsMap.lookup topicInfo.topicName = some i := by
    rw [flagged.inputsMap, entry]
  have flagged := flagged.getActualFrequency measured
  have flag := flagged.flag entry
  have known : plugin.known nodesSpecs topicInfo.topicName samples = item.reader.bind
      fun topicToWriter => (topicToWriter.lookup topicInfo.topicName).bind nodesSpecs.lookup := by
    rw [PeriodicAppPlugin.known_of_mapped entry, Sample.known, reader]
  simp only [TopicMonitor.refresh, mapped, found, measured, Option.bind_some]
  cases discovered : item.reader with
  | none =>
    rw [discovered, Option.bind_none] at known
    exact ⟨_, _, rfl, rfl, by simp [known], flagged.keep (.inl known)⟩
  | some topicToWriter =>
    rw [discovered, Option.bind_some] at known
    simp only [flag, Option.bind_some]
    cases before : (learnt topicInfo.topicName).isSome with
    | true => exact ⟨_, _, rfl, rfl, by simp, flagged.keep (.inr before)⟩
    | false =>
      cases written : topicToWriter.lookup topicInfo.topicName with
      | none =>
        rw [written, Option.bind_none] at known
        exact ⟨_, _, rfl, rfl, by simp [known], flagged.keep (.inl known)⟩
      | some writer =>
        rw [written, Option.bind_some] at known
        simp only [Bool.false_eq_true, if_false, flagged.nodesSpecs]
        cases specified : nodesSpecs.lookup writer with
        | none =>
          rw [specified] at known
          rw [before] at flag
          rw [setCheck_eq flag]
          exact ⟨_, _, rfl, rfl, by simp [known], flagged.keep (.inl known)⟩
        | some desiredFreq =>
          rw [specified] at known
          exact ⟨_, _, rfl, rfl, by simp [known], flagged.raise entry known⟩

/-- The loop. Of several entries of a topic only the first gets a nominal frequency. -/
theorem refreshAll (flagged : Flagged plugin factor nodesSpecs learnt monitor)
    (samples : Nat → Sample) {infos : List InputTopicInfo}
    (members : ∀ topicInfo ∈ infos, topicInfo.topicName ∈ plugin.topics) : ∃ refreshed next,
      monitor.refreshAll (plugin.receive samples) infos = some (refreshed, next) ∧
      refreshed.map InputTopicInfo.topicName = infos.map InputTopicInfo.topicName ∧
      (∀ i topicInfo, infos[i]? = some topicInfo →
        (refreshed[i]?).map InputTopicInfo.desiredFreq = some
          (if topicInfo.topicName ∈ (infos.map InputTopicInfo.topicName).take i ∨
              (learnt topicInfo.topicName).isSome then topicInfo.desiredFreq
          else (plugin.known nodesSpecs topicInfo.topicName samples).getD
            topicInfo.desiredFreq)) ∧
      Flagged plugin factor nodesSpecs (learn (plugin.known nodesSpecs · samples) learnt
        (infos.map InputTopicInfo.topicName)) next := by
  induction infos generalizing monitor learnt with
  | nil =>
    have nothing : learn (plugin.known nodesSpecs · samples) learnt [] = learnt := by
      funext topic
      simp [learn]
    exact ⟨[], monitor, rfl, rfl, by simp, nothing.symm ▸ flagged⟩
  | cons head rest ih =>
    obtain ⟨first, between, looked, name, desired, flagged⟩ :=
      flagged.refresh samples (members head List.mem_cons_self)
    obtain ⟨refreshed, next, looped, names, stored, flagged⟩ :=
      ih flagged fun topicInfo member => members topicInfo (List.mem_cons_of_mem head member)
    refine ⟨first :: refreshed, next, ?_, ?_, ?_, ?_⟩
    · simp [TopicMonitor.refreshAll, looked, looped]
    · simp [name, names]
    · intro i topicInfo listed
      cases i with
      | zero =>
        obtain rfl := Option.some.inj listed
        simpa using desired
      | succ i =>
        rw [List.getElem?_cons_succ] at listed ⊢
        rw [stored i topicInfo listed]
        simp only [List.map_cons, List.take_succ_cons, List.mem_cons]
        by_cases same : topicInfo.topicName = head.topicName
        · cases known : plugin.known nodesSpecs head.topicName samples <;>
            simp [learn, same, known]
        · simp [learn, same]
    · rw [learn_cons] at flagged
      exact flagged

end Flagged

/-! ### Any number of passes -/

/-- What a monitor holds after some passes: the flags are at the last numbers of the topics,
and the nominal frequencies at the first. -/
structure Tracks (plugin : PeriodicAppPlugin) (maxExceedingFactor : ℚ) (nodesSpecs : NodesSpecs)
    (passes : List (Nat → Sample)) (monitor : TopicMonitor) : Prop where
  flagged : Flagged plugin maxExceedingFactor nodesSpecs (plugin.learnt nodesSpecs passes) monitor
  names : monitor.inputTopicInfos.map InputTopicInfo.topicName = plugin.topics
  stored : ∀ i topicInfo, monitor.inputTopicInfos[i]? = some topicInfo →
    topicInfo.desiredFreq = if topicInfo.topicName ∈ plugin.topics.take i then 0
      else (plugin.learnt nodesSpecs passes topicInfo.topicName).getD 0

section Init

variable {inputsMap : Assoc.Map String Nat}

/-- The loop in `init` over inputs with mapped topics. -/
theorem initAll {inputInfo : List InputInfo}
    (mapped : ∀ info ∈ inputInfo, info.topicName ∈ inputsMap) (monitor : TopicMonitor) :
    ∃ frequenciesMovingWindows,
      inputInfo.foldl (TopicMonitor.initInput inputsMap) monitor = { monitor with
        inputTopicInfos := monitor.inputTopicInfos ++
          inputInfo.map fun info => ⟨info.topicName, 0, 0, 0⟩
        enableChecks := monitor.enableChecks ++ List.replicate inputInfo.length false
        frequenciesMovingWindows := frequenciesMovingWindows } ∧
      ∀ topic, topic ∈ monitor.frequenciesMovingWindows ∨
        topic ∈ inputInfo.map InputInfo.topicName → topic ∈ frequenciesMovingWindows := by
  induction inputInfo generalizing monitor with
  | nil => exact ⟨monitor.frequenciesMovingWindows, by simp, by simp⟩
  | cons head rest ih =>
    have here := mapped head List.mem_cons_self
    have later := fun info member => mapped info (List.mem_cons_of_mem head member)
    obtain ⟨windows, folded, kept⟩ := ih later (monitor.initInput inputsMap head)
    refine ⟨windows, ?_, ?_⟩
    · rw [List.foldl_cons, folded]
      simp [TopicMonitor.initInput, here, List.replicate_succ]
    · intro topic member
      apply kept
      simp only [TopicMonitor.initInput, if_pos here, AList.mem_insert]
      simpa [or_assoc, or_left_comm] using member

end Init

namespace Tracks

variable {plugin : PeriodicAppPlugin} {factor : ℚ} {nodesSpecs : NodesSpecs}
  {passed : List (Nat → Sample)} {monitor : TopicMonitor}

theorem new (plugin : PeriodicAppPlugin) (factor : ℚ) (nodesSpecs : NodesSpecs) :
    Tracks plugin factor nodesSpecs []
      (.new factor plugin.inputsMap plugin.inputInfo nodesSpecs) := by
  obtain ⟨windows, folded, kept⟩ := initAll plugin.total
    ⟨∅, plugin.inputsMap, [], factor, nodesSpecs, []⟩
  have start : TopicMonitor.new factor plugin.inputsMap plugin.inputInfo nodesSpecs =
      plugin.inputInfo.foldl (TopicMonitor.initInput plugin.inputsMap)
        ⟨∅, plugin.inputsMap, [], factor, nodesSpecs, []⟩ := rfl
  rw [start, folded]
  exact {
    flagged := {
      inputsMap := rfl
      maxExceedingFactor := rfl
      nodesSpecs := rfl
      flags i topic registered := by
        have inRange : i < plugin.inputInfo.length := by
          simpa [PeriodicAppPlugin.topics] using (List.getElem?_eq_some_iff.mp registered).1
        simp [PeriodicAppPlugin.learnt, inRange]
      windows topic member := kept topic (.inr member) }
    names := by simp [PeriodicAppPlugin.topics]
    stored i topicInfo listed := by
      obtain ⟨info, -, rfl⟩ := List.mem_map.mp (List.mem_of_getElem? listed)
      simp [PeriodicAppPlugin.learnt] }

theorem learnt_concat (samples : Nat → Sample) (topic : String) :
    plugin.learnt nodesSpecs (passed ++ [samples]) topic =
      (plugin.learnt nodesSpecs passed topic).or (plugin.known nodesSpecs topic samples) := by
  simp [PeriodicAppPlugin.learnt, List.findSome?_append]

/-- A pass learns what is known then. -/
theorem learn_topics (samples : Nat → Sample) :
    learn (plugin.known nodesSpecs · samples) (plugin.learnt nodesSpecs passed) plugin.topics =
      plugin.learnt nodesSpecs (passed ++ [samples]) := by
  funext topic
  rw [learnt_concat, learn]
  by_cases member : topic ∈ plugin.topics
  · rw [if_pos member]
  · rw [if_neg member, PeriodicAppPlugin.known_of_not_mem member]

/-- Without inputs there is nothing to loop over. -/
theorem getInputTopicInfo_eq (tracks : Tracks plugin factor nodesSpecs passed monitor)
    (inputInfo : List InputInfo) : monitor.getInputTopicInfo inputInfo =
      (monitor.refreshAll inputInfo monitor.inputTopicInfos).map fun (inputTopicInfos, next) =>
        (inputTopicInfos, { next with inputTopicInfos := inputTopicInfos }) := by
  unfold TopicMonitor.getInputTopicInfo
  split
  · rfl
  · have noEntries : monitor.inputsMap.entries = [] := by
      simpa [TopicMonitor.inputsMapSize] using ‹¬ monitor.inputsMapSize > 0›
    have empty : monitor.inputsMap = ∅ := AList.ext noEntries
    have noTopics : monitor.inputTopicInfos = [] := by
      refine List.eq_nil_iff_forall_not_mem.mpr fun topicInfo member => ?_
      have registered : topicInfo.topicName ∈ plugin.topics :=
        tracks.names ▸ List.mem_map_of_mem member
      obtain ⟨i, entry⟩ := PeriodicAppPlugin.mapped_of_mem registered
      rw [← tracks.flagged.inputsMap, empty, AList.lookup_empty] at entry
      cases entry
    rw [noTopics]
    simp [TopicMonitor.refreshAll, ← noTopics]

theorem getInputTopicInfo (tracks : Tracks plugin factor nodesSpecs passed monitor)
    (samples : Nat → Sample) : ∃ next,
      monitor.getInputTopicInfo (plugin.receive samples) = some (next.inputTopicInfos, next) ∧
        Tracks plugin factor nodesSpecs (passed ++ [samples]) next := by
  have members : ∀ topicInfo ∈ monitor.inputTopicInfos,
      topicInfo.topicName ∈ plugin.topics := by
    intro topicInfo member
    rw [← tracks.names]
    exact List.mem_map_of_mem member
  obtain ⟨refreshed, next, looped, names, stored, flagged⟩ :=
    tracks.flagged.refreshAll samples members
  rw [tracks.names] at names stored flagged
  rw [learn_topics] at flagged
  refine ⟨{ next with inputTopicInfos := refreshed }, ?_, ?_, names, ?_⟩
  · rw [tracks.getInputTopicInfo_eq, looped]
    rfl
  · exact ⟨flagged.inputsMap, flagged.maxExceedingFactor, flagged.nodesSpecs, flagged.flags,
      flagged.windows⟩
  · intro i topicInfo listed
    have sameNames := congrArg (fun topics => topics[i]?) (names.trans tracks.names.symm)
    simp only [List.getElem?_map, listed, Option.map_some] at sameNames
    obtain ⟨before, found, named⟩ := Option.map_eq_some_iff.mp sameNames.symm
    have desired := stored i before found
    rw [listed, Option.map_some, Option.some.injEq, tracks.stored i before found, named] at desired
    rw [desired, learnt_concat]
    by_cases earlier : topicInfo.topicName ∈ plugin.topics.take i
    · simp [earlier]
    · cases known : plugin.learnt nodesSpecs passed topicInfo.topicName with
      | none => simp [earlier]
      | some desiredFreq => simp [earlier]

/-- There is a flag for every input. -/
theorem length_le (tracks : Tracks plugin factor nodesSpecs passed monitor) :
    monitor.inputTopicInfos.length ≤ monitor.enableChecks.length := by
  have registered : monitor.inputTopicInfos.length = plugin.topics.length := by
    rw [← tracks.names, List.length_map]
  by_contra short
  have inRange : monitor.enableChecks.length < plugin.topics.length := by omega
  have flag := tracks.flagged.flags _ _ (List.getElem?_eq_getElem inRange)
  simp at flag

end Tracks

/-! ### Verdicts -/

namespace TopicMonitor

variable {monitor : TopicMonitor}

/-- The verdicts on some of the inputs. -/
theorem exists_verdicts (monitor : TopicMonitor) (i : Nat) (infos : List InputTopicInfo)
    (inRange : i + infos.length ≤ monitor.enableChecks.length) : ∃ list,
      monitor.verdicts i infos = some list ∧ list.length = infos.length ∧
      ∀ j topicInfo, infos[j]? = some topicInfo → list[j]? = some
        (nominal monitor.maxExceedingFactor
          (if monitor.enableChecks[i + j]? = some true then some topicInfo.desiredFreq else none)
          topicInfo.currentFreq) := by
  induction infos generalizing i with
  | nil => exact ⟨[], rfl, rfl, by simp⟩
  | cons head rest ih =>
    rw [List.length_cons] at inRange
    obtain ⟨list, judged, length, verdict⟩ := ih (i + 1) (by omega)
    have flag := List.getElem?_eq_getElem (show i < monitor.enableChecks.length by omega)
    simp only [TopicMonitor.verdicts, flag, judged, Option.bind_some, Option.map_some]
    refine ⟨_, rfl, by simp [length], ?_⟩
    intro j topicInfo listed
    cases j with
    | zero =>
      obtain rfl := Option.some.inj listed
      cases enabled : monitor.enableChecks[i] <;> simp [flag, enabled, nominal]
    | succ j =>
      rw [List.getElem?_cons_succ] at listed ⊢
      rw [verdict j topicInfo listed, Nat.add_right_comm, Nat.add_assoc]

/-- Each verdict is the comparison with what its entry is judged against. -/
theorem exists_checkDesiredFrequency
    (inRange : monitor.inputTopicInfos.length ≤ monitor.enableChecks.length) : ∃ list,
      monitor.checkDesiredFrequency = some list ∧
      list.length = monitor.inputTopicInfos.length ∧
      ∀ i topicInfo, monitor.inputTopicInfos[i]? = some topicInfo → list[i]? = some
        (nominal monitor.maxExceedingFactor (monitor.judgedAgainst i) topicInfo.currentFreq) := by
  obtain ⟨list, judged, length, verdict⟩ :=
    exists_verdicts monitor 0 monitor.inputTopicInfos (by omega)
  refine ⟨list, judged, length, ?_⟩
  intro i topicInfo listed
  rw [verdict i topicInfo listed, Nat.zero_add, judgedAgainst, listed, Option.map_some]

end TopicMonitor

/-- The reports on verdicts for which there are entries. -/
theorem PeriodicAppPlugin.exists_wrongInputFrequencies (inputTopicInfo : List InputTopicInfo)
    (i : Nat) (nominalFrequency : List Bool)
    (inRange : i + nominalFrequency.length ≤ inputTopicInfo.length) :
    ∃ reports, wrongInputFrequencies inputTopicInfo i nominalFrequency = some reports := by
  induction nominalFrequency generalizing i with
  | nil => exact ⟨[], rfl⟩
  | cons isNominal rest ih =>
    rw [List.length_cons] at inRange
    obtain ⟨reports, reported⟩ := ih (i + 1) (by omega)
    have entry := List.getElem?_eq_getElem (show i < inputTopicInfo.length by omega)
    cases isNominal <;> simp [wrongInputFrequencies, reported, entry]

namespace Tracks

variable {plugin : PeriodicAppPlugin} {factor : ℚ} {nodesSpecs : NodesSpecs}
  {passed : List (Nat → Sample)} {monitor : TopicMonitor}

theorem childMonitor (tracks : Tracks plugin factor nodesSpecs passed monitor) (enabled : Bool)
    (samples : Nat → Sample) : ∃ reports next,
      plugin.childMonitor enabled samples monitor = some (reports, next) ∧
        Tracks plugin factor nodesSpecs (passed ++ [samples]) next := by
  obtain ⟨next, passing, later⟩ := tracks.getInputTopicInfo samples
  obtain ⟨list, judged, length, -⟩ :=
    TopicMonitor.exists_checkDesiredFrequency later.length_le
  obtain ⟨reports, reported⟩ :=
    PeriodicAppPlugin.exists_wrongInputFrequencies next.inputTopicInfos 0 list (by omega)
  have sizes : monitor.inputsMapSize = plugin.inputsMap.entries.length := by
    rw [TopicMonitor.inputsMapSize, tracks.flagged.inputsMap]
  cases enabled <;>
    simp [PeriodicAppPlugin.childMonitor, sizes, passing, judged, reported, later]

/-- Every call succeeds, and adds its pass. -/
theorem step (tracks : Tracks plugin factor nodesSpecs passed monitor) (call : Call) :
    ∃ next, (monitorSystem plugin factor nodesSpecs).step monitor call = some next ∧
      Tracks plugin factor nodesSpecs (passed ++ passes [call]) next := by
  cases call with
  | getInputTopicInfo samples =>
    obtain ⟨next, passing, later⟩ := tracks.getInputTopicInfo samples
    exact ⟨next, by simp [monitorSystem, passing], later⟩
  | checkDesiredFrequency =>
    obtain ⟨list, judged, -⟩ := TopicMonitor.exists_checkDesiredFrequency tracks.length_le
    exact ⟨monitor, by simp [monitorSystem, judged], by simpa [passes] using tracks⟩
  | childMonitor enabled samples =>
    obtain ⟨reports, next, monitored, later⟩ := tracks.childMonitor enabled samples
    exact ⟨next, by simp [monitorSystem, monitored], later⟩

theorem runFrom (tracks : Tracks plugin factor nodesSpecs passed monitor) (calls : List Call) :
    ∃ final, (monitorSystem plugin factor nodesSpecs).runFrom monitor calls = some final ∧
      Tracks plugin factor nodesSpecs (passed ++ passes calls) final := by
  induction calls generalizing passed monitor with
  | nil => exact ⟨monitor, rfl, by simpa [passes] using tracks⟩
  | cons call rest ih =>
    obtain ⟨next, taken, later⟩ := tracks.step call
    obtain ⟨final, replayed, tracked⟩ := ih later
    refine ⟨final, System.runFrom_cons_iff.mpr ⟨next, taken, replayed⟩, ?_⟩
    have split : passes (call :: rest) = passes [call] ++ passes rest := by
      cases call <;> rfl
    rw [split, ← List.append_assoc]
    exact tracked

/-- There is an entry for every input. -/
theorem exists_entry (tracks : Tracks plugin factor nodesSpecs passed monitor) {i : Nat}
    {topic : String} (registered : plugin.topics[i]? = some topic) : ∃ topicInfo,
      monitor.inputTopicInfos[i]? = some topicInfo ∧ topicInfo.topicName = topic := by
  rw [← tracks.names, List.getElem?_map] at registered
  exact Option.map_eq_some_iff.mp registered

/-- An entry is compared with something once its topic is known, and mapped to it. -/
theorem judgedAgainst_eq (tracks : Tracks plugin factor nodesSpecs passed monitor) {i : Nat}
    {topic : String} (registered : plugin.topics[i]? = some topic) :
    monitor.judgedAgainst i =
      if plugin.inputsMap.lookup topic = some i ∧ (plugin.learnt nodesSpecs passed topic).isSome
      then some (if topic ∈ plugin.topics.take i then 0
        else (plugin.learnt nodesSpecs passed topic).getD 0)
      else none := by
  obtain ⟨topicInfo, listed, rfl⟩ := tracks.exists_entry registered
  rw [TopicMonitor.judgedAgainst, tracks.flagged.flags i _ registered, listed, Option.map_some,
    tracks.stored i topicInfo listed]
  simp

end Tracks

/-! ### Which verdicts are right -/

/-- No second registration has the topic. -/
def RegisteredOnce (topics : List String) (topic : String) : Prop :=
  ∀ i j : Nat, topics[i]? = some topic → topics[j]? = some topic → i = j

/-- The list of verdicts has one for each input. It is on the nominal frequency of the node that
writes the input's own topic, if that is known, and a pass otherwise. -/
def RightlyJudged (plugin : PeriodicAppPlugin) (maxExceedingFactor : ℚ) (nodesSpecs : NodesSpecs)
    (passed : List (Nat → Sample)) (monitor : TopicMonitor) : Prop :=
  ∃ list, monitor.checkDesiredFrequency = some list ∧ list.length = plugin.topics.length ∧
    ∀ i topic, plugin.topics[i]? = some topic →
      monitor.judgedAgainst i = plugin.latest nodesSpecs passed topic ∧
      ∃ topicInfo, monitor.inputTopicInfos[i]? = some topicInfo ∧ topicInfo.topicName = topic ∧
        list[i]? = some (nominal maxExceedingFactor (plugin.latest nodesSpecs passed topic)
          topicInfo.currentFreq)

section Right

variable {plugin : PeriodicAppPlugin} {factor : ℚ} {nodesSpecs : NodesSpecs}
  {passed : List (Nat → Sample)} {monitor : TopicMonitor}

/-- A topic that is not known in any pass is not known in the last. -/
theorem latest_of_not_learnt {topic : String}
    (never : plugin.learnt nodesSpecs passed topic = none) :
    plugin.latest nodesSpecs passed topic = none := by
  rw [PeriodicAppPlugin.latest, Option.bind_eq_none_iff]
  intro samples last
  exact List.findSome?_eq_none_iff.mp never samples (List.mem_of_getLast? last)

theorem not_mem_take_of_registeredOnce {topics : List String} {topic : String} {i : Nat}
    (once : RegisteredOnce topics topic) (registered : topics[i]? = some topic) :
    topic ∉ topics.take i := by
  intro member
  obtain ⟨j, taken⟩ := List.getElem?_of_mem member
  rw [List.getElem?_take] at taken
  split at taken
  · have same := once i j registered taken
    omega
  · cases taken

theorem mem_of_learnt {topic : String} {desired : ℚ}
    (learnt : plugin.learnt nodesSpecs passed topic = some desired) : topic ∈ plugin.topics := by
  by_contra absent
  have never : plugin.learnt nodesSpecs passed topic = none :=
    List.findSome?_eq_none_iff.mpr fun _ _ => PeriodicAppPlugin.known_of_not_mem absent
  rw [never] at learnt
  cases learnt

/-- The entries of a topic are compared with what is known of it now if it was never known, or
has one entry and the frequency that it had when it was first known. -/
theorem judgedAgainst_latest_iff (tracks : Tracks plugin factor nodesSpecs passed monitor)
    (topic : String) : (∀ i, plugin.topics[i]? = some topic →
        monitor.judgedAgainst i = plugin.latest nodesSpecs passed topic) ↔
      ∀ desired, plugin.learnt nodesSpecs passed topic = some desired →
        RegisteredOnce plugin.topics topic ∧
          plugin.latest nodesSpecs passed topic = some desired := by
  cases learnt : plugin.learnt nodesSpecs passed topic with
  | none =>
    have unknown := latest_of_not_learnt learnt
    constructor
    · intro _ desired impossible
      cases impossible
    · intro _ i registered
      rw [tracks.judgedAgainst_eq registered, learnt, unknown]
      simp
  | some known =>
    obtain ⟨last, mapped⟩ := PeriodicAppPlugin.mapped_of_mem (mem_of_learnt learnt)
    have lastRegistered := PeriodicAppPlugin.topic_of_mapped mapped
    constructor
    · rintro judged desired ⟨⟩
      have compared := judged last lastRegistered
      rw [tracks.judgedAgainst_eq lastRegistered, learnt] at compared
      -- an entry that the topic is not mapped to is compared with nothing
      have alone : ∀ i, plugin.topics[i]? = some topic → i = last := by
        intro i registered
        by_contra other
        have uncompared := judged i registered
        rw [tracks.judgedAgainst_eq registered, mapped, ← compared] at uncompared
        simp [Ne.symm other, mapped] at uncompared
      have once : RegisteredOnce plugin.topics topic :=
        fun i j first second => (alone i first).trans (alone j second).symm
      have first := not_mem_take_of_registeredOnce once lastRegistered
      exact ⟨once, by simpa [mapped, first] using compared.symm⟩
    · intro right i registered
      obtain ⟨once, current⟩ := right known rfl
      obtain rfl := once i last registered lastRegistered
      have first := not_mem_take_of_registeredOnce once registered
      rw [tracks.judgedAgainst_eq registered, learnt, current]
      simp [mapped, first]

end Right

/-- Every index is in range after any calls. The next list of verdicts is right if and only if
each topic of which something was known in some pass is registered once, and the same is known
of it in the last pass as was when it was first known. -/
theorem rightlyJudged_iff (topics : List String) (maxExceedingFactor : ℚ)
    (nodesSpecs : NodesSpecs) (calls : List Call) : ∃ monitor,
      (monitorSystem (.register topics) maxExceedingFactor nodesSpecs).run calls = some monitor ∧
      (RightlyJudged (.register topics) maxExceedingFactor nodesSpecs (passes calls) monitor ↔
        ∀ topic desired,
          (PeriodicAppPlugin.register topics).learnt nodesSpecs (passes calls) topic =
            some desired →
          RegisteredOnce topics topic ∧
            (PeriodicAppPlugin.register topics).latest nodesSpecs (passes calls) topic =
              some desired) := by
  obtain ⟨monitor, replayed, tracks⟩ :=
    (Tracks.new (.register topics) maxExceedingFactor nodesSpecs).runFrom calls
  refine ⟨monitor, replayed, ?_⟩
  rw [List.nil_append] at tracks
  have pointwise := fun topic => judgedAgainst_latest_iff tracks topic
  simp only [PeriodicAppPlugin.topics_register] at pointwise
  constructor
  · rintro ⟨list, -, -, right⟩ topic
    refine (pointwise topic).mp fun i registered => (right i topic ?_).1
    rw [PeriodicAppPlugin.topics_register]
    exact registered
  · intro right
    obtain ⟨list, judged, length, verdict⟩ :=
      TopicMonitor.exists_checkDesiredFrequency tracks.length_le
    refine ⟨list, judged, ?_, ?_⟩
    · rw [length, ← tracks.names, List.length_map]
    · intro i topic registered
      obtain ⟨topicInfo, listed, named⟩ := tracks.exists_entry registered
      rw [PeriodicAppPlugin.topics_register] at registered
      have compared := (pointwise topic).mpr (right topic) i registered
      refine ⟨compared, topicInfo, listed, named, ?_⟩
      rw [verdict i topicInfo listed, compared, tracks.flagged.maxExceedingFactor]

/-- A driver with a nominal frequency of 100 Hz. -/
def driverSpecs : NodesSpecs := (∅ : NodesSpecs).insert "driver" 100

/-- Every 10 ms a message of the driver. -/
def driverSamples (_ : Nat) : Sample := ⟨10, 0, some ((∅ : TopicToWriter).insert "imu" "driver")⟩

/-- The topic is registered twice. It is measured at its nominal frequency, and yet one entry
raises an alarm, while the other is not checked. -/
theorem not_rightlyJudged_of_two_registrations : ∃ monitor,
    (monitorSystem (.register ["imu", "imu"]) (1 / 2) driverSpecs).run
      [.getInputTopicInfo driverSamples] = some monitor ∧
    monitor.inputTopicInfos.map InputTopicInfo.currentFreq = [100, 100] ∧
    monitor.checkDesiredFrequency = some [true, false] ∧
    ¬ RightlyJudged (.register ["imu", "imu"]) (1 / 2) driverSpecs [driverSamples] monitor := by
  have evaluated : ((monitorSystem (.register ["imu", "imu"]) (1 / 2) driverSpecs).run
      [.getInputTopicInfo driverSamples]).map (fun monitor =>
        (monitor.inputTopicInfos.map InputTopicInfo.currentFreq,
          monitor.checkDesiredFrequency, monitor.judgedAgainst 0)) =
      some ([100, 100], some [true, false], none) := by
    decide +kernel
  obtain ⟨monitor, replayed, shown⟩ := Option.map_eq_some_iff.mp evaluated
  obtain ⟨measured, shown⟩ := Prod.mk.inj shown
  obtain ⟨verdicts, compared⟩ := Prod.mk.inj shown
  refine ⟨monitor, replayed, measured, verdicts, ?_⟩
  rintro ⟨list, -, -, right⟩
  have known : (PeriodicAppPlugin.register ["imu", "imu"]).latest driverSpecs [driverSamples]
      "imu" = some 100 := by
    decide +kernel
  have judged := (right 0 "imu" (by decide +kernel)).1
  rw [compared, known] at judged
  cases judged

end Dls2.Plugin
