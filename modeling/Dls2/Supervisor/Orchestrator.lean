import Mathlib.Data.Int.Order.Basic
import Dls2.Lib.PriorityQueue
import Dls2.Lib.Transition

/-!
# The events of the orchestrator

`OrchestratorBase::run` pushes each batch of received events into a shared priority queue. The
telemetry thread copies that queue and takes the most important events out of the copy. Both
use the queue under a mutex, and each step here is one use of the mutex, one pushed or popped
event, or one call of the function that is handed the result.

The priority queue is that of the standard library, known by its laws. The type of time stamps
is declared outside of the repository; of it only the order is used.
-/

namespace Dls2.Supervisor

open Dls2.Transition

universe u v

/-- The message of an event, as it is received. -/
structure EventLog (Timestamp : Type u) where
  componentName : String
  eventId : UInt8
  severity : UInt8
  msg : String
  sequenceId : Nat
  timestamp : Timestamp
deriving DecidableEq, Repr

section CompareEvents

variable {Timestamp : Type u} [LT Timestamp] [DecidableLT Timestamp]

/-- `CompareEvents`; an enumerator is its value of type `uint8_t`. -/
def compareEvents (eventA eventB : EventLog Timestamp) : Bool :=
  if eventA.severity ≠ eventB.severity then eventA.severity < eventB.severity
  else if eventA.eventId ≠ eventB.eventId then eventA.eventId < eventB.eventId
  else eventA.timestamp < eventB.timestamp

/-- The first event comes out of the queue after the second. -/
def LessImportant (eventA eventB : EventLog Timestamp) : Prop :=
  compareEvents eventA eventB = true

instance decidableLessImportant :
    DecidableRel (LessImportant : EventLog Timestamp → EventLog Timestamp → Prop) :=
  fun eventA eventB => inferInstanceAs (Decidable (compareEvents eventA eventB = true))

instance severity_isStrictTotalOrder : IsStrictTotalOrder UInt8 (· < ·) where
  irrefl := UInt8.lt_irrefl
  trans _ _ _ := UInt8.lt_trans
  trichotomous _ _ notLess notGreater :=
    UInt8.le_antisymm (UInt8.not_lt.mp notGreater) (UInt8.not_lt.mp notLess)

theorem lessImportant_eq :
    (LessImportant : EventLog Timestamp → EventLog Timestamp → Prop) =
      ByKey EventLog.severity (ByKey EventLog.eventId
        fun eventA eventB => eventA.timestamp < eventB.timestamp) := by
  funext eventA eventB
  by_cases severity : eventA.severity = eventB.severity
  · by_cases eventId : eventA.eventId = eventB.eventId
    · simp [LessImportant, compareEvents, ByKey, severity, eventId]
    · simp [LessImportant, compareEvents, ByKey, severity, eventId]
  · simp [LessImportant, compareEvents, ByKey, severity]

instance lessImportant_isStrictWeakOrder [IsStrictWeakOrder Timestamp (· < ·)] :
    IsStrictWeakOrder (EventLog Timestamp) LessImportant := by
  have byTime : IsStrictWeakOrder (EventLog Timestamp)
      fun eventA eventB => eventA.timestamp < eventB.timestamp :=
    inferInstanceAs (IsStrictWeakOrder _ (Function.onFun (· < ·) EventLog.timestamp))
  rw [lessImportant_eq]
  infer_instance

end CompareEvents

variable {Event : Type u} {Queue : Type v}

inductive Thread where
  | run
  | telemetry
deriving DecidableEq, Repr

/-- Where a call of `run` is. -/
inductive RunPhase (Event : Type u) (Queue : Type v) where
  | idle
  /-- Under the lock; the events are still to be pushed. -/
  | pushing (eventsFifo : List Event)
  | orchestrating (eventsPriorityQueueTmp : Queue)

/-- Where the loop of `telemetryCallback` is. -/
inductive TelemetryPhase (Event : Type u) (Queue : Type v) where
  | waiting
  /-- Under the lock. -/
  | copying
  | collecting (eventsPriorityQueueTmp : Queue) (eventsToPublish : List Event) (eventCount : Nat)

structure OrchestratorBase (Event : Type u) (Queue : Type v) where
  eventsPriorityQueue : Queue
  eventMutex : Option Thread
  runPhase : RunPhase Event Queue
  telemetryPhase : TelemetryPhase Event Queue

/-- The steps of `run`. -/
inductive RunStep (Event : Type u) where
  | lock (eventsFifo : List Event)
  | push
  | unlock
  | orchestrate

/-- The steps of `telemetryCallback`. -/
inductive TelemetryStep where
  | lock
  | unlock
  | collect
  | telemetryMain
deriving DecidableEq, Repr

inductive Label (Event : Type u) where
  | run (step : RunStep Event)
  | telemetry (step : TelemetryStep)

namespace OrchestratorBase

variable (operations : PriorityQueue Event Queue)

def new : OrchestratorBase Event Queue := ⟨operations.empty, none, .idle, .waiting⟩

/-- `OrchestratorBase::run`, with the events that the listener returns. -/
def run (base : OrchestratorBase Event Queue) :
    RunStep Event → Option (OrchestratorBase Event Queue)
  | .lock eventsFifo =>
    match base.runPhase, base.eventMutex with
    | .idle, none => some { base with eventMutex := some .run, runPhase := .pushing eventsFifo }
    | _, _ => none
  | .push =>
    match base.runPhase with
    | .pushing (event :: rest) => some { base with
        eventsPriorityQueue := operations.push base.eventsPriorityQueue event
        runPhase := .pushing rest }
    | _ => none
  | .unlock =>
    match base.runPhase with
    | .pushing [] => some { base with
        eventMutex := none
        runPhase := .orchestrating base.eventsPriorityQueue }
    | _ => none
  | .orchestrate =>
    match base.runPhase with
    | .orchestrating _ => some { base with runPhase := .idle }
    | _ => none

/-- The loop of `telemetryCallback` goes on. -/
def collects (eventToPublish : Nat) (eventsPriorityQueueTmp : Queue) (eventCount : Nat) : Bool :=
  !operations.isEmpty eventsPriorityQueueTmp && eventCount < eventToPublish

/-- `OrchestratorBase::telemetryCallback`. -/
def telemetryCallback (eventToPublish : Nat) (base : OrchestratorBase Event Queue) :
    TelemetryStep → Option (OrchestratorBase Event Queue)
  | .lock =>
    match base.telemetryPhase, base.eventMutex with
    | .waiting, none => some { base with
        eventMutex := some .telemetry
        telemetryPhase := .copying }
    | _, _ => none
  | .unlock =>
    match base.telemetryPhase with
    | .copying => some { base with
        eventMutex := none
        telemetryPhase := .collecting base.eventsPriorityQueue [] 0 }
    | _ => none
  | .collect =>
    match base.telemetryPhase with
    | .collecting tmp eventsToPublish eventCount =>
      if collects operations eventToPublish tmp eventCount then
        (operations.top tmp).map fun event => { base with
          telemetryPhase := .collecting (operations.pop tmp) (eventsToPublish ++ [event])
            (eventCount + 1) }
      else none
    | _ => none
  | .telemetryMain =>
    match base.telemetryPhase with
    | .collecting tmp _ eventCount =>
      if collects operations eventToPublish tmp eventCount then none
      else some { base with telemetryPhase := .waiting }
    | _ => none

end OrchestratorBase

/-- Both threads, each at its own pace. -/
def orchestratorSystem (operations : PriorityQueue Event Queue) (eventToPublish : Nat) :
    System (OrchestratorBase Event Queue) (Label Event) where
  initial := .new operations
  step
    | base, .run step => base.run operations step
    | base, .telemetry step => base.telemetryCallback operations eventToPublish step

/-- What has happened in a run: the batches that `run` has got, the events that it has pushed,
those that it had pushed when the telemetry thread last made a copy, and for each call of
`telemetryMain` those of its copy and those it was handed. -/
structure History (Event : Type u) where
  batches : List (List Event)
  pushed : List Event
  copied : List Event
  handed : List (List Event × List Event)

def RunPhase.pending : RunPhase Event Queue → List Event
  | .pushing eventsFifo => eventsFifo
  | _ => []

def TelemetryPhase.eventsToPublish : TelemetryPhase Event Queue → List Event
  | .collecting _ eventsToPublish _ => eventsToPublish
  | _ => []

namespace History

/-- What a step adds. -/
def record (base : OrchestratorBase Event Queue) (label : Label Event)
    (_ : OrchestratorBase Event Queue) (history : History Event) : History Event :=
  match label with
  | .run (.lock eventsFifo) => { history with batches := history.batches ++ [eventsFifo] }
  | .run .push => { history with
      pushed := history.pushed ++ base.runPhase.pending.head?.toList }
  | .telemetry .unlock => { history with copied := history.pushed }
  | .telemetry .telemetryMain => { history with
      handed := history.handed ++ [(history.copied, base.telemetryPhase.eventsToPublish)] }
  | _ => history

end History

abbrev Run (Event : Type u) (Queue : Type v) := OrchestratorBase Event Queue × History Event

def recordedSystem (operations : PriorityQueue Event Queue) (eventToPublish : Nat) :
    System (Run Event Queue) (Label Event) :=
  (orchestratorSystem operations eventToPublish).withHistory ⟨[], [], [], []⟩ History.record

/-- The steps that `run` can take, with their guards. -/
inductive Runs (operations : PriorityQueue Event Queue) (base : OrchestratorBase Event Queue) :
    RunStep Event → OrchestratorBase Event Queue → Prop where
  | lock (eventsFifo : List Event) (idle : base.runPhase = .idle)
      (free : base.eventMutex = none) : Runs operations base (.lock eventsFifo)
        { base with eventMutex := some .run, runPhase := .pushing eventsFifo }
  | push {event : Event} {rest : List Event} (pushing : base.runPhase = .pushing (event :: rest)) :
      Runs operations base .push { base with
        eventsPriorityQueue := operations.push base.eventsPriorityQueue event
        runPhase := .pushing rest }
  | unlock (pushed : base.runPhase = .pushing []) : Runs operations base .unlock { base with
      eventMutex := none
      runPhase := .orchestrating base.eventsPriorityQueue }
  | orchestrate {tmp : Queue} (orchestrating : base.runPhase = .orchestrating tmp) :
      Runs operations base .orchestrate { base with runPhase := .idle }

/-- The steps that `telemetryCallback` can take, with their guards. -/
inductive Ticks (operations : PriorityQueue Event Queue) (eventToPublish : Nat)
    (base : OrchestratorBase Event Queue) :
    TelemetryStep → OrchestratorBase Event Queue → Prop where
  | lock (waiting : base.telemetryPhase = .waiting) (free : base.eventMutex = none) :
      Ticks operations eventToPublish base .lock { base with
        eventMutex := some .telemetry
        telemetryPhase := .copying }
  | unlock (copying : base.telemetryPhase = .copying) :
      Ticks operations eventToPublish base .unlock { base with
        eventMutex := none
        telemetryPhase := .collecting base.eventsPriorityQueue [] 0 }
  | collect {tmp : Queue} {events : List Event} {eventCount : Nat} {event : Event}
      (collecting : base.telemetryPhase = .collecting tmp events eventCount)
      (nonempty : operations.isEmpty tmp = false) (below : eventCount < eventToPublish)
      (top : operations.top tmp = some event) :
      Ticks operations eventToPublish base .collect { base with
        telemetryPhase := .collecting (operations.pop tmp) (events ++ [event]) (eventCount + 1) }
  | telemetryMain {tmp : Queue} {events : List Event} {eventCount : Nat}
      (collecting : base.telemetryPhase = .collecting tmp events eventCount)
      (ended : operations.isEmpty tmp = true ∨ eventToPublish ≤ eventCount) :
      Ticks operations eventToPublish base .telemetryMain { base with telemetryPhase := .waiting }

section Steps

variable {operations : PriorityQueue Event Queue} {eventToPublish : Nat}
  {base next : OrchestratorBase Event Queue}

theorem runs_of_run {step : RunStep Event} (taken : base.run operations step = some next) :
    Runs operations base step next := by
  cases step with
  | lock eventsFifo =>
    simp only [OrchestratorBase.run] at taken
    split at taken
    · obtain rfl := Option.some.inj taken
      exact .lock eventsFifo ‹_› ‹_›
    · cases taken
  | push =>
    simp only [OrchestratorBase.run] at taken
    split at taken
    · obtain rfl := Option.some.inj taken
      exact .push ‹_›
    · cases taken
  | unlock =>
    simp only [OrchestratorBase.run] at taken
    split at taken
    · obtain rfl := Option.some.inj taken
      exact .unlock ‹_›
    · cases taken
  | orchestrate =>
    simp only [OrchestratorBase.run] at taken
    split at taken
    · obtain rfl := Option.some.inj taken
      exact .orchestrate ‹_›
    · cases taken

theorem collects_iff {tmp : Queue} {eventCount : Nat} :
    OrchestratorBase.collects operations eventToPublish tmp eventCount = true ↔
      operations.isEmpty tmp = false ∧ eventCount < eventToPublish := by
  simp [OrchestratorBase.collects]

theorem ticks_iff {step : TelemetryStep} :
    base.telemetryCallback operations eventToPublish step = some next ↔
      Ticks operations eventToPublish base step next := by
  constructor
  · intro taken
    cases step with
    | lock =>
      simp only [OrchestratorBase.telemetryCallback] at taken
      split at taken
      · obtain rfl := Option.some.inj taken
        exact .lock ‹_› ‹_›
      · cases taken
    | unlock =>
      simp only [OrchestratorBase.telemetryCallback] at taken
      split at taken
      · obtain rfl := Option.some.inj taken
        exact .unlock ‹_›
      · cases taken
    | collect =>
      simp only [OrchestratorBase.telemetryCallback] at taken
      split at taken
      · split at taken
        · obtain ⟨nonempty, below⟩ := collects_iff.mp ‹_›
          obtain ⟨event, top, rfl⟩ := Option.map_eq_some_iff.mp taken
          exact .collect ‹_› nonempty below top
        · cases taken
      · cases taken
    | telemetryMain =>
      simp only [OrchestratorBase.telemetryCallback] at taken
      split at taken
      · split at taken
        · cases taken
        · rename_i collecting stopped
          obtain rfl := Option.some.inj taken
          rw [collects_iff, not_and_or, Bool.not_eq_false, Nat.not_lt] at stopped
          exact .telemetryMain collecting stopped
      · cases taken
  · intro ticks
    cases ticks with
    | lock waiting free => simp [OrchestratorBase.telemetryCallback, waiting, free]
    | unlock copying => simp [OrchestratorBase.telemetryCallback, copying]
    | collect collecting nonempty below top =>
      have continues := collects_iff.mpr ⟨nonempty, below⟩
      simp [OrchestratorBase.telemetryCallback, collecting, continues, top]
    | @telemetryMain tmp events eventCount collecting ended =>
      have stops : ¬ OrchestratorBase.collects operations eventToPublish tmp eventCount := by
        rw [collects_iff, not_and_or, Bool.not_eq_false, Nat.not_lt]
        exact ended
      simp [OrchestratorBase.telemetryCallback, collecting, stops]

/-- The telemetry thread only reads the queue. -/
theorem Ticks.eventsPriorityQueue_eq {step : TelemetryStep}
    (ticks : Ticks operations eventToPublish base step next) :
    next.eventsPriorityQueue = base.eventsPriorityQueue := by
  cases ticks <;> rfl

end Steps

/-- The events of the first batches, none of which is torn. -/
def History.Whole (history : History Event) (seen : List Event) : Prop :=
  ∃ before, before <+: history.batches ∧ seen = before.flatten

/-- What is kept by the steps of both threads. -/
structure Kept (less : Event → Event → Prop) (contents : Queue → Multiset Event)
    (eventToPublish : Nat) (base : OrchestratorBase Event Queue) (history : History Event) :
    Prop where
  runHolds : ∀ eventsFifo, base.runPhase = .pushing eventsFifo → base.eventMutex = some .run
  telemetryHolds : base.telemetryPhase = .copying → base.eventMutex = some .telemetry
  content : contents base.eventsPriorityQueue = history.pushed
  batches : history.pushed ++ base.runPhase.pending = history.batches.flatten
  copied : history.Whole history.copied
  orchestrating : ∀ tmp, base.runPhase = .orchestrating tmp → contents tmp = history.pushed
  collecting : ∀ tmp events eventCount,
    base.telemetryPhase = .collecting tmp events eventCount →
      PriorityQueue.Extracted less history.copied events (contents tmp) ∧
        eventCount = events.length ∧ eventCount ≤ eventToPublish
  handed : ∀ seen events, (seen, events) ∈ history.handed →
    history.Whole seen ∧ PriorityQueue.Greatest less eventToPublish seen events

namespace Kept

variable {operations : PriorityQueue Event Queue} {less : Event → Event → Prop}
  {contents : Queue → Multiset Event} {eventToPublish : Nat}
  {base next : OrchestratorBase Event Queue} {history : History Event}

theorem new (lawful : operations.Lawful less contents) :
    Kept less contents eventToPublish (.new operations) ⟨[], [], [], []⟩ where
  runHolds _ pushing := by cases pushing
  telemetryHolds copying := by cases copying
  content := lawful.contents_empty
  batches := rfl
  copied := ⟨[], List.nil_prefix, rfl⟩
  orchestrating _ orchestrating := by cases orchestrating
  collecting _ _ _ collecting := by cases collecting
  handed _ _ member := by cases member

/-- Later batches do not tear earlier ones. -/
theorem whole_mono {longer : History Event} (prior : history.batches <+: longer.batches)
    {seen : List Event} (whole : history.Whole seen) : longer.Whole seen := by
  obtain ⟨before, ahead, rfl⟩ := whole
  exact ⟨before, ahead.trans prior, rfl⟩

theorem run (lawful : operations.Lawful less contents)
    (kept : Kept less contents eventToPublish base history) {step : RunStep Event}
    (runs : Runs operations base step next) :
    Kept less contents eventToPublish next (history.record base (.run step) next) := by
  cases runs with
  | lock eventsFifo idle free =>
    have longer : history.batches <+: history.batches ++ [eventsFifo] := List.prefix_append _ _
    have nothing := kept.batches
    rw [idle] at nothing
    exact { kept with
      runHolds _ _ := rfl
      telemetryHolds copying := by
        rw [kept.telemetryHolds copying] at free
        cases free
      batches := by
        simpa [History.record, RunPhase.pending] using nothing
      copied := whole_mono longer kept.copied
      orchestrating _ orchestrating := by cases orchestrating
      handed seen events member := by
        obtain ⟨whole, greatest⟩ := kept.handed seen events member
        exact ⟨whole_mono longer whole, greatest⟩ }
  | @push event rest pushing =>
    have held := kept.runHolds _ pushing
    have appended := kept.batches
    rw [pushing] at appended
    have pushed : ∀ next, (history.record base (.run .push) next).pushed =
        history.pushed ++ [event] := by
      intro next
      simp [History.record, pushing, RunPhase.pending]
    exact { kept with
      runHolds _ _ := held
      content := by
        rw [lawful.contents_push, kept.content, pushed]
        exact Multiset.coe_eq_coe.mpr (List.perm_append_singleton event history.pushed).symm
      batches := by
        rw [pushed, List.append_assoc]
        exact appended
      orchestrating _ orchestrating := by cases orchestrating }
  | unlock pushed =>
    have held := kept.runHolds _ pushed
    have complete := kept.batches
    rw [pushed] at complete
    exact { kept with
      runHolds _ pushing := by cases pushing
      telemetryHolds copying := by
        rw [kept.telemetryHolds copying] at held
        cases held
      batches := complete
      orchestrating tmp orchestrating := by
        obtain rfl := RunPhase.orchestrating.inj orchestrating
        exact kept.content }
  | orchestrate orchestrating =>
    have complete := kept.batches
    rw [orchestrating] at complete
    exact { kept with
      runHolds _ pushing := by cases pushing
      batches := complete
      orchestrating _ orchestrating := by cases orchestrating }

theorem telemetry (lawful : operations.Lawful less contents)
    (kept : Kept less contents eventToPublish base history) {step : TelemetryStep}
    (ticks : Ticks operations eventToPublish base step next) :
    Kept less contents eventToPublish next (history.record base (.telemetry step) next) := by
  cases ticks with
  | lock waiting free =>
    exact { kept with
      runHolds eventsFifo pushing := by
        rw [kept.runHolds eventsFifo pushing] at free
        cases free
      telemetryHolds _ := rfl
      collecting _ _ _ collecting := by cases collecting }
  | unlock copying =>
    have held := kept.telemetryHolds copying
    -- the other thread is not under the lock, so that it has pushed all that it has got
    have nothing : base.runPhase.pending = [] := by
      cases phase : base.runPhase with
      | idle => rfl
      | pushing eventsFifo =>
        rw [kept.runHolds eventsFifo phase] at held
        cases held
      | orchestrating tmp => rfl
    have complete := kept.batches
    rw [nothing, List.append_nil] at complete
    exact { kept with
      runHolds eventsFifo pushing := by
        rw [kept.runHolds eventsFifo pushing] at held
        cases held
      telemetryHolds copying := by cases copying
      copied := ⟨history.batches, List.prefix_refl _, complete⟩
      collecting _ _ _ collecting := by
        obtain ⟨rfl, rfl, rfl⟩ := TelemetryPhase.collecting.inj collecting
        rw [kept.content]
        exact ⟨.start, rfl, Nat.zero_le _⟩ }
  | @collect tmp events eventCount event collecting nonempty below top =>
    obtain ⟨extracted, counted, -⟩ := kept.collecting tmp events eventCount collecting
    obtain ⟨entry, first, split, greatest⟩ := lawful.exists_top nonempty
    obtain rfl := Option.some.inj (top.symm.trans first)
    exact { kept with
      telemetryHolds copying := by cases copying
      collecting _ _ _ collecting := by
        obtain ⟨rfl, rfl, rfl⟩ := TelemetryPhase.collecting.inj collecting
        exact ⟨extracted.pop split greatest, by simp [counted], below⟩ }
  | @telemetryMain tmp events eventCount collecting ended =>
    obtain ⟨extracted, counted, bounded⟩ := kept.collecting tmp events eventCount collecting
    have last : contents tmp = 0 ∨ eventToPublish ≤ events.length := by
      rw [← lawful.isEmpty_iff, ← counted]
      exact ended
    have greatest := extracted.toGreatest (counted ▸ bounded) last
    exact { kept with
      telemetryHolds copying := by cases copying
      collecting _ _ _ collecting := by cases collecting
      handed seen taken member := by
        rcases List.mem_append.mp member with before | now
        · exact kept.handed seen taken before
        · obtain ⟨rfl, rfl⟩ := Prod.mk.inj (List.mem_singleton.mp now)
          rw [collecting]
          exact ⟨kept.copied, greatest⟩ }

end Kept

def Label.OfTelemetry (label : Label Event) : Prop := ∃ step, label = .telemetry step

/-- One more list has been handed over, with `seen` pushed before its copy; the queue is as it
was. -/
def HandsOver (queue : Queue) (handed : List (List Event × List Event)) (seen : List Event)
    (later : Run Event Queue) : Prop :=
  later.1.eventsPriorityQueue = queue ∧ ∃ events, later.2.handed = handed ++ [(seen, events)]

section Runs

open System

variable {operations : PriorityQueue Event Queue} {less : Event → Event → Prop}
  {contents : Queue → Multiset Event} {eventToPublish : Nat} {run next : Run Event Queue}

theorem step_telemetry_iff {step : TelemetryStep} :
    (recordedSystem operations eventToPublish).step run (.telemetry step) = some next ↔
      Ticks operations eventToPublish run.1 step next.1 ∧
        next.2 = run.2.record run.1 (.telemetry step) next.1 :=
  withHistory_step_iff.trans (and_congr_left' ticks_iff)

theorem kept_of_reachable (lawful : operations.Lawful less contents)
    (reachable : (recordedSystem operations eventToPublish).Reachable run) :
    Kept less contents eventToPublish run.1 run.2 := by
  refine reachable.invariant (fun run => Kept less contents eventToPublish run.1 run.2)
    (.new lawful) ?_
  intro run label next kept _ taken
  obtain ⟨taken, recorded⟩ := withHistory_step_iff.mp taken
  rw [recorded]
  cases label with
  | run step => exact kept.run lawful (runs_of_run taken)
  | telemetry step => exact kept.telemetry lawful (ticks_iff.mp taken)

/-- `orchestrate` is handed what the shared queue holds, also while events come in. -/
theorem contents_orchestrated (lawful : operations.Lawful less contents)
    {base : OrchestratorBase Event Queue} {tmp : Queue}
    (reachable : (orchestratorSystem operations eventToPublish).Reachable base)
    (orchestrating : base.runPhase = .orchestrating tmp) :
    contents tmp = contents base.eventsPriorityQueue := by
  obtain ⟨history, recorded⟩ := reachable.recorded
  have kept := kept_of_reachable lawful recorded
  rw [kept.orchestrating tmp orchestrating, kept.content]

theorem leadsTo_of_ticks {goal : Run Event Queue → Prop} {step : TelemetryStep}
    {base : OrchestratorBase Event Queue}
    (ticks : Ticks operations eventToPublish run.1 step base)
    (later : (recordedSystem operations eventToPublish).LeadsTo Label.OfTelemetry goal
      (base, run.2.record run.1 (.telemetry step) base)) :
    (recordedSystem operations eventToPublish).LeadsTo Label.OfTelemetry goal run :=
  .step _ ⟨step, rfl⟩ (step_telemetry_iff.mpr ⟨ticks, rfl⟩) later

/-- Once it has its copy, the telemetry thread needs nobody to get to `telemetryMain`. -/
theorem leadsTo_handsOver (lawful : operations.Lawful less contents) {tmp queue : Queue}
    {events seen : List Event} {handed : List (List Event × List Event)} {eventCount : Nat}
    (collecting : run.1.telemetryPhase = .collecting tmp events eventCount)
    (shared : run.1.eventsPriorityQueue = queue) (before : run.2.handed = handed)
    (copied : run.2.copied = seen) :
    (recordedSystem operations eventToPublish).LeadsTo Label.OfTelemetry
      (HandsOver queue handed seen) run := by
  obtain ⟨missing, counted⟩ : ∃ missing, missing = eventToPublish - eventCount := ⟨_, rfl⟩
  induction missing generalizing run tmp events eventCount with
  | zero =>
    have enough : eventToPublish ≤ eventCount := Nat.le_of_sub_eq_zero counted.symm
    refine leadsTo_of_ticks (.telemetryMain collecting (.inr enough)) (.here ⟨shared, events, ?_⟩)
    simp [History.record, collecting, TelemetryPhase.eventsToPublish, before, copied]
  | succ missing ih =>
    cases nonempty : operations.isEmpty tmp with
    | true =>
      refine leadsTo_of_ticks (.telemetryMain collecting (.inl nonempty))
        (.here ⟨shared, events, ?_⟩)
      simp [History.record, collecting, TelemetryPhase.eventsToPublish, before, copied]
    | false =>
      obtain ⟨event, top, -⟩ := lawful.exists_top nonempty
      have below : eventCount < eventToPublish := by omega
      have fewer : missing = eventToPublish - (eventCount + 1) := by omega
      exact leadsTo_of_ticks (.collect collecting nonempty below top)
        (ih rfl shared before copied fewer)

/-- A tick while `run` does not hold the mutex hands over what there is then. -/
theorem leadsTo_tick (lawful : operations.Lawful less contents)
    (waiting : run.1.telemetryPhase = .waiting) (free : run.1.eventMutex = none) :
    (recordedSystem operations eventToPublish).LeadsTo Label.OfTelemetry
      (HandsOver run.1.eventsPriorityQueue run.2.handed run.2.pushed) run := by
  refine leadsTo_of_ticks (.lock waiting free) (leadsTo_of_ticks (.unlock rfl) ?_)
  exact leadsTo_handsOver lawful rfl rfl rfl rfl

end Runs

section Telemetry

variable {Timestamp : Type u} [LT Timestamp] [DecidableLT Timestamp]

/-- In every run the shared queue holds what has been pushed, each list handed to
`telemetryMain` has the most important events of those pushed before its copy, in their order,
and the telemetry thread, which changes nothing in the queue, gets to hand over its list. -/
theorem telemetryMain_greatest [IsStrictWeakOrder Timestamp (· < ·)]
    {operations : PriorityQueue (EventLog Timestamp) Queue}
    {contents : Queue → Multiset (EventLog Timestamp)}
    (correct : IsStrictWeakOrder (EventLog Timestamp) LessImportant →
      operations.Lawful LessImportant contents)
    {eventToPublish : Nat} {run : Run (EventLog Timestamp) Queue}
    (reachable : (recordedSystem operations eventToPublish).Reachable run) :
    contents run.1.eventsPriorityQueue = run.2.pushed ∧
      run.2.pushed ++ run.1.runPhase.pending = run.2.batches.flatten ∧
      (∀ seen events, (seen, events) ∈ run.2.handed → run.2.Whole seen ∧
        PriorityQueue.Greatest LessImportant eventToPublish seen events) ∧
      (∀ step next, run.1.telemetryCallback operations eventToPublish step = some next →
        next.eventsPriorityQueue = run.1.eventsPriorityQueue) ∧
      (run.1.telemetryPhase = .waiting → run.1.eventMutex = none →
        (recordedSystem operations eventToPublish).LeadsTo Label.OfTelemetry
          (HandsOver run.1.eventsPriorityQueue run.2.handed run.2.pushed) run) := by
  have lawful := correct lessImportant_isStrictWeakOrder
  have kept := kept_of_reachable lawful reachable
  refine ⟨kept.content, kept.batches, kept.handed, ?_, leadsTo_tick lawful⟩
  intro step next taken
  exact (ticks_iff.mp taken).eventsPriorityQueue_eq

/-- A driver reports two events, and then another two; each time the telemetry thread takes
one out. -/
def twoBatches : List (Label (EventLog Int)) :=
  let batch (events : List (EventLog Int)) : List (Label (EventLog Int)) :=
    [.run (.lock events), .run .push, .run .push, .run .unlock, .run .orchestrate]
  let tick : List (Label (EventLog Int)) :=
    [.telemetry .lock, .telemetry .unlock, .telemetry .collect, .telemetry .telemetryMain]
  batch [⟨"driver", 5, 1, "", 1, 10⟩, ⟨"driver", 5, 1, "", 2, 20⟩] ++ tick ++
    batch [⟨"driver", 24, 0, "", 3, 30⟩, ⟨"driver", 2, 3, "", 4, 40⟩] ++ tick

theorem telemetryMain_greatest_twoBatches :
    ∃ run : Run (EventLog Int) (PriorityQueue.Descending (@LessImportant Int _ _)),
      run.2.handed.map Prod.snd = [[⟨"driver", 5, 1, "", 2, 20⟩], [⟨"driver", 2, 3, "", 4, 40⟩]] ∧
      ∀ seen events, (seen, events) ∈ run.2.handed →
        PriorityQueue.Greatest LessImportant 1 seen events := by
  have replayed :
      ((recordedSystem (PriorityQueue.Descending.operations (@LessImportant Int _ _)) 1).run
        twoBatches).any (fun run => run.2.handed.map Prod.snd =
          [[⟨"driver", 5, 1, "", 2, 20⟩], [⟨"driver", 2, 3, "", 4, 40⟩]]) = true := by
    decide
  obtain ⟨run, reachable, shown⟩ := System.exists_reachable_of_run replayed
  have facts := telemetryMain_greatest (fun _ => PriorityQueue.Descending.lawful) reachable
  refine ⟨run, of_decide_eq_true shown, ?_⟩
  intro seen events member
  exact (facts.2.2.1 seen events member).2

end Telemetry

end Dls2.Supervisor
