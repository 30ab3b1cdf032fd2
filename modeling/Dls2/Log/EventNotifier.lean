import Dls2.Lib.Assoc

/-!
# Publishing events

`EventNotifier` fills in one message after the other and hands it to a writer.
`RobustEventNotifier` puts a filter in front: an event is dropped when one of the
same type was published less than a threshold earlier, whatever its message says.

Clock readings are nanoseconds. The comparison with the threshold, which the source
makes in floating point, is exact here: a threshold stands for the number it is written
as, from which the `double` is at most half a last digit away.
-/

namespace Dls2.Log

inductive EventID where
  | processDied
  | wrongProcessState
  | wrongProcessFrequency
  | missingInput
  | cpuUsageTooHigh
  | memUsageTooHigh
  | inputsNotSynchronized
  | wrongInputFrequency
  | wrongSequenceId
  | jointPosOutOfBound
  | jointVelOutOfBound
  | jointAccOutOfBound
  | jointTorqueOutOfBound
  | jointCurrentOutOfBound
  | reachedKinematicSingularity
  | detectedAutocollision
  | nanValue
  | infValue
  | motorOverheat
  | motorUnderTemperature
  | tooHighValue
  | batteryChargeLow
  | emergencyStopPressed
  | fungoPressed
  | nominalOperation
  | generalWarning
  | generalError
  | safetyStateNotNominal
  | jointPosClampingAnomaly
  | jointVelClampingAnomaly
  | jointTorqueClampingAnomaly
  | virtualEndstopEnforcing
  | motorFault
  | motorNotOperational
  | nodesNotDiscovered
  | nodesDetached
deriving DecidableEq, Repr

inductive EventSeverity where
  | info
  | warning
  | error
  | fatal
deriving DecidableEq, Repr

/-- The message of an event. -/
structure EventLog where
  componentName : String
  eventId : EventID
  severity : EventSeverity
  msg : String
  sequenceId : Nat
  timestamp : Int
deriving DecidableEq, Repr

/-- What the two clocks show when `notify` reads them. -/
structure ClockReading where
  steady : Int
  highResolution : Int
deriving DecidableEq, Repr

/-- The message that is filled in again for every event. -/
structure EventNotifier where
  msg : EventLog

namespace EventNotifier

/-- The event id, severity and text are those of a default message until the first
event is sent. -/
def new (name : String) : EventNotifier where
  msg := ⟨name, .processDied, .info, "", 0, 0⟩

/-- `EventNotifier::notify`; the message it leaves is the one it sends. -/
def notify (notifier : EventNotifier) (eventId : EventID) (severity : EventSeverity)
    (message : String) (timestamp : Int) : EventNotifier where
  msg := { notifier.msg with
    eventId := eventId
    severity := severity
    msg := message
    sequenceId := notifier.msg.sequenceId + 1
    timestamp := timestamp }

end EventNotifier

/-- `toMs`. -/
def toMs (nanoseconds : Int) : Rat := nanoseconds / 1000000

/-- The filter. `published` records every message sent, with the reading of the
steady clock that belongs to it. -/
structure RobustEventNotifier where
  notifier : EventNotifier
  lastEventPubTime : Assoc.Map EventID Int
  spammingThresholdMs : Rat
  published : List (Int × EventLog)

namespace RobustEventNotifier

/-- The default argument of the constructor. -/
def defaultSpammingThreshold : Rat := 250

def new (name : String) (spammingThreshold : Rat) : RobustEventNotifier where
  notifier := .new name
  lastEventPubTime := ∅
  spammingThresholdMs := spammingThreshold
  published := []

def setSpammingThreshold (robust : RobustEventNotifier) (spammingThreshold : Rat) :
    RobustEventNotifier :=
  { robust with spammingThresholdMs := spammingThreshold }

/-- The test of the filter. -/
def publishes (robust : RobustEventNotifier) (eventId : EventID) (now : Int) : Bool :=
  match robust.lastEventPubTime.lookup eventId with
  | none => true
  | some last => !decide (toMs (now - last) < robust.spammingThresholdMs)

/-- `RobustEventNotifier::notify`. -/
def notify (robust : RobustEventNotifier) (eventId : EventID) (severity : EventSeverity)
    (message : String) (reading : ClockReading) : RobustEventNotifier :=
  if robust.publishes eventId reading.steady then
    let notifier := robust.notifier.notify eventId severity message reading.highResolution
    { robust with
      notifier := notifier
      lastEventPubTime := robust.lastEventPubTime.insert eventId reading.steady
      published := robust.published ++ [(reading.steady, notifier.msg)] }
  else robust

/-- Every time in the filter's table is the time of a message sent. -/
def Recorded (robust : RobustEventNotifier) : Prop :=
  ∀ eventId last, robust.lastEventPubTime.lookup eventId = some last →
    ∃ message, (last, message) ∈ robust.published ∧ message.eventId = eventId

theorem recorded_new (name : String) (threshold : Rat) : Recorded (.new name threshold) := by
  intro eventId last entry
  simp [new] at entry

theorem Recorded.setSpammingThreshold {robust : RobustEventNotifier} (recorded : Recorded robust)
    (threshold : Rat) : Recorded (robust.setSpammingThreshold threshold) := recorded

/-- Sending a message records its time. -/
theorem Recorded.notify {robust : RobustEventNotifier} (recorded : Recorded robust)
    (eventId : EventID) (severity : EventSeverity) (message : String) (reading : ClockReading) :
    Recorded (robust.notify eventId severity message reading) := by
  unfold RobustEventNotifier.notify
  split
  · intro other last entry
    by_cases same : other = eventId
    · subst same
      obtain rfl : reading.steady = last := by simpa using entry
      exact ⟨_, List.mem_append_right _ (List.mem_singleton_self _), rfl⟩
    · rw [AList.lookup_insert_ne same] at entry
      obtain ⟨sent, among, named⟩ := recorded other last entry
      exact ⟨sent, List.mem_append_left _ among, named⟩
  · exact recorded

/-- The anti-spam filter as a specification: an event is published, or one of its
type was published less than the threshold earlier. -/
theorem Recorded.published_or_recent {robust : RobustEventNotifier} (recorded : Recorded robust)
    (eventId : EventID) (severity : EventSeverity) (message : String) (reading : ClockReading) :
    (∃ sent : EventLog, sent.eventId = eventId ∧ sent.severity = severity ∧ sent.msg = message ∧
      (robust.notify eventId severity message reading).published =
        robust.published ++ [(reading.steady, sent)]) ∨
    ∃ earlier ∈ robust.published, earlier.2.eventId = eventId ∧
      toMs (reading.steady - earlier.1) < robust.spammingThresholdMs := by
  by_cases passes : robust.publishes eventId reading.steady = true
  · left
    unfold RobustEventNotifier.notify
    rw [if_pos passes]
    exact ⟨_, rfl, rfl, rfl, rfl⟩
  · right
    unfold publishes at passes
    split at passes
    · exact absurd rfl passes
    · rename_i last entry
      obtain ⟨sent, among, named⟩ := recorded eventId last entry
      exact ⟨(last, sent), among, named, by simpa using passes⟩

end RobustEventNotifier

end Dls2.Log
