import Mathlib.Algebra.Order.Field.Basic
import Mathlib.Algebra.Order.Ring.Rat
import Mathlib.Data.Rat.Cast.Order
import Mathlib.Tactic.Positivity
import Dls2.Lib.Throttle
import Dls2.Log.EventNotifier

/-!
# The anti-spam filter over many calls

A `RobustEventNotifier` compares a call with the last event of the same type that it has
published, not with the last one it was asked to publish. Over a run it is one throttle for
each type.
-/

namespace Dls2.Log

open Dls2.Throttle

/-- A call of `notify`, and what the clocks show then. -/
structure NotifyCall where
  eventId : EventID
  severity : EventSeverity
  message : String
  reading : ClockReading
deriving DecidableEq, Repr

namespace NotifyCall

def time (call : NotifyCall) : Rat := toMs call.reading.steady

/-- The calls for one type of event. -/
def about (eventId : EventID) (calls : List NotifyCall) : List NotifyCall :=
  calls.filter fun call => call.eventId = eventId

/-- What a call looks like once it is published. -/
def shown (call : NotifyCall) : Int × EventSeverity × String :=
  (call.reading.steady, call.severity, call.message)

end NotifyCall

theorem toMs_sub (now last : Int) : toMs (now - last) = toMs now - toMs last := by
  simp [toMs, sub_div]

theorem toMs_mono {now later : Int} (ordered : now ≤ later) : toMs now ≤ toMs later := by
  unfold toMs
  gcongr

namespace RobustEventNotifier

open NotifyCall

/-- A notifier after some calls. -/
def run (name : String) (threshold : Rat) (calls : List NotifyCall) : RobustEventNotifier :=
  calls.foldl (fun robust call =>
    robust.notify call.eventId call.severity call.message call.reading) (.new name threshold)

theorem run_concat (name : String) (threshold : Rat) (calls : List NotifyCall)
    (call : NotifyCall) : run name threshold (calls ++ [call]) =
      (run name threshold calls).notify call.eventId call.severity call.message call.reading :=
  List.foldl_concat ..

/-- The published events of one type, without what counts events of all types. -/
def publishedOf (robust : RobustEventNotifier) (eventId : EventID) :
    List (Int × EventSeverity × String) :=
  (robust.published.filter fun sent => sent.2.eventId = eventId).map
    fun sent => (sent.1, sent.2.severity, sent.2.msg)

/-- The calls that a throttle for the type keeps. -/
def survivors (threshold : Rat) (eventId : EventID) (calls : List NotifyCall) :
    List NotifyCall :=
  kept NotifyCall.time threshold none (about eventId calls)

/-- The filter is one throttle for each type. -/
structure Throttled (threshold : Rat) (calls : List NotifyCall) (robust : RobustEventNotifier) :
    Prop where
  configured : robust.spammingThresholdMs = threshold
  table : ∀ eventId, (robust.lastEventPubTime.lookup eventId).map toMs =
    lastKept NotifyCall.time threshold none (about eventId calls)
  published : ∀ eventId, robust.publishedOf eventId =
    (survivors threshold eventId calls).map NotifyCall.shown

namespace Throttled

variable {threshold : Rat} {calls : List NotifyCall} {robust : RobustEventNotifier}

theorem new (name : String) (threshold : Rat) : Throttled threshold [] (.new name threshold) :=
  ⟨rfl, fun _ => rfl, fun _ => rfl⟩

/-- The test of the filter is that of the throttle. -/
theorem publishes_iff (throttled : Throttled threshold calls robust) (eventId : EventID)
    (now : Int) : robust.publishes eventId now = true ↔
      Admits threshold (lastKept NotifyCall.time threshold none (about eventId calls))
        (toMs now) := by
  rw [← throttled.table eventId]
  unfold publishes Admits
  cases robust.lastEventPubTime.lookup eventId with
  | none => simp
  | some last => simp [toMs_sub, throttled.configured]

theorem about_concat_self (calls : List NotifyCall) (call : NotifyCall) :
    about call.eventId (calls ++ [call]) = about call.eventId calls ++ [call] := by
  simp [about]

/-- A call for another type. -/
theorem about_concat_ne {eventId : EventID} {call : NotifyCall} (other : call.eventId ≠ eventId)
    (calls : List NotifyCall) : about eventId (calls ++ [call]) = about eventId calls := by
  simp [about, other]

theorem notify (throttled : Throttled threshold calls robust) (call : NotifyCall) :
    Throttled threshold (calls ++ [call])
      (robust.notify call.eventId call.severity call.message call.reading) := by
  have test : robust.publishes call.eventId call.reading.steady = true ↔ Admits threshold
      (lastKept NotifyCall.time threshold none (about call.eventId calls)) call.time :=
    throttled.publishes_iff call.eventId call.reading.steady
  unfold RobustEventNotifier.notify
  by_cases passes : robust.publishes call.eventId call.reading.steady = true
  · obtain ⟨survives, latest⟩ := kept_concat_of_admits (test.mp passes)
    rw [if_pos passes]
    refine ⟨throttled.configured, fun eventId => ?_, fun eventId => ?_⟩
    · by_cases same : call.eventId = eventId
      · subst same
        rw [about_concat_self, latest, AList.lookup_insert]
        rfl
      · rw [about_concat_ne same, AList.lookup_insert_ne (Ne.symm same)]
        exact throttled.table eventId
    · have before := throttled.published eventId
      unfold publishedOf at before ⊢
      rw [List.filter_append, List.map_append, before]
      by_cases same : call.eventId = eventId
      · subst same
        rw [survivors, survivors, about_concat_self, survives, List.map_append]
        simp [EventNotifier.notify, NotifyCall.shown]
      · rw [survivors, survivors, about_concat_ne same]
        simp [EventNotifier.notify, same]
  · obtain ⟨survives, latest⟩ := kept_concat_of_not_admits
      fun admits => passes (test.mpr admits)
    rw [if_neg passes]
    refine ⟨throttled.configured, fun eventId => ?_, fun eventId => ?_⟩
    · rw [throttled.table eventId]
      by_cases same : call.eventId = eventId
      · subst same
        rw [about_concat_self, latest]
      · rw [about_concat_ne same]
    · rw [throttled.published eventId]
      by_cases same : call.eventId = eventId
      · subst same
        rw [survivors, survivors, about_concat_self, survives]
      · rw [survivors, survivors, about_concat_ne same]

theorem run (name : String) (threshold : Rat) (calls : List NotifyCall) :
    Throttled threshold calls (run name threshold calls) := by
  induction calls using List.reverseRecOn with
  | nil => exact new name threshold
  | append_singleton calls call ih =>
    rw [run_concat]
    exact ih.notify call

/-- The times at which events of the type were published. -/
theorem times (throttled : Throttled threshold calls robust) (eventId : EventID) :
    (robust.published.filter fun sent => sent.2.eventId = eventId).map Prod.fst =
      (survivors threshold eventId calls).map fun call => call.reading.steady := by
  have published := congrArg (List.map Prod.fst) (throttled.published eventId)
  rw [publishedOf, List.map_map, List.map_map] at published
  exact published

/-- A published event of the type is a call that survives. -/
theorem exists_published_iff (throttled : Throttled threshold calls robust) (eventId : EventID)
    (holds : Int → Prop) :
    (∃ sent ∈ robust.published, sent.2.eventId = eventId ∧ holds sent.1) ↔
      ∃ call ∈ survivors threshold eventId calls, holds call.reading.steady := by
  have same : ∀ now, now ∈ (robust.published.filter fun sent =>
      sent.2.eventId = eventId).map Prod.fst ↔ now ∈ (survivors threshold eventId calls).map
        fun call => call.reading.steady := by
    intro now
    rw [throttled.times]
  constructor
  · rintro ⟨sent, member, named, held⟩
    obtain ⟨call, survives, shownAt⟩ := List.mem_map.mp ((same sent.1).mp
      (List.mem_map.mpr ⟨sent, List.mem_filter.mpr ⟨member, by simpa using named⟩, rfl⟩))
    exact ⟨call, survives, shownAt ▸ held⟩
  · rintro ⟨call, survives, held⟩
    obtain ⟨sent, member, shownAt⟩ := List.mem_map.mp ((same call.reading.steady).mpr
      (List.mem_map.mpr ⟨call, survives, rfl⟩))
    obtain ⟨member, named⟩ := List.mem_filter.mp member
    exact ⟨sent, member, by simpa using named, shownAt ▸ held⟩

end Throttled

/-- The call is not published. -/
def Suppressed (name : String) (threshold : Rat) (before : List NotifyCall) (call : NotifyCall) :
    Prop :=
  (run name threshold (before ++ [call])).published = (run name threshold before).published

/-- What the filter is for. -/
structure SpamFiltered (name : String) (threshold : Rat) (calls : List NotifyCall) : Prop where
  /-- A call is suppressed exactly if an event of its type was published too recently. -/
  suppressed_iff : ∀ before call after, calls = before ++ call :: after →
    (Suppressed name threshold before call ↔ ∃ sent ∈ (run name threshold before).published,
      sent.2.eventId = call.eventId ∧ toMs (call.reading.steady - sent.1) < threshold)
  first : ∀ before call after, calls = before ++ call :: after →
    (∀ other ∈ before, other.eventId ≠ call.eventId) → ¬ Suppressed name threshold before call
  apart : ∀ eventId, ((run name threshold calls).published.filter
    fun sent => sent.2.eventId = eventId).Pairwise
      fun one other => threshold ≤ toMs (other.1 - one.1)
  /-- In the calls of one type, with no pause longer than the gap, something is published in
  every window of the threshold and one gap. -/
  steady : ∀ eventId gap start first final, 0 ≤ gap →
    Steady NotifyCall.time gap (about eventId calls) →
    (about eventId calls).head? = some first → (about eventId calls).getLast? = some final →
    first.time ≤ start → start + (max threshold 0 + gap) ≤ final.time →
    ∃ sent ∈ (run name threshold calls).published, sent.2.eventId = eventId ∧
      start ≤ toMs sent.1 ∧ toMs sent.1 ≤ start + (max threshold 0 + gap)
  /-- The calls for other types change nothing. -/
  others : ∀ eventId, (run name threshold calls).publishedOf eventId =
    (run name threshold (about eventId calls)).publishedOf eventId

theorem suppressed_iff_publishes (name : String) (threshold : Rat) (before : List NotifyCall)
    (call : NotifyCall) : Suppressed name threshold before call ↔
      ¬ (run name threshold before).publishes call.eventId call.reading.steady = true := by
  unfold Suppressed
  rw [run_concat, RobustEventNotifier.notify]
  split <;> simp_all

/-- The calls for a type are in the order of their times, too. -/
theorem sorted_about {calls : List NotifyCall}
    (clock : calls.Pairwise fun one other => one.reading.steady ≤ other.reading.steady)
    (eventId : EventID) :
    (about eventId calls).Pairwise fun one other => one.time ≤ other.time :=
  (clock.filter _).imp toMs_mono

/-- The filter does what it is for while the clock does not go back. -/
theorem spamFiltered_of_monotone (name : String) (threshold : Rat) (calls : List NotifyCall)
    (clock : calls.Pairwise fun one other => one.reading.steady ≤ other.reading.steady) :
    SpamFiltered name threshold calls := by
  have throttled := Throttled.run name threshold calls
  have suppressed_iff : ∀ before call after, calls = before ++ call :: after →
      (Suppressed name threshold before call ↔ ∃ sent ∈ (run name threshold before).published,
        sent.2.eventId = call.eventId ∧ toMs (call.reading.steady - sent.1) < threshold) := by
    intro before call after split
    have earlier := (List.pairwise_append.mp (split ▸ clock)).1
    have throttledBefore := Throttled.run name threshold before
    rw [suppressed_iff_publishes, throttledBefore.publishes_iff,
      admits_lastKept_iff (sorted_about earlier call.eventId),
      throttledBefore.exists_published_iff call.eventId fun last =>
        toMs (call.reading.steady - last) < threshold]
    simp only [not_forall, not_not, exists_prop, toMs_sub]
    rfl
  constructor
  case suppressed_iff => exact suppressed_iff
  case first =>
    intro before call after split fresh suppressed
    obtain ⟨sent, member, named, _⟩ := (suppressed_iff before call after split).mp suppressed
    obtain ⟨other, survives, _⟩ := ((Throttled.run name threshold before).exists_published_iff
      call.eventId fun _ => True).mp ⟨sent, member, named, trivial⟩
    obtain ⟨among, same⟩ := List.mem_filter.mp ((kept_sublist ..).subset survives)
    exact fresh other among (by simpa using same)
  case apart =>
    intro eventId
    have apart : ((survivors threshold eventId calls).map fun call =>
        call.reading.steady).Pairwise fun one other => threshold ≤ toMs (other - one) := by
      simp only [List.pairwise_map, toMs_sub]
      exact kept_pairwise (sorted_about clock eventId)
    rw [← throttled.times, List.pairwise_map] at apart
    exact apart
  case steady =>
    intro eventId gap start first final nonneg steady begins ends started lasts
    refine (throttled.exists_published_iff eventId fun now => start ≤ toMs now ∧
      toMs now ≤ start + (max threshold 0 + gap)).mpr ?_
    exact exists_kept nonneg steady begins ends started lasts
  case others =>
    intro eventId
    rw [throttled.published, (Throttled.run name threshold _).published]
    simp [survivors, about]

/-- A stream of calls of one type with a call of another type in between. -/
theorem spamFiltered_stream : SpamFiltered "robot" 250
    [⟨.missingInput, .warning, "", ⟨0, 0⟩⟩, ⟨.missingInput, .warning, "", ⟨200000000, 0⟩⟩,
      ⟨.nanValue, .error, "", ⟨200000000, 0⟩⟩, ⟨.missingInput, .warning, "", ⟨400000000, 0⟩⟩] :=
  spamFiltered_of_monotone _ _ _ (by simp)

end RobustEventNotifier

end Dls2.Log
