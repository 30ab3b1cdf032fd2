import Mathlib.Algebra.Ring.Nat
import Mathlib.Data.List.Induction
import Dls2.Lib.Assoc
import Dls2.Utils.Wait

/-!
# The watcher of the state machines

Every application publishes the state that its machine is in, and `StateMachineWatcher` keeps
the last message of each. The reader's thread stores messages at any time, so that the answers
that a waiting thread gets depend on what has been received by then. A wait is told exactly what
the watcher has seen at its polls, and nothing of what happened in between.
-/

namespace Dls2.StateMachine

open Assoc Dialogue Utils

/-- `StateMachineMonitor`, the message of an application about its machine. -/
structure Monitor where
  appName : String
  state : String
  realtime : Bool
  deriving DecidableEq, Repr

abbrev AppStates := Map String (String × Bool)

namespace Watcher

/-- The callback of the reader. -/
def receive (appStates : AppStates) (component : Monitor) : AppStates :=
  match appStates.lookup component.appName with
  | none => appStates.insert component.appName (component.state, component.realtime)
  | some _ => modify component.appName (fun _ => (component.state, component.realtime)) appStates

def findApp (appStates : AppStates) (app : String) : Bool :=
  (appStates.lookup app).isSome

def findState (appStates : AppStates) (app state : String) : Bool :=
  match appStates.lookup app with
  | none => false
  | some (found, _) => found == state

/-- What is stored after some messages. -/
def received (messages : List Monitor) : AppStates := messages.foldl receive ∅

/-- The last message of an application. -/
def lastOf (messages : List Monitor) (app : String) : Option Monitor :=
  (messages.filter (·.appName = app)).getLast?

theorem lookup_receive (appStates : AppStates) (component : Monitor) (app : String) :
    (receive appStates component).lookup app =
      if app = component.appName then some (component.state, component.realtime)
      else appStates.lookup app := by
  unfold receive
  split
  next free =>
    split
    next same => rw [same, AList.lookup_insert]
    next other => exact AList.lookup_insert_ne other
  next found taken =>
    split
    next same => rw [same, lookup_modify_self, taken, Option.map_some]
    next other => exact lookup_modify_ne other _ _

/-- The watcher keeps the last message of every application. -/
theorem lookup_received (messages : List Monitor) (app : String) :
    (received messages).lookup app =
      (lastOf messages app).map fun component => (component.state, component.realtime) := by
  unfold received lastOf
  induction messages using List.reverseRecOn with
  | nil => rfl
  | append_singleton messages component ih =>
    rw [List.foldl_append, List.foldl_cons, List.foldl_nil, lookup_receive, List.filter_append]
    by_cases same : app = component.appName
    · simp [same]
    · have other : component.appName ≠ app := fun back => same back.symm
      simp [same, other, ih]

/-- The application has last been heard of in this state. -/
def LastIn (messages : List Monitor) (app state : String) : Prop :=
  ∃ component, lastOf messages app = some component ∧ component.state = state

theorem findState_iff (messages : List Monitor) (app state : String) :
    findState (received messages) app state = true ↔ LastIn messages app state := by
  unfold findState LastIn
  rw [lookup_received]
  cases lastOf messages app <;> simp

theorem findApp_iff (messages : List Monitor) (app : String) :
    findApp (received messages) app = true ↔ ∃ component ∈ messages, component.appName = app := by
  unfold findApp
  rw [lookup_received, Option.isSome_map, lastOf, List.getLast?_isSome]
  simp

/-! ### Waiting -/

/-- What a waiting thread asks the watcher. -/
inductive Test where
  | inState (app state : String)
  | known (app : String)
  deriving DecidableEq, Repr

/-- The test holds after these messages. -/
def Test.Holds (messages : List Monitor) : Test → Prop
  | .inState app state => LastIn messages app state
  | .known app => ∃ component ∈ messages, component.appName = app

def Test.run (messages : List Monitor) : Test → Bool
  | .inState app state => findState (received messages) app state
  | .known app => findApp (received messages) app

theorem Test.run_iff (messages : List Monitor) (test : Test) :
    test.run messages = true ↔ test.Holds messages := by
  cases test with
  | inState app state => exact findState_iff messages app state
  | known app => exact findApp_iff messages app

inductive Ask where
  | stopWait
  | test (test : Test)
  | sleepFor (ms : ℕ)
  | cerr (text : String)
  deriving DecidableEq

abbrev Reply : Ask → Type
  | .stopWait => Bool
  | .test _ => Bool
  | .sleepFor _ => ℕ
  | .cerr _ => Unit

abbrev Wait := Program Reply Empty

def process : Utils.Waiting Reply Empty where
  stopWait := .query Ask.stopWait
  sleepFor ms := .query (Ask.sleepFor ms)
  cerr text := .query (Ask.cerr text)

def ask (test : Test) : Wait Bool := .query (Ask.test test)

/-- What goes on around a waiting thread: the messages that have been received when it asks its
next question, the flag at that time, and by how much a sleep takes longer. -/
structure Around where
  messages : List (Said Reply) → List Monitor
  stopped : List (Said Reply) → Bool
  late : List (Said Reply) → ℕ

def Around.answer (around : Around) : Surroundings Reply
  | past, .stopWait => around.stopped past
  | past, .test test => test.run (around.messages past)
  | past, .sleepFor _ => around.late past
  | _, .cerr _ => ()

/-- The milliseconds that a sleep has taken. -/
def sleptFor : Said Reply → ℕ
  | ⟨.sleepFor ms, late⟩ => ms + late
  | _ => 0

def slept (said : List (Said Reply)) : ℕ := (said.map sleptFor).sum

/-- Whether something was a test. -/
def isTest : Said Reply → Bool
  | ⟨.test _, _⟩ => true
  | _ => false

def tests (said : List (Said Reply)) : ℕ := said.countP isTest

@[simp] theorem slept_append (said more : List (Said Reply)) :
    slept (said ++ more) = slept said + slept more := by
  simp [slept]

@[simp] theorem tests_append (said more : List (Said Reply)) :
    tests (said ++ more) = tests said + tests more :=
  List.countP_append

def stopSeen : Said Reply := ⟨.stopWait, true⟩

def passed (test : Test) : Said Reply := ⟨.test test, true⟩

/-- A wait that has neither been stopped nor passed its test. -/
structure Polling (test : Test) (timeoutMs periodMs elapsed : ℕ) (said : List (Said Reply)) :
    Prop where
  time : slept said = elapsed
  early : tests said * periodMs ≤ elapsed
  tested : tests said * periodMs < timeoutMs + periodMs
  going : stopSeen ∉ said
  failing : passed test ∉ said

/-- How a wait has ended. -/
structure Waited (test : Test) (timeoutMs periodMs : ℕ) (said : List (Said Reply))
    (ready : Bool) : Prop where
  tested : tests said * periodMs < timeoutMs + periodMs
  seen : ready = true → stopSeen ∉ said ∧ ∃ before, said = before ++ [passed test]
  missed : ready = false → passed test ∉ said ∧ (stopSeen ∈ said ∨ timeoutMs ≤ slept said)

/-- What the surroundings of a waiting thread answer. -/
def Around.rules (around : Around) : Rules Reply where
  may _ _ := True
  keeps past question answer := answer = around.answer past question

theorem Around.faithful (around : Around) (past : List (Said Reply)) (question : Ask) :
    around.rules.keeps past question (around.answer past question) := rfl

variable {around : Around} {past : List (Said Reply)}

/-- A wait ends after finitely many tests: with one that has passed, or stopped, or when the
time is over. -/
theorem adds_wait (test : Test) {timeoutMs periodMs : ℕ} (positive : 0 < periodMs) :
    Program.Adds around.rules past (wait process (ask test) timeoutMs periodMs positive)
      fun said result => ∃ ready, result = .ok ready ∧
        Waited test timeoutMs periodMs said ready := by
  refine meets_waitFrom
    (fun elapsed later => ∃ said, later = past ++ said ∧
      Polling test timeoutMs periodMs elapsed said)
    (fun elapsed later => ∃ said, later = past ++ said ∧
      Polling test timeoutMs periodMs elapsed said)
    ?_ ?_ ?_ ⟨[], by simp, ⟨rfl, by simp [tests], by simp [tests]; omega, by simp,
      by simp⟩⟩
  · rintro elapsed later ⟨said, rfl, polling⟩
    refine ⟨trivial, fun stopped _ => ?_⟩
    have failing : passed test ∉ said ++ [⟨.stopWait, stopped⟩] := by
      simpa [passed] using polling.failing
    have tested : tests (said ++ [⟨.stopWait, stopped⟩]) = tests said := by simp [tests, isTest]
    cases stopped with
    | true =>
      refine ⟨said ++ [stopSeen], by simp [stopSeen], false, rfl, ?_, nofun, fun _ => ⟨failing, ?_⟩⟩
      · exact tested ▸ polling.tested
      · exact .inl (by simp)
    | false =>
      refine ⟨said ++ [⟨.stopWait, false⟩], by simp, ?_, ?_, ?_, ?_, failing⟩
      · simpa [slept, sleptFor] using polling.time
      · exact tested ▸ polling.early
      · exact tested ▸ polling.tested
      · simpa [stopSeen] using polling.going
  · rintro elapsed later late ⟨said, rfl, polling⟩
    exact ⟨said, rfl, false, rfl, polling.tested, nofun,
      fun _ => ⟨polling.failing, .inr (by rw [polling.time]; exact late)⟩⟩
  · rintro elapsed later early ⟨said, rfl, polling⟩
    refine ⟨trivial, fun ready _ => ?_⟩
    have tested : tests (said ++ [⟨.test test, ready⟩]) = tests said + 1 := by
      simp [tests, isTest]
    have bounded : tests (said ++ [⟨.test test, ready⟩]) * periodMs < timeoutMs + periodMs := by
      have := polling.early
      rw [tested, Nat.succ_mul]
      omega
    have going : stopSeen ∉ said ++ [⟨.test test, ready⟩] := by
      simpa [stopSeen] using polling.going
    cases ready with
    | true =>
      exact ⟨said ++ [passed test], by simp [passed], true, rfl, bounded,
        fun _ => ⟨going, said, rfl⟩, nofun⟩
    | false =>
      have tested_once (more : ℕ) : tests (said ++ [⟨.test test, false⟩] ++
          [⟨.sleepFor periodMs, more⟩]) = tests said + 1 := by
        rw [tests_append, tested]
        rfl
      refine ⟨trivial, fun more _ => ⟨said ++ [⟨.test test, false⟩] ++ [⟨.sleepFor periodMs, more⟩],
        by simp, ?_, ?_, ?_, ?_, ?_⟩⟩
      · simp only [slept_append, polling.time]
        simp [slept, sleptFor]
        omega
      · have := polling.early
        rw [tested_once, Nat.succ_mul]
        omega
      · rw [tested_once, ← tested]
        exact bounded
      · simpa [stopSeen] using polling.going
      · simpa [passed] using polling.failing

/-- A test that has passed was true of the messages of its time, and one that has not was not. -/
theorem holds_iff {said before after : List (Said Reply)} {test : Test} {answer : Bool}
    (answered : Program.AnsweredBy around.answer [] said)
    (split : said = before ++ ⟨.test test, answer⟩ :: after) :
    answer = true ↔ test.Holds (around.messages before) := by
  have told := answered before ⟨.test test, answer⟩ after split
  have same : answer = test.run (around.messages before) := told
  rw [← Test.run_iff, same]

/-- The end of a `waitState`, by what has been said in it. -/
theorem adds_waitState (app state : String) (logTimeout : Bool) :
    Program.Adds around.rules past
      (waitState process (fun app state => ask (.inState app state)) app state logTimeout)
      fun said result => ∃ reached, result = .ok reached ∧ tests said ≤ 500 ∧
        (reached = true → stopSeen ∉ said ∧ passed (.inState app state) ∈ said) ∧
        (reached = false → stopSeen ∈ said ∨
          5000 ≤ slept said ∧ passed (.inState app state) ∉ said) := by
  refine (adds_wait (.inState app state) waitPollPeriodMs_pos).bind ?_
    (by rintro said error ⟨_, ⟨⟩, _⟩)
  rintro said ready ⟨_, ⟨⟩, waited⟩
  refine Program.adds_query_bind trivial fun stopped _ => ?_
  have few : tests said ≤ 500 := by
    have := waited.tested
    simp only [waitPollPeriodMs] at this
    omega
  have ended (last : List (Said Reply)) (quiet : last = [] ∨ ∃ text, last = [⟨.cerr text, ()⟩])
      (missed : stopSeen ∈ said ∨ 5000 ≤ slept said ∧ passed (.inState app state) ∉ said) :
      stopSeen ∈ said ++ ⟨.stopWait, false⟩ :: last ∨
        5000 ≤ slept (said ++ ⟨.stopWait, false⟩ :: last) ∧
          passed (.inState app state) ∉ said ++ ⟨.stopWait, false⟩ :: last := by
    rcases missed with stopped | ⟨late, failing⟩
    · exact .inl (List.mem_append_left _ stopped)
    · refine .inr ⟨by rw [slept_append]; omega, ?_⟩
      rcases quiet with rfl | ⟨text, rfl⟩ <;> simpa [passed] using failing
  cases ready with
  | true =>
    obtain ⟨going, before, split⟩ := waited.seen rfl
    refine Program.adds_done ⟨!stopped, rfl, by simpa [tests, isTest] using few, ?_, ?_⟩
    · intro unset
      obtain rfl : stopped = false := by simpa using unset
      exact ⟨by simpa [stopSeen] using going, by simp [split]⟩
    · intro set
      obtain rfl : stopped = true := by simpa using set
      exact .inl (by simp [stopSeen])
  | false =>
    have missed := waited.missed rfl
    cases stopped with
    | true =>
      exact Program.adds_done ⟨false, rfl, by simpa [tests, isTest] using few, nofun,
        fun _ => .inl (by simp [stopSeen])⟩
    | false =>
      have later := missed.2.imp_right fun late => And.intro late missed.1
      cases logTimeout with
      | false =>
        exact Program.adds_done ⟨false, rfl, by simpa [tests, isTest] using few, nofun,
          fun _ => ended [] (.inl rfl) later⟩
      | true =>
        refine Program.adds_query_bind trivial fun printed _ => Program.adds_done ?_
        exact ⟨false, rfl, by simpa [tests, isTest] using few, nofun,
          fun _ => ended _ (.inr ⟨_, rfl⟩) later⟩

/-- `waitState` returns true only if at one of its polls the application had last been heard of
in this state, and the wait has not been stopped. It returns false only if it has been stopped,
or if at least five seconds have passed and the application was last heard of in another state,
or not at all, at every single poll. There are at most 500 polls. -/
theorem waitState_exact (around : Around) (app state : String) (logTimeout : Bool) :
    ∃ said reached,
      (waitState process (fun app state => ask (.inState app state)) app state logTimeout).run
        around.answer [] = (said, .ok reached) ∧ tests said ≤ 500 ∧
      (reached = true → stopSeen ∉ said ∧ ∃ before after,
        said = before ++ passed (.inState app state) :: after ∧
        LastIn (around.messages before) app state) ∧
      (reached = false → stopSeen ∈ said ∨ 5000 ≤ slept said ∧ ∀ before answer after,
        said = before ++ ⟨.test (.inState app state), answer⟩ :: after →
        ¬ LastIn (around.messages before) app state) := by
  have adds : Program.Adds around.rules [] _ _ := adds_waitState app state logTimeout
  obtain ⟨said, log, -, answered, reached, ended, few, seen, missed⟩ :=
    Program.Adds.run around.faithful adds
  refine ⟨said, reached, Prod.ext log ended, few, fun held => ?_, fun failed => ?_⟩
  · obtain ⟨going, member⟩ := seen held
    obtain ⟨before, after, split⟩ := List.append_of_mem member
    exact ⟨going, before, after, split, (holds_iff answered split).mp rfl⟩
  · refine (missed failed).imp_right fun ⟨late, failing⟩ => ⟨late, ?_⟩
    rintro before answer after split holds
    obtain rfl := (holds_iff answered split).mpr holds
    exact failing (split ▸ List.mem_append_right _ List.mem_cons_self)

/-- The end of a `waitApp`. It is true, too, when the wait has been stopped. -/
theorem adds_waitApp (app : String) :
    Program.Adds around.rules past (waitApp process (fun app => ask (.known app)) app)
      fun said result => ∃ found, result = .ok found ∧ tests said ≤ 500 ∧
        (found = true → passed (.known app) ∈ said ∨ stopSeen ∈ said) ∧
        (found = false → passed (.known app) ∉ said ∧ (stopSeen ∈ said ∨ 5000 ≤ slept said)) := by
  refine (adds_wait (.known app) waitPollPeriodMs_pos).bind ?_
    (by rintro said error ⟨_, ⟨⟩, _⟩)
  rintro said ready ⟨_, ⟨⟩, waited⟩
  have few : tests said ≤ 500 := by
    have := waited.tested
    simp only [waitPollPeriodMs] at this
    omega
  cases ready with
  | true =>
    obtain ⟨-, before, split⟩ := waited.seen rfl
    exact Program.adds_done ⟨true, rfl, by simpa using few, fun _ => .inl (by simp [split]), nofun⟩
  | false =>
    obtain ⟨failing, why⟩ := waited.missed rfl
    refine Program.adds_query_bind trivial fun stopped _ => ?_
    cases stopped with
    | true =>
      exact Program.adds_done ⟨true, rfl, by simpa [tests, isTest] using few,
        fun _ => .inr (by simp [stopSeen]), nofun⟩
    | false =>
      refine Program.adds_query_bind trivial fun printed _ => Program.adds_done ?_
      refine ⟨false, rfl, by simpa [tests, isTest] using few, nofun, fun _ => ⟨?_, ?_⟩⟩
      · simpa [passed] using failing
      · refine why.imp (List.mem_append_left _) fun late => ?_
        rw [slept_append]
        omega

/-- `waitApp` returns true only if one of its polls came after a message of the application, or
the wait has been stopped, and false only if all its polls came before any such message. -/
theorem waitApp_exact (around : Around) (app : String) :
    ∃ said found,
      (waitApp process (fun app => ask (.known app)) app).run around.answer [] =
        (said, .ok found) ∧ tests said ≤ 500 ∧
      (found = true → stopSeen ∈ said ∨ ∃ before after,
        said = before ++ passed (.known app) :: after ∧
        ∃ component ∈ around.messages before, component.appName = app) ∧
      (found = false → (stopSeen ∈ said ∨ 5000 ≤ slept said) ∧ ∀ before answer after,
        said = before ++ ⟨.test (.known app), answer⟩ :: after →
        ∀ component ∈ around.messages before, component.appName ≠ app) := by
  have adds : Program.Adds around.rules [] _ _ := adds_waitApp app
  obtain ⟨said, log, -, answered, found, ended, few, seen, missed⟩ :=
    Program.Adds.run around.faithful adds
  refine ⟨said, found, Prod.ext log ended, few, fun held => ?_, fun failed => ?_⟩
  · refine (seen held).symm.imp_right fun member => ?_
    obtain ⟨before, after, split⟩ := List.append_of_mem member
    exact ⟨before, after, split, (holds_iff answered split).mp rfl⟩
  · refine ⟨(missed failed).2, fun before answer after split component member same => ?_⟩
    obtain rfl := (holds_iff answered split).mpr ⟨component, member, same⟩
    exact (missed failed).1 (split ▸ List.mem_append_right _ List.mem_cons_self)

end Watcher

end Dls2.StateMachine
