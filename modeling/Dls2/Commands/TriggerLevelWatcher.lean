import Dls2.Commands.CommandManager
import Dls2.Lib.CondVar
import Dls2.Lib.Pending

/-!
# Waking the level watcher

`trigger_level_watcher` is a flag with two ways to wait on it. The level watcher
tests it under `levelMutex` and sleeps on `levelCondVar` while it is false; the
callers of `triggerLevelWatcher` block on the atomic until it is false. A caller
stores the flag and notifies without the mutex: when that happens after the watcher
has found the flag false and before it sleeps, the watcher stays asleep and the flag
stays set.

Loads, stores, notifications and the steps that block are steps of their own here.
A locked block without any of these is one step, which is enabled while the watcher
does not hold the mutex.
-/

namespace Dls2.Commands

open Dls2.Assoc Dls2.CondVar Dls2.Pending Dls2.Transition

/-- The place of the thread in `levelWatcher`. -/
inductive WatcherPc where
  | lock
  /-- Inside `levelCondVar.wait`, whose predicate loads one flag. -/
  | wait (pc : WaitPc Unit)
  | storeFalse
  | notifyOne
  | testExit
  | verifyLevel
  | finished
deriving DecidableEq, Repr

/-- The place of a caller in `triggerLevelWatcher`, and in the destructor before it
calls that. -/
inductive TriggerPc where
  | deactivateCommands
  | wait
  /-- Blocked by the atomic wait. -/
  | blocked
  | store
  | notifyOne
deriving DecidableEq, Repr

/-- A manager with its level watcher and the callers of `triggerLevelWatcher`. -/
structure WatchedManager where
  manager : CommandManager
  shouldExit : Bool
  triggerLevelWatcher : Bool
  watcher : WatcherPc
  callers : List TriggerPc

inductive WatchLabel where
  /-- An activity calls `triggerLevelWatcher`. -/
  | triggerLevelWatcher
  | changeLevel (level : UInt32)
  /-- The destructor stores `should_exit`. -/
  | destroy
  /-- The caller with this index goes on. -/
  | advance (index : Nat)
  /-- The watcher goes on; its atomic notification wakes the caller with this index. -/
  | watcher (index : Nat)
  /-- Any other operation on the manager. -/
  | operation (label : ManagerLabel)

/-- Steps of the level watcher. -/
def WatchLabel.IsWatcher (label : WatchLabel) : Prop := ∃ index, label = .watcher index

/-- The watcher holds `levelMutex` except while it sleeps and before it locks again. -/
def WatcherPc.holdsMutex : WatcherPc → Bool
  | .wait .asleep | .wait .notified | .lock | .finished => false
  | .wait (.testing _) | .wait .blocking | .wait .through => true
  | .storeFalse | .notifyOne | .testExit | .verifyLevel => true

/-- A notification of `levelCondVar`, on which only the watcher waits. -/
def WatcherPc.notify : WatcherPc → WatcherPc
  | .wait pc => .wait pc.notify
  | pc => pc

namespace CommandManager

/-- The loop of the destructor. -/
def deactivateCommands (manager : CommandManager) : CommandManager :=
  { manager with commands := mapValues (fun _ cmd => cmd.deactivate) manager.commands }

end CommandManager

namespace WatchedManager

/-- The constructor starts the watcher. -/
def new (owner : String) : WatchedManager where
  manager := .new owner
  shouldExit := false
  triggerLevelWatcher := false
  watcher := .lock
  callers := []

/-- The next step of a caller. -/
def advance (watched : WatchedManager) (index : Nat) : TriggerPc → Option WatchedManager
  | .deactivateCommands => some { watched with
      manager := watched.manager.deactivateCommands
      callers := watched.callers.set index .wait }
  | .wait => some { watched with
      callers := watched.callers.set index
        (if watched.triggerLevelWatcher then .blocked else .store) }
  | .blocked => none
  | .store => some { watched with
      triggerLevelWatcher := true
      callers := watched.callers.set index .notifyOne }
  | .notifyOne => some { watched with
      watcher := watched.watcher.notify
      callers := watched.callers.eraseIdx index }

/-- The atomic `notify_one` wakes one of the blocked callers, if there are any. -/
def notifyOne (watched : WatchedManager) (index : Nat) : Option WatchedManager :=
  if watched.callers[index]? = some .blocked then
    some { watched with watcher := .testExit, callers := watched.callers.set index .wait }
  else if .blocked ∈ watched.callers then none
  else some { watched with watcher := .testExit }

/-- The next step of `levelWatcher`. -/
def levelWatcher (watched : WatchedManager) (index : Nat) : Option WatchedManager :=
  match watched.watcher with
  | .lock => some { watched with watcher := .wait (.testing [()]) }
  | .wait .through => some { watched with watcher := .storeFalse }
  | .wait pc => (pc.step [()] fun _ => watched.triggerLevelWatcher).map fun pc =>
      { watched with watcher := .wait pc }
  | .storeFalse => some { watched with triggerLevelWatcher := false, watcher := .notifyOne }
  | .notifyOne => watched.notifyOne index
  | .testExit => some { watched with
      watcher := if watched.shouldExit then .finished else .verifyLevel }
  | .verifyLevel => some { watched with
      manager := watched.manager.verifyLevel
      watcher := .lock }
  | .finished => none

/-- Operations other than a change of the level and a pass of the watcher. -/
def operation (watched : WatchedManager) : ManagerLabel → Option WatchedManager
  | .changeLevel _ | .verifyLevel => none
  | label => (watched.manager.step label).map fun manager => { watched with manager := manager }

def step (watched : WatchedManager) : WatchLabel → Option WatchedManager
  | .triggerLevelWatcher => some { watched with callers := watched.callers ++ [.wait] }
  | .changeLevel level =>
    if watched.watcher.holdsMutex then none
    else some { watched with
      manager := watched.manager.changeLevel level
      callers := watched.callers ++ [.wait] }
  | .destroy =>
    if watched.watcher.holdsMutex then none
    else some { watched with
      shouldExit := true
      callers := watched.callers ++ [.deactivateCommands] }
  | .advance index => watched.callers[index]?.bind (watched.advance index)
  | .watcher index => watched.levelWatcher index
  | .operation label => watched.operation label

/-- The flag is set, and nobody is going to wake the watcher for it. -/
structure Stranded (watched : WatchedManager) : Prop where
  triggered : watched.triggerLevelWatcher = true
  asleep : watched.watcher = .wait .asleep
  unnotified : TriggerPc.notifyOne ∉ watched.callers

/-- The watcher will sleep, or sleeps, with the flag set. -/
def Misses (watched : WatchedManager) : Prop :=
  ∃ pc, watched.watcher = .wait pc ∧ Missed [()] (fun _ => watched.triggerLevelWatcher) pc

/-- No caller notifies while the flag is set and the watcher, which has found it false,
is not asleep yet, unless another caller is still to notify. -/
def Heard (watched : WatchedManager) : WatchLabel → Prop
  | .advance index => watched.callers[index]? = some .notifyOne → watched.Misses →
      watched.watcher = .wait .asleep ∨ TriggerPc.notifyOne ∈ watched.callers.eraseIdx index
  | .triggerLevelWatcher | .changeLevel _ | .destroy | .watcher _ | .operation _ => True

end WatchedManager

/-- A new manager with its watcher. -/
def watchSystem (owner : String) : System WatchedManager WatchLabel where
  initial := .new owner
  step := WatchedManager.step

namespace WatchedManager

variable {watched next : WatchedManager} {label : WatchLabel}

/-- An operation on the manager leaves the watcher and the callers alone. -/
theorem operation_eq {operation : ManagerLabel}
    (taken : watched.operation operation = some next) :
    ∃ manager, watched.manager.step operation = some manager ∧
      next = { watched with manager := manager } := by
  cases operation with
  | changeLevel | verifyLevel => cases taken
  | _ =>
    simp only [WatchedManager.operation, Option.map_eq_some_iff] at taken
    obtain ⟨manager, steps, rfl⟩ := taken
    exact ⟨manager, steps, rfl⟩

/-- A step of the watcher inside its wait is one of the condition variable; all others
leave it outside, or at the beginning of the wait. -/
theorem levelWatcher_misses {index : Nat} (taken : watched.levelWatcher index = some next)
    (misses : next.Misses) : watched.Misses ∧ next.callers = watched.callers := by
  obtain ⟨pc, place, missed⟩ := misses
  cases from_ : watched.watcher with
  | wait before =>
    cases before with
    | through =>
      simp only [levelWatcher, from_, Option.some.injEq] at taken
      subst taken
      cases place
    | testing _ | blocking | asleep | notified =>
      simp only [levelWatcher, from_, Option.map_eq_some_iff] at taken
      obtain ⟨after, steps, rfl⟩ := taken
      obtain rfl := WatcherPc.wait.inj place
      exact ⟨⟨_, from_, missed.of_step steps⟩, rfl⟩
  | lock =>
    simp only [levelWatcher, from_, Option.some.injEq] at taken
    subst taken
    obtain rfl := WatcherPc.wait.inj place
    exact absurd missed not_missed_testing_all
  | notifyOne =>
    simp only [levelWatcher, from_, notifyOne] at taken
    split at taken
    · obtain rfl := Option.some.inj taken
      cases place
    · split at taken
      · cases taken
      · obtain rfl := Option.some.inj taken
        cases place
  | testExit =>
    simp only [levelWatcher, from_, Option.some.injEq] at taken
    subst taken
    dsimp only at place
    split at place <;> cases place
  | storeFalse | verifyLevel =>
    simp only [levelWatcher, from_, Option.some.injEq] at taken
    subst taken
    cases place
  | finished => simp [levelWatcher, from_] at taken

/-- A lost notification is one that finds the watcher not asleep yet. -/
theorem misses_notify_iff {callers : List TriggerPc} :
    ({ watched with watcher := watched.watcher.notify, callers := callers } :
        WatchedManager).Misses ↔ watched.Misses ∧ watched.watcher ≠ .wait .asleep := by
  constructor
  · rintro ⟨pc, place, missed⟩
    cases from_ : watched.watcher with
    | wait before =>
      simp only [from_, WatcherPc.notify, WatcherPc.wait.injEq] at place
      subst place
      obtain ⟨missed, awake⟩ := missed_notify_iff.mp missed
      exact ⟨⟨before, from_, missed⟩, fun same => awake (WatcherPc.wait.inj same)⟩
    | _ => simp [from_, WatcherPc.notify] at place
  · rintro ⟨⟨pc, place, missed⟩, awake⟩
    refine ⟨pc.notify, by simp [place, WatcherPc.notify], missed_notify_iff.mpr ⟨missed, ?_⟩⟩
    rintro rfl
    exact awake place

/-- As long as every notification is heard, a caller is still to notify whenever the
watcher has missed the flag. -/
theorem pending_of_misses (pending : watched.Misses → .notifyOne ∈ watched.callers)
    (heard : watched.Heard label) (taken : watched.step label = some next) :
    next.Misses → .notifyOne ∈ next.callers := by
  cases label with
  | triggerLevelWatcher =>
    obtain rfl := Option.some.inj taken
    exact fun misses => List.mem_append_left _ (pending misses)
  | changeLevel _ | destroy =>
    obtain ⟨_, runs⟩ := Option.ite_none_left_eq_some.mp taken
    obtain rfl := Option.some.inj runs
    exact fun misses => List.mem_append_left _ (pending misses)
  | advance index =>
    obtain ⟨caller, atIndex, goes⟩ := Option.bind_eq_some_iff.mp taken
    cases caller with
    | deactivateCommands | wait =>
      obtain rfl := Option.some.inj goes
      exact fun misses => mem_set_of_ne (pending misses) atIndex (by decide)
    | blocked => cases goes
    | store =>
      obtain rfl := Option.some.inj goes
      exact fun _ => mem_set_self atIndex
    | notifyOne =>
      obtain rfl := Option.some.inj goes
      intro misses
      obtain ⟨misses, awake⟩ := misses_notify_iff.mp misses
      exact (heard atIndex misses).resolve_left awake
  | watcher index =>
    intro misses
    obtain ⟨misses, same⟩ := levelWatcher_misses taken misses
    exact same ▸ pending misses
  | operation operation =>
    obtain ⟨manager, _, rfl⟩ := operation_eq taken
    exact pending

/-- A notification that is not heard leaves the watcher on its way to sleep, and no
caller that would notify it. -/
theorem misses_of_not_heard (unheard : ¬ watched.Heard label)
    (taken : watched.step label = some next) :
    next.Misses ∧ TriggerPc.notifyOne ∉ next.callers := by
  cases label with
  | advance index =>
    simp only [Heard, Classical.not_imp, not_or] at unheard
    obtain ⟨atIndex, misses, awake, alone⟩ := unheard
    simp only [step, atIndex, Option.bind_some, advance, Option.some.injEq] at taken
    subst taken
    exact ⟨misses_notify_iff.mpr ⟨misses, awake⟩, alone⟩
  | triggerLevelWatcher | changeLevel _ | destroy | watcher _ | operation _ =>
    exact absurd trivial unheard

end WatchedManager

/-- While every notification is heard, the watcher is never stranded with the flag set.
After one that is not heard the watcher, left to itself, is. -/
theorem not_stranded_of_heard (owner : String) :
    (∀ watched, (watchSystem owner).ReachableUnder WatchedManager.Heard watched →
      ¬ watched.Stranded) ∧
    ∀ watched label next, (watchSystem owner).Reachable watched → ¬ watched.Heard label →
      (watchSystem owner).step watched label = some next →
      (watchSystem owner).LeadsTo WatchLabel.IsWatcher WatchedManager.Stranded next := by
  constructor
  · intro watched reachable stranded
    have pending : watched.Misses → .notifyOne ∈ watched.callers := by
      apply reachable.invariant fun watched => watched.Misses → .notifyOne ∈ watched.callers
      · rintro ⟨pc, place, _⟩
        cases place
      · intro watched label next pending heard taken
        exact WatchedManager.pending_of_misses pending heard taken
    apply stranded.unnotified (pending ⟨.asleep, stranded.asleep, missed_asleep_iff.mpr ?_⟩)
    exact ⟨(), List.mem_singleton_self _, stranded.triggered⟩
  · intro watched label next _ unheard taken
    obtain ⟨⟨pc, place, missed⟩, alone⟩ := WatchedManager.misses_of_not_heard unheard taken
    have steps : ∀ pc after, pc.step [()] (fun _ => next.triggerLevelWatcher) = some after →
        (watchSystem owner).step { next with watcher := .wait pc } (.watcher 0) =
          some { next with watcher := .wait after } := by
      intro pc after steps
      cases pc with
      | through => cases steps
      | testing _ | blocking | asleep | notified =>
        simp [watchSystem, WatchedManager.step, WatchedManager.levelWatcher, steps]
    have mine : WatchLabel.IsWatcher (.watcher 0) := ⟨0, rfl⟩
    have triggered : next.triggerLevelWatcher = true := by
      obtain ⟨_, _, holds⟩ := missed.present
      exact holds
    have stranded : WatchedManager.Stranded { next with watcher := .wait .asleep } :=
      ⟨triggered, rfl, alone⟩
    have same : { next with watcher := .wait pc } = next := by rw [← place]
    rw [← same]
    exact missed.leadsTo mine steps stranded

/-- The watcher sleeps when the flag is set and notified. -/
theorem not_stranded_asleep_watcher : ∃ watched, (watchSystem "app").run
      [.watcher 0, .watcher 0, .watcher 0, .watcher 0, .triggerLevelWatcher, .advance 0, .advance 0,
        .advance 0] = some watched ∧
    watched.triggerLevelWatcher = true ∧ ¬ watched.Stranded := by
  have admitted : (watchSystem "app").AdmitsFrom WatchedManager.Heard (watchSystem "app").initial
      [.watcher 0, .watcher 0, .watcher 0, .watcher 0, .triggerLevelWatcher, .advance 0, .advance 0,
        .advance 0] := by
    refine ⟨trivial, ?_⟩
    rintro _ ⟨⟩
    refine ⟨trivial, ?_⟩
    rintro _ ⟨⟩
    refine ⟨trivial, ?_⟩
    rintro _ ⟨⟩
    refine ⟨trivial, ?_⟩
    rintro _ ⟨⟩
    refine ⟨trivial, ?_⟩
    rintro _ ⟨⟩
    refine ⟨fun _ _ => .inl rfl, ?_⟩
    rintro _ ⟨⟩
    refine ⟨fun _ _ => .inl rfl, ?_⟩
    rintro _ ⟨⟩
    refine ⟨fun _ _ => .inl rfl, ?_⟩
    rintro _ ⟨⟩
    trivial
  have reachable := System.ReachableUnder.initial.runFrom admitted rfl
  exact ⟨_, rfl, rfl, (not_stranded_of_heard "app").1 _ reachable⟩

/-! ### The manager under its watcher -/

namespace WatchedManager

variable {watched next : WatchedManager} {label : WatchLabel}

/-- Every step is one of the manager, or leaves it alone, or is the destructor's loop. -/
theorem step_manager (taken : watched.step label = some next) :
    next.manager = watched.manager ∨ (∃ operation,
      watched.manager.step operation = some next.manager) ∨
      next.manager = watched.manager.deactivateCommands := by
  cases label with
  | triggerLevelWatcher =>
    obtain rfl := Option.some.inj taken
    exact .inl rfl
  | changeLevel level =>
    obtain ⟨_, runs⟩ := Option.ite_none_left_eq_some.mp taken
    obtain rfl := Option.some.inj runs
    exact .inr (.inl ⟨.changeLevel level, rfl⟩)
  | destroy =>
    obtain ⟨_, runs⟩ := Option.ite_none_left_eq_some.mp taken
    obtain rfl := Option.some.inj runs
    exact .inl rfl
  | advance index =>
    obtain ⟨caller, _, goes⟩ := Option.bind_eq_some_iff.mp taken
    cases caller with
    | deactivateCommands =>
      obtain rfl := Option.some.inj goes
      exact .inr (.inr rfl)
    | blocked => cases goes
    | wait | store | notifyOne =>
      obtain rfl := Option.some.inj goes
      exact .inl rfl
  | watcher index =>
    simp only [step, levelWatcher] at taken
    split at taken
    case h_7 =>
      obtain rfl := Option.some.inj taken
      exact .inr (.inl ⟨.verifyLevel, rfl⟩)
    case h_5 =>
      simp only [notifyOne] at taken
      split at taken
      · obtain rfl := Option.some.inj taken
        exact .inl rfl
      · split at taken
        · cases taken
        · obtain rfl := Option.some.inj taken
          exact .inl rfl
    case h_3 =>
      obtain ⟨_, _, rfl⟩ := Option.map_eq_some_iff.mp taken
      exact .inl rfl
    case h_8 => cases taken
    all_goals
      obtain rfl := Option.some.inj taken
      exact .inl rfl
  | operation operation =>
    obtain ⟨manager, steps, rfl⟩ := operation_eq taken
    exact .inr (.inl ⟨operation, steps⟩)

/-- So the manager's own invariant holds in every run. -/
theorem valid_of_reachable {owner : String} (reachable : (watchSystem owner).Reachable watched) :
    watched.manager.Valid owner := by
  apply reachable.invariant fun watched => watched.manager.Valid owner
  · exact .of_reachable .initial
  · intro before label after valid _ taken
    obtain same | ⟨operation, steps⟩ | destroyed := step_manager taken
    · exact same ▸ valid
    · exact valid.step steps
    · rw [destroyed]
      exact ⟨valid.owned, valid.registered.mapValues fun _ _ registered => registered.deactivate⟩

end WatchedManager

/-! ### What follows for the callers -/

namespace WatchedManager

/-- The watcher sleeps with the flag set, and every caller is before its atomic wait or
blocked in it. -/
structure Stuck (watched : WatchedManager) : Prop where
  triggered : watched.triggerLevelWatcher = true
  asleep : watched.watcher = .wait .asleep
  waiting : ∀ caller ∈ watched.callers, caller ≠ .store ∧ caller ≠ .notifyOne

namespace Stuck

variable {watched next : WatchedManager} {label : WatchLabel}

/-- A new caller only joins the others. -/
theorem append (stuck : Stuck watched) {caller : TriggerPc} (manager : CommandManager)
    (shouldExit : Bool) (waits : caller ≠ .store ∧ caller ≠ .notifyOne) :
    Stuck { watched with
      manager := manager
      shouldExit := shouldExit
      callers := watched.callers ++ [caller] } where
  triggered := stuck.triggered
  asleep := stuck.asleep
  waiting other among := by
    obtain before | here := List.mem_append.mp among
    · exact stuck.waiting other before
    · exact List.mem_singleton.mp here ▸ waits

/-- A caller that goes on gets no further than the atomic wait. -/
theorem set (stuck : Stuck watched) {caller : TriggerPc} (manager : CommandManager)
    (index : Nat) (waits : caller ≠ .store ∧ caller ≠ .notifyOne) :
    Stuck { watched with
      manager := manager
      callers := watched.callers.set index caller } where
  triggered := stuck.triggered
  asleep := stuck.asleep
  waiting other among := by
    obtain before | rfl := List.mem_or_eq_of_mem_set among
    · exact stuck.waiting other before
    · exact waits

/-- No step ends it: every caller waits for ever. -/
theorem step (stuck : Stuck watched) (taken : watched.step label = some next) : Stuck next := by
  have wait : TriggerPc.wait ≠ .store ∧ TriggerPc.wait ≠ .notifyOne := by decide
  have blocked : TriggerPc.blocked ≠ .store ∧ TriggerPc.blocked ≠ .notifyOne := by decide
  cases label with
  | triggerLevelWatcher =>
    obtain rfl := Option.some.inj taken
    exact stuck.append watched.manager watched.shouldExit wait
  | changeLevel level =>
    obtain ⟨_, runs⟩ := Option.ite_none_left_eq_some.mp taken
    obtain rfl := Option.some.inj runs
    exact stuck.append _ watched.shouldExit wait
  | destroy =>
    obtain ⟨_, runs⟩ := Option.ite_none_left_eq_some.mp taken
    obtain rfl := Option.some.inj runs
    have destroying : TriggerPc.deactivateCommands ≠ .store ∧
        TriggerPc.deactivateCommands ≠ .notifyOne := by decide
    exact stuck.append watched.manager true destroying
  | advance index =>
    obtain ⟨caller, atIndex, goes⟩ := Option.bind_eq_some_iff.mp taken
    have early := stuck.waiting caller (List.mem_of_getElem? atIndex)
    cases caller with
    | deactivateCommands =>
      obtain rfl := Option.some.inj goes
      exact stuck.set _ index wait
    | wait =>
      obtain rfl := Option.some.inj goes
      rw [if_pos stuck.triggered]
      exact stuck.set watched.manager index blocked
    | blocked => cases goes
    | store => exact absurd rfl early.1
    | notifyOne => exact absurd rfl early.2
  | watcher index =>
    simp [WatchedManager.step, levelWatcher, stuck.asleep, WaitPc.step] at taken
  | operation operation =>
    obtain ⟨manager, _, rfl⟩ := operation_eq taken
    exact ⟨stuck.triggered, stuck.asleep, stuck.waiting⟩

/-- No run ends it. -/
theorem runFrom {owner : String} {labels : List WatchLabel} (stuck : Stuck watched)
    (continued : (watchSystem owner).runFrom watched labels = some next) : Stuck next :=
  System.runFrom_invariant continued Stuck stuck fun stuck taken => stuck.step taken

end Stuck

end WatchedManager

/-- The watcher tests the flag, a caller sets it and notifies, and the watcher goes to
sleep. Nothing that happens later wakes it. -/
theorem lost_trigger : ∃ watched, (watchSystem "app").Reachable watched ∧
    watched.Stranded ∧ ∀ labels final,
      (watchSystem "app").runFrom watched labels = some final → final.Stranded := by
  have reachable : (watchSystem "app").Reachable
      ⟨.new "app", false, true, .wait .asleep, []⟩ :=
    .replay .initial (show (watchSystem "app").runFrom (.new "app")
      [.watcher 0, .watcher 0, .triggerLevelWatcher, .advance 0, .watcher 0, .advance 0,
        .advance 0, .watcher 0] = some _ from rfl)
  have stuck : WatchedManager.Stuck ⟨.new "app", false, true, .wait .asleep, []⟩ :=
    ⟨rfl, rfl, by simp⟩
  have stranded : ∀ {watched : WatchedManager}, watched.Stuck → watched.Stranded :=
    fun stuck => ⟨stuck.triggered, stuck.asleep, fun among => (stuck.waiting _ among).2 rfl⟩
  exact ⟨_, reachable, stranded stuck, fun labels final continued =>
    stranded (stuck.runFrom continued)⟩

end Dls2.Commands
