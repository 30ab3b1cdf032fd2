import Dls2.Utils.OwnedProcess

/-!
# The discipline of a shutdown

Signals go to a process identifier or a group, which the operating system may have given to
somebody else once the process is gone. So no signal may be sent to a process that has been
seen to be gone, and none before the gentler one.

The verdict of a shutdown is fixed by the polling, while the last loop looks at the
processes once more: it may find that none is left, and the verdict is still that some are.
-/

namespace Dls2.Utils

open Dls2.Assoc Dls2.Transition

namespace Signal

def rank : Signal → Nat
  | .interrupt => 0
  | .terminate => 1
  | .kill => 2

theorem lt_next_iff {value current following : Signal} (next : current.next = some following) :
    value.rank < following.rank ↔ value.rank ≤ current.rank := by
  cases value <;> cases current <;> cases following <;> simp_all [rank, Signal.next]

theorem le_of_last (value : Signal) {current : Signal} (last : current.next = none) :
    value.rank ≤ current.rank := by
  cases value <;> cases current <;> simp_all [rank, Signal.next]

theorem lt_or_eq_of_le {value current : Signal} (upTo : value.rank ≤ current.rank) :
    value.rank < current.rank ∨ value = current := by
  cases value <;> cases current <;> simp_all [rank]

end Signal

/-- At the place, the process of the name has been through the loop of the signal. -/
def Place.Passed (value : Signal) (name : String) : Place → Prop
  | .signal current rest => value.rank < current.rank ∨ value = current ∧ name ∉ rest
  | .send current other rest =>
    value.rank < current.rank ∨ value = current ∧ name ≠ other ∧ name ∉ rest
  | .wait current | .poll current _ _ _ => value.rank ≤ current.rank
  | .check _ | .detach _ _ | .returned false => True
  | .returned true | .raised => False

/-- What has to come before an event: a process has not been seen to be gone before it is
signalled, or seen to be running, and it was sent the gentler signal. -/
def ShutdownEvent.Cause (before : List ShutdownEvent) : ShutdownEvent → Prop
  | .observed _ name running =>
    running = true → ∀ check, .observed check name false ∉ before
  | .sent name value => (∀ check, .observed check name false ∉ before) ∧
    ∀ gentler : Signal, gentler.next = some value → .sent name gentler ∈ before
  | .detached _ => True

namespace Shutdown

/-- The state of a call and its log. -/
structure Orderly (shutdown : Shutdown) (log : List ShutdownEvent) : Prop where
  gone : ∀ check name, .observed check name false ∈ log →
    ∀ process ∈ shutdown.processes.lookup name, process.Gone
  signalled : ∀ value name rest, shutdown.place = .send value name rest →
    ∀ process ∈ shutdown.processes.lookup name, ¬ process.Gone
  sent : ∀ value name, shutdown.place.Passed value name →
    ∀ process ∈ shutdown.processes.lookup name, ¬ process.Gone → .sent name value ∈ log
  polled : ∀ value deadline rest, shutdown.place = .poll value deadline rest false →
    ∀ name ∈ shutdown.names, name ∉ rest → ∃ check, .observed check name false ∈ log
  stopped : shutdown.place = .returned true →
    ∀ name ∈ shutdown.names, ∃ check, .observed check name false ∈ log
  justified : Justified ShutdownEvent.Cause log

namespace Orderly

variable {shutdown next : Shutdown} {log : List ShutdownEvent} {check : Check} {name : String}
  {process after : OwnedProcess} {answer : Answer} {result : Bool}

theorem initial (processes : Map String OwnedProcess) (grace : Int) :
    Orderly (shutdownProcesses processes grace).initial [] where
  gone := by simp
  signalled := by simp [shutdownProcesses]
  sent := by
    rintro value name (before | ⟨rfl, absent⟩) process entry
    · exact absurd before (Nat.not_lt_zero _)
    · exact absurd (AList.lookup_isSome.mp (Option.isSome_of_mem entry)) absent
  polled := by simp [shutdownProcesses]
  stopped := by simp [shutdownProcesses]
  justified := .nil

/-- A process that is not gone after an answer was not gone before. -/
theorem not_gone_of_running (ran : process.running answer = some (result, after))
    (left : ¬ after.Gone) : ¬ process.Gone := by
  intro gone
  rw [gone.running answer] at ran
  obtain ⟨_, rfl⟩ := Prod.mk.inj (Option.some.inj ran)
  exact left gone

/-- A process that has been seen to be gone is not seen to be running. -/
theorem cause_observed (orderly : Orderly shutdown log)
    (entry : shutdown.processes.lookup name = some process)
    (ran : process.running answer = some (result, after)) :
    (ShutdownEvent.observed check name result).Cause log := by
  rintro rfl other seen
  have gone := orderly.gone other name seen process entry
  rw [gone.running answer] at ran
  cases ran

theorem cause_sent (orderly : Orderly shutdown log) {value : Signal} {rest : List String}
    (place : shutdown.place = .send value name rest)
    (entry : shutdown.processes.lookup name = some process) :
    (ShutdownEvent.sent name value).Cause log := by
  have left := orderly.signalled value name rest place process entry
  refine ⟨fun check seen => left (orderly.gone check name seen process entry), ?_⟩
  intro gentler follows
  refine orderly.sent gentler name ?_ process entry left
  rw [place]
  exact .inl ((Signal.lt_next_iff follows).mpr le_rfl)

/-- The processes after an answer. -/
theorem lookup_after {other : String} {found : OwnedProcess}
    (entry : shutdown.processes.lookup name = some process)
    (member : (modify name (fun _ => after) shutdown.processes).lookup other = some found) :
    (other = name ∧ found = after) ∨
      (other ≠ name ∧ shutdown.processes.lookup other = some found) := by
  by_cases same : other = name
  · subst same
    rw [lookup_modify_self, entry] at member
    exact .inl ⟨rfl, (Option.some.inj member).symm⟩
  · rw [lookup_modify_ne same] at member
    exact .inr ⟨same, member⟩

/-- The loop has been through a process before the answer if it has been through it after, unless
the answer is that this one is gone. -/
theorem passed_of_answered {place : Place} {value : Signal} {other : String}
    (asked : asks place = some (check, name)) (kept : other = name → result = true)
    (passed : (answered result place).Passed value other) : place.Passed value other := by
  rcases asks_cases asked with ⟨_, _, rfl, _⟩ | ⟨_, _, _, _, rfl, _⟩ | ⟨_, rfl, _⟩
  · cases result with
    | true => simpa [Place.Passed, answered] using passed
    | false =>
      have different : other ≠ name := fun same => Bool.noConfusion (kept same)
      simpa [Place.Passed, answered, different] using passed
  · exact passed
  · trivial

/-- An answer, and where it leads. -/
theorem observe (orderly : Orderly shutdown log) (asked : asks shutdown.place = some (check, name))
    (entry : shutdown.processes.lookup name = some process)
    (ran : process.running answer = some (result, after)) :
    Orderly ⟨modify name (fun _ => after) shutdown.processes, answered result shutdown.place⟩
      (log ++ [.observed check name result]) where
  gone := by
    intro other observed seen found member
    rw [List.mem_append, List.mem_singleton] at seen
    rcases lookup_after entry member with ⟨rfl, rfl⟩ | ⟨different, member⟩
    · rcases seen with seen | same
      · have gone := orderly.gone other observed seen process entry
        by_contra left
        exact not_gone_of_running ran left gone
      · cases same
        by_contra left
        exact absurd ((OwnedProcess.running_cases ran).2.mpr left) (by simp)
    · rcases seen with seen | same
      · exact orderly.gone other observed seen found member
      · cases same
        exact absurd rfl different
  signalled := by
    intro value other rest place found member
    rcases asks_cases asked with ⟨_, _, here, _⟩ | ⟨_, _, _, _, here, _⟩ | ⟨_, here, _⟩
    · rw [here] at place
      cases result with
      | false => cases place
      | true =>
        cases place
        rcases lookup_after entry member with ⟨_, rfl⟩ | ⟨different, _⟩
        · exact (OwnedProcess.running_cases ran).2.mp rfl
        · exact absurd rfl different
    · rw [here] at place
      cases place
    · rw [here] at place
      cases result <;> cases place
  sent := by
    intro value other passed found member left
    rw [List.mem_append]
    -- the process was left before, and has been through the loop unless it is this one
    rcases lookup_after entry member with ⟨rfl, rfl⟩ | ⟨different, member⟩
    · have running := (OwnedProcess.running_cases ran).2.mpr left
      have before := passed_of_answered asked (fun _ => running) passed
      exact .inl (orderly.sent value other before process entry (not_gone_of_running ran left))
    · have before := passed_of_answered asked (fun same => absurd same different) passed
      exact .inl (orderly.sent value other before found member left)
  polled := by
    intro value deadline rest place other member visited
    rcases asks_cases asked with ⟨_, _, here, _⟩ | ⟨_, _, _, anyRunning, here, rfl⟩ | ⟨_, here, _⟩
    · rw [here] at place
      cases result <;> cases place
    · rw [here] at place
      cases result with
      | true => simp [answered] at place
      | false =>
        rw [answered, Bool.or_false] at place
        cases place
        by_cases same : other = name
        · subst same
          exact ⟨.polling, by simp⟩
        · have known : other ∈ shutdown.names := by simpa [names] using member
          obtain ⟨check, seen⟩ := orderly.polled _ _ _ here other known (by simp [same, visited])
          exact ⟨check, List.mem_append_left _ seen⟩
    · rw [here] at place
      cases result <;> cases place
  stopped := by
    intro place
    rcases asks_cases asked with ⟨_, _, here, _⟩ | ⟨_, _, _, _, here, _⟩ | ⟨_, here, _⟩
    all_goals
      rw [here] at place
      cases result <;> cases place
  justified := orderly.justified.concat (orderly.cause_observed entry ran)

/-- A step that asks about nothing. -/
theorem goto (orderly : Orderly shutdown log) {place : Place} {shown : Option ShutdownEvent}
    (silent : ∀ check name running, shown ≠ some (.observed check name running))
    (signalled : ∀ value name rest, place ≠ .send value name rest)
    (sent : ∀ value name, place.Passed value name → shutdown.place.Passed value name ∨
      shown = some (.sent name value) ∨
      ∀ process ∈ shutdown.processes.lookup name, process.Gone)
    (polled : ∀ value deadline rest, place = .poll value deadline rest false →
      rest = shutdown.names)
    (stopped : place = .returned true → ∃ value deadline,
      shutdown.place = .poll value deadline [] false)
    (cause : ∀ event ∈ shown, event.Cause log) :
    Orderly (shutdown.goto place) (log ++ shown.toList) where
  gone := by
    intro check name seen process entry
    rw [List.mem_append, Option.mem_toList] at seen
    rcases seen with seen | now
    · exact orderly.gone check name seen process entry
    · exact absurd now (silent check name false)
  signalled := fun value name rest arrived => absurd arrived (signalled value name rest)
  sent := by
    intro value name passed process entry left
    rw [List.mem_append, Option.mem_toList]
    rcases sent value name passed with before | now | gone
    · exact .inl (orderly.sent value name before process entry left)
    · exact .inr now
    · exact absurd (gone process entry) left
  polled := by
    intro value deadline rest arrived name member visited
    rw [polled value deadline rest arrived] at visited
    exact absurd member visited
  stopped := by
    intro arrived name member
    obtain ⟨value, deadline, here⟩ := stopped arrived
    obtain ⟨check, seen⟩ := orderly.polled value deadline [] here name member (by simp)
    exact ⟨check, List.mem_append_left _ seen⟩
  justified := by
    cases shown with
    | none => simpa using orderly.justified
    | some event => exact orderly.justified.concat (cause event rfl)

/-- A signal to the process that the loop has come to. -/
theorem send (orderly : Orderly shutdown log) {value : Signal} {rest : List String}
    (place : shutdown.place = .send value name rest)
    (entry : shutdown.processes.lookup name = some process) {goal : Place}
    (goes : goal = .signal value rest ∨ goal = .raised) :
    Orderly (shutdown.goto goal)
      (log ++ (if process.finished then none else some (.sent name value)).toList) := by
  have unfinished : process.finished = false := by
    by_contra finished
    exact orderly.signalled value name rest place process entry (.inl (by simpa using finished))
  rw [unfinished]
  apply orderly.goto
  case sent =>
    intro other observed passed
    rcases goes with rfl | rfl
    · rcases passed with before | ⟨rfl, visited⟩
      · exact .inl (place ▸ .inl before)
      · by_cases same : observed = name
        · exact .inr (.inl (by rw [same]; rfl))
        · exact .inl (place ▸ .inr ⟨rfl, same, visited⟩)
    · exact passed.elim
  case cause =>
    intro event shown
    cases shown
    exact orderly.cause_sent place entry
  all_goals rcases goes with rfl | rfl <;> simp

/-- After the deadline the next signal is due, or the last look. -/
theorem escalate (orderly : Orderly shutdown log) {value : Signal} {deadline : Int}
    (place : shutdown.place = .poll value deadline [] true) :
    Orderly (shutdown.goto (Shutdown.escalate shutdown.names value)) log := by
  suffices Orderly _ (log ++ (none : Option ShutdownEvent).toList) by simpa using this
  apply orderly.goto
  case sent =>
    intro other name passed
    unfold Shutdown.escalate at passed
    rw [place]
    split at passed
    next following follows =>
      rcases passed with before | ⟨_, absent⟩
      · exact .inl ((Signal.lt_next_iff follows).mp before)
      · refine .inr (.inr fun process entry => absurd ?_ absent)
        exact AList.lookup_isSome.mp (Option.isSome_of_mem entry)
    next last => exact .inl (other.le_of_last last)
  all_goals cases value <;> simp [Shutdown.escalate, Signal.next]

theorem step (orderly : Orderly shutdown log) {shown : Option ShutdownEvent}
    (step : Step shutdown next shown) : Orderly next (log ++ shown.toList) := by
  cases step with
  | observed asked entry ran => exact orderly.observe asked entry ran
  | raised asked => apply orderly.goto <;> simp [Place.Passed]
  | sent place entry goes => exact orderly.send place entry goes
  | waits place =>
    apply orderly.goto
    case sent =>
      rintro value name upTo
      rw [place]
      exact .inl ((Signal.lt_or_eq_of_le upTo).imp_right fun same => ⟨same, List.not_mem_nil⟩)
    all_goals simp
  | polls place =>
    apply orderly.goto
    case sent =>
      rintro value name upTo
      rcases place with place | ⟨deadline, place⟩
      · exact .inl (place ▸ upTo)
      · exact .inl (place ▸ upTo)
    all_goals simp
  | escalates place => simpa using orderly.escalate place
  | @stopped current deadline place => apply orderly.goto <;> simp [Place.Passed, place]
  | failed place => apply orderly.goto <;> simp [Place.Passed, place]
  | detached place => apply orderly.goto <;> simp [Place.Passed, place, ShutdownEvent.Cause]

end Orderly

end Shutdown

/-- The answer about the process in an event, if it is one. -/
def ShutdownEvent.answerAbout (name : String) : ShutdownEvent → Option Bool
  | .observed _ other running => if other = name then some running else none
  | _ => none

/-- The last answer about the process. -/
def lastObserved (log : List ShutdownEvent) (name : String) : Option Bool :=
  (log.filterMap (·.answerAbout name)).getLast?

theorem lastObserved_concat (log : List ShutdownEvent) (event : ShutdownEvent) (name : String) :
    lastObserved (log ++ [event]) name = (event.answerAbout name).or (lastObserved log name) := by
  unfold lastObserved
  cases answer : event.answerAbout name <;> simp [List.filterMap_append, answer]

/-- The processes that the last loop has still to look at, once it has begun. -/
def Place.pending : Place → Option (List String)
  | .check rest | .detach _ rest => some rest
  | .returned false => some []
  | _ => none

namespace Shutdown

/-- What the last loop has found. -/
structure LastLook (shutdown : Shutdown) (log : List ShutdownEvent) : Prop where
  known : ∀ check name running, .observed check name running ∈ log → name ∈ shutdown.names
  early : shutdown.place.pending = none → shutdown.place ≠ .raised →
    ∀ name running, .observed .last name running ∉ log
  fresh : ∀ rest, shutdown.place.pending = some rest → rest.Nodup ∧ rest ⊆ shutdown.names ∧
    ∀ name ∈ rest, ∀ running, .observed .last name running ∉ log
  checked : ∀ rest, shutdown.place.pending = some rest →
    ∀ name ∈ shutdown.names, name ∉ rest → ∃ running, .observed .last name running ∈ log
  last : ∀ name running, .observed .last name running ∈ log →
    lastObserved log name = some running
  detaching : ∀ name rest, shutdown.place = .detach name rest → .observed .last name true ∈ log
  detached : ∀ name, (∀ rest, shutdown.place ≠ .detach name rest) →
    (.detached name ∈ log ↔ .observed .last name true ∈ log)

namespace LastLook

variable {shutdown next : Shutdown} {log : List ShutdownEvent} {check : Check} {name : String}
  {process after : OwnedProcess} {answer : Answer} {result : Bool}

theorem initial (processes : Map String OwnedProcess) (grace : Int) :
    LastLook (shutdownProcesses processes grace).initial [] := by
  constructor <;> simp [shutdownProcesses, Place.pending]

theorem mem_names (entry : shutdown.processes.lookup name = some process) :
    name ∈ shutdown.names :=
  AList.lookup_isSome.mp (Option.isSome_of_mem entry)

/-- A place before the last loop detaches nothing. -/
theorem ne_detach {place : Place} (early : place.pending = none) (name : String)
    (rest : List String) : place ≠ .detach name rest := by
  rintro rfl
  cases early

/-- The processes about which there are answers. -/
theorem known_concat (look : LastLook shutdown log)
    (entry : shutdown.processes.lookup name = some process) {other : String} {seenAt : Check}
    {running : Bool}
    (seen : .observed seenAt other running ∈ log ++ [.observed check name result]) :
    other ∈ (modify name (fun _ => after) shutdown.processes).keys := by
  rw [keys_modify]
  rw [List.mem_append, List.mem_singleton] at seen
  rcases seen with before | now
  · exact look.known seenAt other running before
  · cases now
    exact mem_names entry

/-- An answer before the last loop. -/
theorem observe_early (look : LastLook shutdown log) {place : Place}
    (entry : shutdown.processes.lookup name = some process)
    (early : shutdown.place.pending = none) (going : shutdown.place ≠ .raised)
    (still : place.pending = none) (other : check ≠ .last) :
    LastLook ⟨modify name (fun _ => after) shutdown.processes, place⟩
      (log ++ [.observed check name result]) := by
  have same : ∀ seen running, .observed .last seen running ∈
      log ++ [.observed check name result] ↔ .observed .last seen running ∈ log := by
    intro seen running
    simp [Ne.symm other]
  have none : ∀ seen running, .observed .last seen running ∉ log := look.early early going
  constructor
  case known => exact fun _ _ _ seen => look.known_concat entry seen
  case early =>
    intro _ _ seen running
    rw [same]
    exact none seen running
  case fresh => exact fun rest pending => absurd (still.symm.trans pending) (by simp)
  case checked => exact fun rest pending => absurd (still.symm.trans pending) (by simp)
  case last =>
    exact fun seen running member => absurd ((same seen running).mp member) (none seen running)
  case detaching => exact fun seen rest here => absurd here (ne_detach still seen rest)
  case detached =>
    intro seen _
    rw [same, ← look.detached seen (ne_detach early seen)]
    simp

/-- An answer in the last loop. -/
theorem observe_last (look : LastLook shutdown log) {rest : List String}
    (here : shutdown.place = .check (name :: rest))
    (entry : shutdown.processes.lookup name = some process) :
    LastLook ⟨modify name (fun _ => after) shutdown.processes,
      if result then .detach name rest else .check rest⟩
      (log ++ [.observed .last name result]) := by
  obtain ⟨nodup, subset, unseen⟩ := look.fresh (name :: rest) (by rw [here]; rfl)
  obtain ⟨absent, nodup⟩ := List.nodup_cons.mp nodup
  have pending : ∀ others, (if result then Place.detach name rest else .check rest).pending =
      some others → others = rest := by
    intro others pends
    cases result <;> exact (Option.some.inj pends).symm
  constructor
  case known => exact fun _ _ _ seen => look.known_concat entry seen
  case early =>
    intro ended
    cases result <;> cases ended
  case fresh =>
    intro others pends
    obtain rfl := pending others pends
    refine ⟨nodup, ?_, ?_⟩
    · intro other member
      simpa [names] using subset (List.mem_cons_of_mem _ member)
    · intro other member running seen
      rw [List.mem_append, List.mem_singleton] at seen
      rcases seen with before | now
      · exact unseen other (List.mem_cons_of_mem _ member) running before
      · cases now
        exact absent member
  case checked =>
    intro others pends other member visited
    obtain rfl := pending others pends
    by_cases same : other = name
    · subst same
      exact ⟨result, by simp⟩
    · have before : other ∈ shutdown.names := by simpa [names] using member
      obtain ⟨running, seen⟩ := look.checked (name :: others) (by rw [here]; rfl) other before
        (by simp [same, visited])
      exact ⟨running, List.mem_append_left _ seen⟩
  case last =>
    intro other running seen
    rw [List.mem_append, List.mem_singleton] at seen
    rw [lastObserved_concat]
    rcases seen with before | now
    · have different : name ≠ other := by
        rintro rfl
        exact unseen name List.mem_cons_self running before
      simpa [ShutdownEvent.answerAbout, different] using look.last other running before
    · cases now
      simp [ShutdownEvent.answerAbout]
  case detaching =>
    intro other others arrived
    cases result <;> cases arrived
    simp
  case detached =>
    intro other elsewhere
    have before := look.detached other (by simp [here])
    by_cases same : other = name
    · subst same
      cases result with
      | true => exact absurd rfl (elsewhere rest)
      | false => simpa using before
    · simpa [same] using before

/-- A step that asks about nothing and detaches nothing. -/
theorem goto (look : LastLook shutdown log) {place : Place} {shown : Option ShutdownEvent}
    (silent : ∀ check name running, shown ≠ some (.observed check name running))
    (kept : ∀ name, shown ≠ some (.detached name))
    (pending : place ≠ .raised → place.pending = shutdown.place.pending)
    (going : shutdown.place ≠ .raised)
    (here : ∀ name rest, shutdown.place ≠ .detach name rest)
    (there : ∀ name rest, place ≠ .detach name rest) :
    LastLook (shutdown.goto place) (log ++ shown.toList) := by
  have seen_iff : ∀ check name running, .observed check name running ∈ log ++ shown.toList ↔
      .observed check name running ∈ log := by
    intro check name running
    rw [List.mem_append, Option.mem_toList, or_iff_left (silent check name running)]
  have unchanged : ∀ name, lastObserved (log ++ shown.toList) name = lastObserved log name := by
    intro name
    cases shown with
    | none => simp
    | some event =>
      rw [Option.toList_some, lastObserved_concat]
      cases event with
      | observed check other running => exact absurd rfl (silent check other running)
      | sent | detached => rfl
  have alive : ∀ rest, place.pending = some rest → shutdown.place.pending = some rest := by
    intro rest pends
    rw [← pending (by rintro rfl; cases pends)]
    exact pends
  constructor
  case known =>
    intro check name running seen
    exact look.known check name running ((seen_iff _ _ _).mp seen)
  case early =>
    intro early running name result seen
    exact look.early ((pending running).symm.trans early) going name result
      ((seen_iff _ _ _).mp seen)
  case fresh =>
    intro rest pends
    obtain ⟨nodup, subset, unseen⟩ := look.fresh rest (alive rest pends)
    exact ⟨nodup, subset, fun name member running seen =>
      unseen name member running ((seen_iff _ _ _).mp seen)⟩
  case checked =>
    intro rest pends name member visited
    obtain ⟨running, seen⟩ := look.checked rest (alive rest pends) name member visited
    exact ⟨running, (seen_iff _ _ _).mpr seen⟩
  case last =>
    intro name running seen
    rw [unchanged]
    exact look.last name running ((seen_iff _ _ _).mp seen)
  case detaching => exact fun name rest arrived => absurd arrived (there name rest)
  case detached =>
    intro name _
    rw [seen_iff, ← look.detached name (here name), List.mem_append, Option.mem_toList,
      or_iff_left (kept name)]

/-- The last loop begins. -/
theorem begin (look : LastLook shutdown log) (early : shutdown.place.pending = none)
    (going : shutdown.place ≠ .raised) :
    LastLook (shutdown.goto (.check shutdown.names)) log where
  known := look.known
  early := fun ended => by cases ended
  fresh := by
    intro rest pends
    obtain rfl := Option.some.inj pends
    exact ⟨shutdown.processes.keys_nodup, List.Subset.refl _,
      fun name _ => look.early early going name⟩
  checked := by
    intro rest pends name member visited
    obtain rfl := Option.some.inj pends
    exact absurd member visited
  last := look.last
  detaching := fun name rest arrived => by cases arrived
  detached := fun name _ => look.detached name (ne_detach early name)

/-- A process that has been found in the last loop is detached. -/
theorem detach (look : LastLook shutdown log) {rest : List String}
    (here : shutdown.place = .detach name rest) :
    LastLook (shutdown.goto (.check rest)) (log ++ [.detached name]) where
  known := by simpa using look.known
  early := fun ended => by cases ended
  fresh := by
    intro others pends
    simpa using look.fresh others (by rw [here]; exact pends)
  checked := by
    intro others pends
    simpa using look.checked others (by rw [here]; exact pends)
  last := by
    intro other running seen
    rw [lastObserved_concat]
    exact look.last other running (by simpa using seen)
  detaching := fun other others arrived => by cases arrived
  detached := by
    intro other _
    by_cases same : other = name
    · subst same
      have found := look.detaching other rest here
      simpa using found
    · have before := look.detached other (by simp [here, Ne.symm same])
      simpa [same] using before

theorem step (look : LastLook shutdown log) {shown : Option ShutdownEvent}
    (step : Step shutdown next shown) : LastLook next (log ++ shown.toList) := by
  cases step with
  | @observed check name process after answer result asked entry ran =>
    rcases asks_cases asked with ⟨value, rest, here, rfl⟩ | ⟨_, _, _, _, here, rfl⟩ | ⟨_, here, rfl⟩
    · apply look.observe_early entry <;> simp [here, Place.pending]
      cases result <;> rfl
    · apply look.observe_early entry <;> simp [here, Place.pending, answered]
    · rw [here]
      exact look.observe_last here entry
  | raised asked =>
    have asking : shutdown.place ≠ .raised ∧ ∀ name rest, shutdown.place ≠ .detach name rest := by
      rcases asks_cases asked with ⟨_, _, here, _⟩ | ⟨_, _, _, _, here, _⟩ | ⟨_, here, _⟩ <;>
        simp [here]
    apply look.goto <;> simp [asking]
  | @sent value name rest process goal place entry goes =>
    apply look.goto
    case pending =>
      intro going
      rcases goes with rfl | rfl
      · rw [place]
        rfl
      · exact absurd rfl going
    case there => rcases goes with rfl | rfl <;> simp
    case silent => split <;> simp
    case kept => split <;> simp
    all_goals simp [place]
  | waits place => apply look.goto <;> simp [place, Place.pending]
  | polls place =>
    rcases place with place | ⟨deadline, place⟩ <;>
      apply look.goto <;> simp [place, Place.pending]
  | @escalates value deadline place =>
    have early : shutdown.place.pending = none := by
      rw [place]
      rfl
    cases value with
    | interrupt | terminate =>
      apply look.goto <;> simp [place, escalate, Signal.next, Place.pending]
    | kill => simpa [escalate, Signal.next] using look.begin early (by simp [place])
  | stopped place => apply look.goto <;> simp [place, Place.pending]
  | failed place => apply look.goto <;> simp [place, Place.pending]
  | detached place => exact look.detach place

end LastLook

end Shutdown

/-- Calls of `shutdownProcesses` with their log. -/
def loggedShutdown (processes : Map String OwnedProcess) (grace : Int) :
    System (Shutdown × List ShutdownEvent) ShutdownLabel :=
  (shutdownProcesses processes grace).withLog Shutdown.event

section Reached

variable {processes : Map String OwnedProcess} {grace : Int}
  {call : Shutdown × List ShutdownEvent}

theorem orderly_of_reachable (reachable : (loggedShutdown processes grace).Reachable call) :
    call.1.Orderly call.2 := by
  apply reachable.invariant fun call => call.1.Orderly call.2
  · exact .initial processes grace
  · intro before label next orderly _ taken
    obtain ⟨steps, appended⟩ := System.withLog_step_iff.mp taken
    rw [appended]
    exact orderly.step (Shutdown.step_cases steps)

theorem lastLook_of_reachable (reachable : (loggedShutdown processes grace).Reachable call) :
    call.1.LastLook call.2 := by
  apply reachable.invariant fun call => call.1.LastLook call.2
  · exact .initial processes grace
  · intro before label next look _ taken
    obtain ⟨steps, appended⟩ := System.withLog_step_iff.mp taken
    rw [appended]
    exact look.step (Shutdown.step_cases steps)

end Reached

/-- What is to be expected of a call, whatever the operating system answers. -/
structure Disciplined (shutdown : Shutdown) (log : List ShutdownEvent) : Prop where
  /-- No signal goes to a process that has been seen to be gone. -/
  spared : ∀ before name value after, log = before ++ .sent name value :: after →
    ∀ check, .observed check name false ∉ before
  /-- What has been seen to be gone stays so. -/
  stays : ∀ before check name after, log = before ++ .observed check name true :: after →
    ∀ other, .observed other name false ∉ before
  terminated : ∀ before name after, log = before ++ .sent name .terminate :: after →
    .sent name .interrupt ∈ before
  killed : ∀ before name after, log = before ++ .sent name .kill :: after →
    .sent name .terminate ∈ before
  /-- Success means that every process has been seen to be gone. -/
  stopped : shutdown.place = .returned true →
    ∀ name ∈ shutdown.names, ∃ check, .observed check name false ∈ log
  /-- After a failure exactly the processes that were running in the last loop, which asks
  about all of them, have been detached. -/
  detached : shutdown.place = .returned false →
    (∀ name ∈ shutdown.names, ∃ running, .observed .last name running ∈ log) ∧
    ∀ name, .detached name ∈ log ↔ .observed .last name true ∈ log

/-- Every call keeps the discipline. -/
theorem disciplined_of_reachable {processes : Map String OwnedProcess} {grace : Int}
    {call : Shutdown × List ShutdownEvent}
    (reachable : (loggedShutdown processes grace).Reachable call) :
    Disciplined call.1 call.2 := by
  have orderly := orderly_of_reachable reachable
  have look := lastLook_of_reachable reachable
  constructor
  case spared => exact fun before name value after split =>
    (orderly.justified before _ after split).1
  case stays => exact fun before check name after split =>
    orderly.justified before _ after split rfl
  case terminated => exact fun before name after split =>
    (orderly.justified before _ after split).2 .interrupt rfl
  case killed => exact fun before name after split =>
    (orderly.justified before _ after split).2 .terminate rfl
  case stopped => exact orderly.stopped
  case detached =>
    intro failed
    refine ⟨fun name member => look.checked [] (by rw [failed]; rfl) name member (by simp), ?_⟩
    exact fun name => look.detached name (by simp [failed])

/-- A process of either kind. -/
def twoProcesses : Map String OwnedProcess :=
  AList.insert "console" ⟨false, false, false⟩ (AList.singleton "layer" ⟨true, false, false⟩)

/-- A signal to both and a round of polling, at the end of which both are still there. -/
def survivedRound (start : Int) : List ShutdownLabel :=
  [.running ⟨some true, true⟩, .signal false, .running ⟨some true, true⟩, .signal false, .proceed,
    .now start, .running ⟨some true, true⟩, .running ⟨some true, true⟩, .now (start + 2000)]

/-- Both are interrupted, terminated and killed. -/
def survived : List ShutdownLabel :=
  survivedRound 0 ++ survivedRound 2000 ++ survivedRound 4000

/-- One of them exits before the last loop. -/
def oneLeft : List ShutdownLabel :=
  survived ++ [.running ⟨some false, false⟩, .running ⟨some true, true⟩, .proceed, .proceed]

/-- Both exit before the last loop. -/
def noneLeft : List ShutdownLabel :=
  survived ++ [.running ⟨some false, false⟩, .running ⟨some false, false⟩, .proceed]

/-- The discipline of a shutdown that fails. -/
theorem disciplined_oneLeft : ∃ call,
    (loggedShutdown twoProcesses 2000).run oneLeft = some call ∧
      call.1.place = .returned false ∧ Disciplined call.1 call.2 := by
  have failed : ((loggedShutdown twoProcesses 2000).run oneLeft).any (fun call =>
      call.1.place == .returned false) = true := by
    decide
  obtain ⟨call, replayed, returned⟩ := (Option.any_eq_true _ _).mp failed
  exact ⟨call, replayed, eq_of_beq returned, disciplined_of_reachable
    (System.ReachableUnder.initial.replay replayed)⟩

/-- In the last loop the operating system finds a process. -/
def FindsOne (processes : Map String OwnedProcess) (grace : Int) (labels : List ShutdownLabel) :
    Prop :=
  ∃ before answer after call name rest process,
    labels = before ++ .running answer :: after ∧
    (shutdownProcesses processes grace).run before = some call ∧
    call.place = .check (name :: rest) ∧ call.processes.lookup name = some process ∧
    process.Found answer

/-- The step that shows an answer of the last loop. -/
theorem event_eq_last_iff {shutdown : Shutdown} {label : ShutdownLabel} {name : String} :
    shutdown.event label = some (.observed .last name true) ↔ ∃ answer rest process,
      label = .running answer ∧ shutdown.place = .check (name :: rest) ∧
      shutdown.processes.lookup name = some process ∧ process.Found answer := by
  constructor
  · intro shown
    cases label with
    | running answer =>
      simp only [Shutdown.event, Option.bind_eq_bind, Option.bind_eq_some_iff] at shown
      obtain ⟨⟨check, other⟩, asked, process, entry, ⟨result, after⟩, ran, same⟩ := shown
      cases same
      rcases Shutdown.asks_cases asked with ⟨_, _, _, wrong⟩ | ⟨_, _, _, _, _, wrong⟩ |
        ⟨rest, place, _⟩
      · cases wrong
      · cases wrong
      · exact ⟨answer, rest, process, rfl, place, entry,
          (OwnedProcess.running_cases ran).1.mp rfl⟩
    | signal fails =>
      simp only [Shutdown.event] at shown
      split at shown
      · simp only [Option.bind_eq_bind, Option.bind_eq_some_iff] at shown
        obtain ⟨process, _, shown⟩ := shown
        split at shown <;> cases shown
      · cases shown
    | now time => cases shown
    | proceed =>
      simp only [Shutdown.event] at shown
      split at shown <;> cases shown
  · rintro ⟨answer, rest, process, rfl, place, entry, found⟩
    obtain ⟨after, ran⟩ := found.running
    simp [Shutdown.event, Shutdown.asks, place, entry, ran]

/-- The last answer about a process is one of those in the log. -/
theorem mem_of_lastObserved {log : List ShutdownEvent} {name : String} {running : Bool}
    (last : lastObserved log name = some running) :
    ∃ check, .observed check name running ∈ log := by
  obtain ⟨event, member, answer⟩ := List.mem_filterMap.mp (List.mem_of_getLast? last)
  unfold ShutdownEvent.answerAbout at answer
  split at answer
  next check other result =>
    split at answer
    next same =>
      obtain rfl := same
      obtain rfl := Option.some.inj answer
      exact ⟨check, member⟩
    next => cases answer
  next => cases answer

/-- A failure is backed by the last answer about some process exactly if the operating system
finds one in the last loop. -/
theorem backed_iff_findsOne {processes : Map String OwnedProcess} {grace : Int}
    {labels : List ShutdownLabel} {shutdown : Shutdown} {log : List ShutdownEvent}
    (replayed : (loggedShutdown processes grace).run labels = some (shutdown, log))
    (failed : shutdown.place = .returned false) :
    (∃ name, lastObserved log name = some true) ↔ FindsOne processes grace labels := by
  have look := lastLook_of_reachable (System.ReachableUnder.initial.replay replayed)
  have answers : ∀ name, lastObserved log name = some true ↔ .observed .last name true ∈ log := by
    intro name
    refine ⟨fun last => ?_, look.last name true⟩
    obtain ⟨check, seen⟩ := mem_of_lastObserved last
    obtain ⟨running, checked⟩ := look.checked [] (by rw [failed]; rfl) name
      (look.known check name true seen) (by simp)
    obtain rfl := Option.some.inj ((look.last name running checked).symm.trans last)
    exact checked
  have steps := System.mem_log_iff replayed
  constructor
  · rintro ⟨name, last⟩
    rcases (steps _).mp ((answers name).mp last) with none |
      ⟨before, label, after, call, split, reached, shown⟩
    · cases none
    · obtain ⟨answer, rest, process, rfl, place, entry, found⟩ := event_eq_last_iff.mp shown
      exact ⟨before, answer, after, call, name, rest, process, split, reached, place, entry, found⟩
  · rintro ⟨before, answer, after, call, name, rest, process, split, reached, place, entry, found⟩
    have shown := event_eq_last_iff.mpr ⟨answer, rest, process, rfl, place, entry, found⟩
    exact ⟨name, (answers name).mpr ((steps _).mpr
      (.inr ⟨before, .running answer, after, call, split, reached, shown⟩))⟩

/-- A failure with a process that is found. -/
theorem backed_oneLeft : ∃ shutdown log,
    (loggedShutdown twoProcesses 2000).run oneLeft = some (shutdown, log) ∧
      shutdown.place = .returned false ∧
      ((∃ name, lastObserved log name = some true) ↔ FindsOne twoProcesses 2000 oneLeft) := by
  have failed : ((loggedShutdown twoProcesses 2000).run oneLeft).any (fun call =>
      call.1.place == .returned false) = true := by
    decide
  obtain ⟨⟨shutdown, log⟩, replayed, returned⟩ := (Option.any_eq_true _ _).mp failed
  exact ⟨shutdown, log, replayed, eq_of_beq returned,
    backed_iff_findsOne replayed (eq_of_beq returned)⟩

/-- A failure is reported although the last answers are that no process is left. -/
theorem failure_without_survivors : ∃ shutdown log,
    (loggedShutdown twoProcesses 2000).run noneLeft = some (shutdown, log) ∧
      shutdown.place = .returned false ∧
      ∀ name ∈ shutdown.names, lastObserved log name = some false := by
  have failed : ((loggedShutdown twoProcesses 2000).run noneLeft).any (fun call =>
      call.1.place == .returned false &&
        call.1.names.all fun name => lastObserved call.2 name == some false) = true := by
    decide
  obtain ⟨⟨shutdown, log⟩, replayed, passes⟩ := (Option.any_eq_true _ _).mp failed
  simp only [Bool.and_eq_true, beq_iff_eq, List.all_eq_true] at passes
  exact ⟨shutdown, log, replayed, passes.1, passes.2⟩

end Dls2.Utils
