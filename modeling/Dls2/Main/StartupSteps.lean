import Dls2.Main.StartupPlan

/-!
# The functions of a startup

Each function of the startup node is described once: the actions that it takes, what it has
seen when it returns, and that it reports what it did not reach. The rules that it is held to
are those of `order`, and all that is known of the surroundings is that they do not reset the
flag that ends the startup.
-/

namespace Dls2.Main

open Dialogue CoreFramework Utils

namespace Log

@[simp] theorem actions_nil : actions [] = [] := rfl

@[simp] theorem actions_append (log more : Log) :
    actions (log ++ more) = actions log ++ actions more :=
  List.filterMap_append

@[simp] theorem actions_cons (event : Said Answer) (log : Log) :
    actions (event :: log) = (action event).toList ++ actions log := by
  unfold actions
  cases h : action event <;> simp [h]

theorem QuitSeen.append {log : Log} (seen : QuitSeen log) (more : Log) : QuitSeen (log ++ more) :=
  List.mem_append_left _ seen

theorem Reports.left {log : Log} (reports : Reports log) (more : Log) : Reports (log ++ more) :=
  reports.imp fun _ member => List.mem_append_left _ member

theorem Reports.right {log : Log} (reports : Reports log) (before : Log) :
    Reports (before ++ log) :=
  reports.imp fun _ member => List.mem_append_right _ member

theorem LayerUp.append {id : String} {log : Log} (up : LayerUp id log) (more : Log) :
    LayerUp id (log ++ more) := by
  obtain ⟨args, ownGroup, found⟩ := up
  exact ⟨args, ownGroup, found.trans (List.sublist_append_left _ _)⟩

/-- Layers that are started on top have to come up. -/
theorem AllUp.extend {log more : Log} (up : AllUp log)
    (comes : ∀ id args ownGroup, .start id args ownGroup ∈ actions more → IsLayer args →
      LayerUp id (log ++ more)) : AllUp (log ++ more) := by
  intro id args ownGroup member layer
  rcases List.mem_append.mp member with member | member
  · exact (up id args ownGroup member layer).append more
  · exact comes id args ownGroup (List.mem_filterMap.mpr ⟨_, member, rfl⟩) layer

/-- What takes no action starts no layer. -/
theorem AllUp.append {log more : Log} (up : AllUp log) (quiet : actions more = []) :
    AllUp (log ++ more) :=
  up.extend fun id args ownGroup started => by simp [quiet] at started

/-- Where all layers are up, all others are. -/
theorem AllUp.others {log : Log} (up : AllUp log) (owner : String) : OthersUp owner log :=
  fun id args ownGroup member layer _ => up id args ownGroup member layer

/-- A layer that is started on top is the only one that has still to come up. -/
theorem AllUp.started {log : Log} (up : AllUp log) (id : String) (args : List String)
    (ownGroup : Bool) : OthersUp id (log ++ [started id args ownGroup]) := by
  intro other args' ownGroup' member layer different
  rcases List.mem_append.mp member with member | member
  · exact (up other args' ownGroup' member layer).append _
  · have same : other = id ∧ args' = args ∧ ownGroup' = ownGroup := by
      simpa [Log.started] using member
    exact absurd same.1 different

theorem OthersUp.append {owner : String} {log more : Log} (up : OthersUp owner log)
    (quiet : actions more = []) : OthersUp owner (log ++ more) := by
  intro id args ownGroup member layer different
  rcases List.mem_append.mp member with member | member
  · exact (up id args ownGroup member layer different).append more
  · have none : Action.start id args ownGroup ∈ actions more :=
      List.mem_filterMap.mpr ⟨_, member, rfl⟩
    simp [quiet] at none

/-- Two sightings, one after the other. -/
theorem sublist_pair {first second : Said Answer} {log more : Log} (early : first ∈ log)
    (late : second ∈ more) : List.Sublist [first, second] (log ++ more) :=
  (List.singleton_sublist.mpr early).append (List.singleton_sublist.mpr late)

end Log

namespace RunDLS2

open Main.Log

/-- When a process may be started. -/
def MayStart (past : Log) : Prop := Running past ∧ AllUp past

/-- When a command may be called. A layer is not yet up when it is told to activate. -/
structure MayCall (past : Log) (name owner : String) : Prop where
  running : Running past
  found : ∃ before, past = before ++ [foundOne owner name]
  idle : name = "activate" →
    ∃ first, Introduces owner first ∧ List.Sublist [first, saw owner "idle"] past
  others : OthersUp owner past
  up : name ≠ "activate" → AllUp past

/-- The order of a startup, in surroundings that do not reset the flag. -/
def order : Rules Answer where
  may past
    | .startProcess _ _ _ => MayStart past
    | .callCommand name _ owner => MayCall past name owner
    | _ => True
  keeps past
    | .shouldQuit, answer => QuitSeen past → answer = true
    | _, _ => True

variable {past : Log}

/-- Once the flag has been seen to be set, it is set. -/
theorem adds_shouldQuit : Program.Adds order past shouldQuit fun said result =>
    ∃ quitting, result = .ok quitting ∧ actions said = [] ∧
      (quitting = false ↔ Running (past ++ said)) := by
  refine Program.adds_query trivial fun quitting kept => ⟨quitting, rfl, by simp [action], ?_⟩
  cases quitting with
  | true => simp [Running, QuitSeen]
  | false =>
    refine iff_of_true rfl fun seen => ?_
    rcases List.mem_append.mp seen with seen | seen
    · exact Bool.false_ne_true (kept seen)
    · simp at seen

theorem adds_cerr (text : String) : Program.Adds order past (cerr text) fun said result =>
    result = .ok () ∧ actions said = [] ∧ Reports said :=
  Program.adds_query trivial fun _ _ => ⟨rfl, by simp [action], text, by simp⟩

/-- `waitState` takes no action, and returns true only when it has seen the state and the flag
is not set. -/
theorem adds_waitState (app state : String) :
    Program.Adds order past (waitState waiting findState app state false) fun said result =>
      ∃ reached, result = .ok reached ∧ actions said = [] ∧
        (reached = true → saw app state ∈ said ∧ Running (past ++ said)) := by
  have polled : Program.Adds order past
      (wait waiting (findState app state) 5000 waitPollPeriodMs waitPollPeriodMs_pos)
      fun said result => ∃ reached, result = .ok reached ∧ actions said = [] ∧
        (reached = true → saw app state ∈ said) := by
    have quiet {said : Log} {later : Log} (more : Log) (split : later = past ++ said)
        (none : actions said = []) (idle : actions more = []) :
        later ++ more = past ++ (said ++ more) ∧ actions (said ++ more) = [] := by
      subst split
      simp [none, idle]
    refine meets_waitFrom (fun _ later => ∃ said, later = past ++ said ∧ actions said = [])
      (fun _ later => ∃ said, later = past ++ said ∧ actions said = []) ?_ ?_ ?_
      ⟨[], by simp, rfl⟩
    · rintro _ later ⟨said, split, none⟩
      refine ⟨trivial, fun quitting _ => ?_⟩
      obtain ⟨split, none⟩ := quiet [⟨.shouldQuit, quitting⟩] split none (by simp [action])
      cases quitting with
      | true => exact ⟨_, split, false, rfl, none, by simp⟩
      | false => exact ⟨_, split, none⟩
    · rintro _ later _ ⟨said, split, none⟩
      exact ⟨said, split, false, rfl, none, by simp⟩
    · rintro _ later _ ⟨said, split, none⟩
      refine ⟨trivial, fun seen _ => ?_⟩
      obtain ⟨split, none⟩ := quiet [⟨.findState app state, seen⟩] split none (by simp [action])
      cases seen with
      | true => exact ⟨_, split, true, rfl, none, fun _ => by simp [saw]⟩
      | false =>
        refine ⟨trivial, fun more _ => ?_⟩
        obtain ⟨split, none⟩ := quiet [⟨.sleepFor waitPollPeriodMs, more⟩] split none
          (by simp [action])
        exact ⟨_, split, none⟩
  refine polled.bind ?_ ?_
  · rintro said reached ⟨_, ⟨⟩, none, seen⟩
    refine adds_shouldQuit.bind ?_ ?_
    · rintro asked quitting ⟨_, ⟨⟩, still, running⟩
      simp only [Bool.and_false, Bool.false_eq_true, if_false]
      refine Program.adds_done ⟨reached && !quitting, rfl, by simp [none, still], ?_⟩
      simp only [Bool.and_eq_true, Bool.not_eq_true', List.append_nil]
      rintro ⟨held, unset⟩
      exact ⟨List.mem_append_left _ (seen held), by simpa using running.mp unset⟩
    · rintro asked error ⟨_, ⟨⟩, _⟩
  · rintro said error ⟨_, ⟨⟩, _⟩

/-- `waitForState` reports what it does not reach. -/
theorem adds_waitForState (report app state : String) :
    Program.Adds order past (waitForState report app state) fun said result =>
      ∃ reached, result = .ok reached ∧ actions said = [] ∧
        (reached = true → saw app state ∈ said ∧ Running (past ++ said)) ∧
        (reached = false → Reports said) := by
  have looped : Program.Adds order past (Program.retry shouldQuit (fun _ : Unit => do
        let reached ← waitState waiting findState app state false
        if reached then return .inr () else return .inl ())
      (rounds startupStateTimeoutMs 5000) ())
      fun said result => ∃ ended : Unit ⊕ Unit, result = .ok ended ∧ actions said = [] ∧
        (ended = .inr () → saw app state ∈ said ∧ Running (past ++ said)) := by
    refine Program.Adds.retry (fun _ said => actions said = []) ?_ ?_ rfl
    · exact fun _ said none => ⟨.inl (), rfl, none, by simp⟩
    · intro _ said none
      refine adds_shouldQuit.mono fun asked answer => ?_
      rintro ⟨quitting, rfl, still, -⟩
      cases quitting with
      | true => exact ⟨.inl (), rfl, by simp [none, still], by simp⟩
      | false =>
        refine (adds_waitState app state).bind ?_ ?_
        · rintro waited reached ⟨_, ⟨⟩, quiet, seen⟩
          cases reached with
          | true =>
            refine Program.adds_done ⟨.inr (), rfl, by simp [none, still, quiet], fun _ => ?_⟩
            obtain ⟨found, running⟩ := seen rfl
            simp only [List.append_nil, List.mem_append, ← List.append_assoc] at running ⊢
            exact ⟨.inr found, running⟩
          | false => exact Program.adds_done (by simp [Program.Carries, none, still, quiet])
        · rintro waited error ⟨_, ⟨⟩, _⟩
  refine looped.bind ?_ ?_
  · rintro said ended ⟨_, ⟨⟩, none, seen⟩
    match ended with
    | .inr () =>
      exact Program.adds_done ⟨true, rfl, by simp [none], by simpa using seen rfl, by simp⟩
    | .inl () =>
      refine (adds_cerr _).bind ?_ ?_
      · rintro printed _ ⟨_, still, reports⟩
        exact Program.adds_done ⟨false, rfl, by simp [none, still], by simp, fun _ => by
          simpa using reports.right said⟩
      · rintro printed error ⟨⟨⟩, _⟩
  · rintro said error ⟨_, ⟨⟩, _⟩

/-- What the called command needs to have come before it. -/
structure CallReady (past : Log) (name owner : String) : Prop where
  idle : name = "activate" →
    ∃ first, Introduces owner first ∧ List.Sublist [first, saw owner "idle"] past
  others : OthersUp owner past
  up : name ≠ "activate" → AllUp past

theorem CallReady.append {name owner : String} {more : Log} (ready : CallReady past name owner)
    (quiet : actions more = []) : CallReady (past ++ more) name owner where
  idle activates := by
    obtain ⟨first, introduces, found⟩ := ready.idle activates
    exact ⟨first, introduces, found.trans (List.sublist_append_left _ _)⟩
  others := ready.others.append quiet
  up other := (ready.up other).append quiet

/-- `callWhenUnique` sends its command at most once. -/
theorem adds_callWhenUnique {owner command : String} (args : List String)
    (ready : CallReady past command owner) :
    Program.Adds order past (callWhenUnique owner command args) fun said result =>
      ∃ ended, result = .ok ended ∧
        (ended = .inr () → actions said = [.call command args owner] ∧
          sent command args owner ∈ said) ∧
        (ended ≠ .inr () → actions said = []) := by
  refine Program.Adds.retry (fun _ said => actions said = []) ?_ ?_ rfl
  · exact fun carried said none => ⟨.inl carried, rfl, by simp, fun _ => none⟩
  · intro carried said none
    refine adds_shouldQuit.mono fun asked answer => ?_
    rintro ⟨quitting, rfl, still, running⟩
    cases quitting with
    | true => exact ⟨.inl carried, rfl, by simp, fun _ => by simp [none, still]⟩
    | false =>
      have unset := running.mp rfl
      refine Program.adds_query_bind trivial fun found _ => ?_
      by_cases one : found = 1
      · subst one
        simp only [ne_eq, not_true_eq_false, if_false]
        have quiet : actions (said ++ asked ++ [foundOne owner command]) = [] := by
          simp [none, still, action, foundOne]
        have later := ready.append quiet
        rw [← List.append_assoc] at later
        have may : MayCall (past ++ (said ++ asked) ++ [foundOne owner command]) command owner :=
          { running := by simpa [Running, QuitSeen, foundOne] using unset
            found := ⟨_, rfl⟩
            idle := later.idle
            others := later.others
            up := later.up }
        refine Program.adds_query_bind may fun called _ => ?_
        by_cases delivered : called = 1
        · subst delivered
          simp only [if_true]
          refine Program.adds_done ⟨.inr (), rfl, fun _ => ?_, by simp⟩
          simp [none, still, action, sent]
        · simp only [delivered, if_false]
          refine Program.adds_done ?_
          simp [Program.Carries, none, still, action, delivered]
      · simp only [ne_eq, one, not_false_eq_true, if_true]
        refine Program.adds_query_bind trivial fun slept _ => Program.adds_done ?_
        simp [Program.Carries, none, still, action]

/-- A process is started, or the constructor throws. -/
theorem adds_ownedProcess {id : String} {args : List String} {ownGroup : Bool}
    (may : MayStart past) :
    Program.Adds order past (ownedProcess id args ownGroup) fun said result =>
      (result = .ok () ∧ said = [started id args ownGroup]) ∨
        ∃ error, result = .error error ∧ actions said = [] := by
  refine Program.adds_query_bind may fun answer _ => ?_
  cases answer with
  | ok value => exact Program.adds_done (.inl ⟨rfl, rfl⟩)
  | error error => exact Program.adds_fail (.inr ⟨error, rfl, by simp [action]⟩)

/-- The second of two conditions is only tested after the first. -/
theorem adds_andAlso {first second : Startup Bool}
    {holds result : Log → Except String Bool → Prop} (tested : Program.Adds order past first holds)
    (held : ∀ said, holds said (.ok true) → Program.Adds order (past ++ said) second
      fun more ended => result (said ++ more) ended)
    (failed : ∀ said, holds said (.ok false) → result said (.ok false))
    (thrown : ∀ said error, holds said (.error error) → result said (.error error)) :
    Program.Adds order past (andAlso first second) result := by
  refine tested.bind (fun said answer told => ?_) thrown
  cases answer with
  | true => exact held said told
  | false => exact Program.adds_done (by simpa using failed said told)

/-- What has become of a plan. Nothing else has been done, and nothing twice; where the result
is true, all layers are up, and the whole plan has been done provided that the history is
`fine`. -/
structure Follows (plan : List Action) (fine : Log → Prop) (past said : Log)
    (result : Except String Bool) : Prop where
  within : List.Sublist (actions said) plan
  up : result = .ok true → AllUp (past ++ said)
  done : result = .ok true → fine (past ++ said) → actions said = plan

/-- What remains fine has been fine before. -/
def Lasting (fine : Log → Prop) : Prop := ∀ log more, fine (log ++ more) → fine log

/-- A layer that has been started is activated, and is up when `bringUp` returns true. -/
theorem adds_bringUp {id : String} {args : List String} {ownGroup : Bool}
    (launched : started id args ownGroup ∈ past) (others : OthersUp id past) :
    Program.Adds order past (bringUp id) fun said result =>
      List.Sublist (actions said) [.call "activate" [] id] ∧ (result = .ok true →
        actions said = [.call "activate" [] id] ∧ LayerUp id (past ++ said)) := by
  refine adds_andAlso (adds_waitForState ("Layer " ++ id) id "idle") ?_ ?_ ?_
  · rintro waited ⟨_, ⟨⟩, quiet, seen, -⟩
    have idle := (seen rfl).1
    have ready : CallReady (past ++ waited) "activate" id :=
      { idle := fun _ => ⟨_, .inl ⟨args, ownGroup, rfl⟩, sublist_pair launched idle⟩
        others := others.append quiet
        up := by simp }
    refine (adds_callWhenUnique [] ready).bind ?_ (by rintro called error ⟨_, ⟨⟩, _⟩)
    rintro called ended ⟨_, ⟨⟩, delivered, missing⟩
    match ended with
    | .inr () =>
      obtain ⟨sending, sentTo⟩ := delivered rfl
      refine (adds_waitForState ("Layer " ++ id) id "run").mono fun ran result => ?_
      rintro ⟨reached, rfl, none, last, -⟩
      refine ⟨by simp [quiet, sending, none], fun rose => ⟨by simp [quiet, sending, none], ?_⟩⟩
      obtain rfl := Except.ok.inj rose
      refine ⟨args, ownGroup, ?_⟩
      rw [← List.append_assoc, ← List.append_assoc]
      exact ((sublist_pair launched idle).append (List.singleton_sublist.mpr sentTo)).append
        (List.singleton_sublist.mpr (last rfl).1)
    | .inl found =>
      have none := missing (by simp)
      refine (adds_cerr _).bind ?_ (by rintro printed error ⟨⟨⟩, _⟩)
      rintro printed _ ⟨_, still, -⟩
      exact Program.adds_done ⟨by simp [quiet, none, still], by simp⟩
  · rintro waited ⟨_, ⟨⟩, quiet, -⟩
    exact ⟨by simp [quiet], by simp⟩
  · rintro waited error ⟨_, ⟨⟩, _⟩

/-- A layer is started and brought up, and all layers are up when `runLayer` returns true. -/
theorem adds_runLayer (site : Site) (robotName lib id : String) (up : AllUp past) :
    Program.Adds order past (runLayer site robotName lib id)
      (Follows (layerPlan site robotName (lib, id)) (fun _ => True) past) := by
  refine adds_shouldQuit.bind ?_ (by rintro said error ⟨_, ⟨⟩, _⟩)
  rintro asked quitting ⟨_, ⟨⟩, still, running⟩
  cases quitting with
  | true => exact Program.adds_done ⟨by simp [still], by simp, by simp⟩
  | false =>
    simp only [Bool.false_eq_true, if_false]
    refine (adds_ownedProcess ⟨running.mp rfl, up.append still⟩).bind ?_ ?_
    · rintro launched value (⟨-, rfl⟩ | ⟨_, ⟨⟩, _⟩)
      have here : started id (layerArgs site robotName lib id) (lib != "console") ∈
          past ++ asked ++ [started id (layerArgs site robotName lib id) (lib != "console")] :=
        List.mem_append_right _ (List.mem_singleton_self _)
      have others := (up.append still).started id (layerArgs site robotName lib id)
        (lib != "console")
      refine (adds_bringUp here others).mono fun more result follows => ?_
      have within := follows.1.cons_cons
        (.start id (layerArgs site robotName lib id) (lib != "console"))
      refine ⟨by simpa [still, action, started, layerPlan] using within, fun rose => ?_,
        fun rose _ => by simp [still, action, started, layerPlan, (follows.2 rose).1]⟩
      obtain ⟨whole, raised⟩ := follows.2 rose
      refine up.extend fun other args ownGroup member layer => ?_
      obtain ⟨rfl, -⟩ : other = id ∧ args = layerArgs site robotName lib id ∧
          ownGroup = (lib != "console") := by
        simpa [still, action, started, whole] using member
      simpa using raised
    · rintro launched error (⟨⟨⟩, -⟩ | ⟨_, ⟨⟩, none⟩)
      exact ⟨by simp [still, none], by simp, by simp⟩

/-- Where each element of a list follows its plan, the list follows the plans in order. -/
theorem adds_eachWhile {ι : Type} {body : ι → Startup Bool} {plan : ι → List Action}
    {fine : Log → Prop} (lasting : Lasting fine)
    (turn : ∀ item past, AllUp past → Program.Adds order past (body item)
      (Follows (plan item) fine past))
    (items : List ι) (up : AllUp past) :
    Program.Adds order past (Program.eachWhile body items)
      (Follows (items.flatMap plan) fine past) := by
  induction items generalizing past with
  | nil => exact Program.adds_done ⟨by simp, fun _ => by simpa using up, fun _ _ => by simp⟩
  | cons first rest ih =>
    rw [List.flatMap_cons]
    refine (turn first past up).bind ?_ ?_
    · intro said goOn follows
      cases goOn with
      | false =>
        exact Program.adds_done ⟨by
          simpa using follows.within.trans (List.sublist_append_left _ _), by simp, by simp⟩
      | true =>
        refine (ih (follows.up rfl)).mono fun more result later => ⟨?_, fun ended => ?_,
          fun ended still => ?_⟩
        · simpa using follows.within.append later.within
        · simpa using later.up ended
        · rw [← List.append_assoc] at still
          simp [follows.done rfl (lasting _ _ still), later.done ended still]
    · exact fun said error follows =>
        ⟨follows.within.trans (List.sublist_append_left _ _), by simp, by simp⟩

theorem lasting_running : Lasting Running := fun _ more unset seen => unset (seen.append more)

/-- Layers are launched one after the other. Once the flag is set, what is left of them is
passed over, and `launchLayers` returns false. -/
theorem adds_launchLayers (site : Site) (robotName : String) (options : Options)
    (up : AllUp past) :
    Program.Adds order past (launchLayers site robotName options)
      (Follows (layersPlan site robotName (requestedLayers options)) (fun _ => True) past) := by
  have turn : ∀ layer past, AllUp past →
      Program.Adds order past (launchLayer site robotName layer)
        (Follows (layerPlan site robotName layer) Running past) := by
    intro layer past up
    refine adds_shouldQuit.bind ?_ (by rintro said error ⟨_, ⟨⟩, _⟩)
    rintro asked quitting ⟨_, ⟨⟩, still, running⟩
    cases quitting with
    | true =>
      have stopped : ¬ Running (past ++ asked) := by simpa using running
      exact Program.adds_done ⟨by simp [still], fun _ => by simpa using up.append still,
        fun _ unset => absurd (by simpa using unset) stopped⟩
    | false =>
      refine (adds_runLayer site robotName layer.1 layer.2 (up.append still)).mono
        fun more result follows => ⟨by simpa [still] using follows.within,
          fun rose => by simpa using follows.up rose,
          fun rose _ => by simpa [still] using follows.done rose trivial⟩
  refine (adds_eachWhile lasting_running turn (requestedLayers options) up).bind ?_ ?_
  · intro said launched follows
    cases launched with
    | false =>
      exact Program.adds_done ⟨by simpa [layersPlan] using follows.within, by simp, by simp⟩
    | true =>
      refine adds_shouldQuit.bind ?_ (by rintro asked error ⟨_, ⟨⟩, _⟩)
      rintro asked quitting ⟨_, ⟨⟩, still, running⟩
      refine Program.adds_done ⟨by simpa [still, layersPlan] using follows.within,
        fun ended => ?_, fun ended _ => ?_⟩
      · simpa using (follows.up rfl).append still
      · have unset := running.mp (by simpa using ended)
        simpa [still, layersPlan] using follows.done rfl (lasting_running _ _ unset)
  · exact fun said error follows => ⟨follows.within, by simp, by simp⟩

/-- What has become of the servers. -/
structure Served (plan : List Action) (past said : Log) (ended : Prop) : Prop where
  within : List.Sublist (actions said) plan
  up : AllUp (past ++ said)
  stopped : ¬ Running past → actions said = []
  done : ended → Running (past ++ said) → actions said = plan

/-- A server is started, with the next identifier, unless the flag is set. -/
theorem adds_launchSingleServer (serverId : ℕ) (ip : String) (port : Int) (up : AllUp past) :
    Program.Adds order past (launchSingleServer serverId ip port) fun said result =>
      Served (serverPlan serverId [.ok (ip, port)]) past said (∃ next, result = .ok next) ∧
        (¬ Running (past ++ said) → actions said = []) ∧
        ∀ next, result = .ok next → Running (past ++ said) → next = serverId + 1 := by
  refine adds_shouldQuit.bind ?_ (by rintro said error ⟨_, ⟨⟩, _⟩)
  rintro asked quitting ⟨_, ⟨⟩, still, running⟩
  have upper := up.append still
  cases quitting with
  | true =>
    have stopped : ¬ Running (past ++ asked) := by simpa using running
    refine Program.adds_done ⟨⟨by simp [still], by simpa using upper, by simp [still], ?_⟩,
      by simp [still], fun _ _ unset => absurd (by simpa using unset) stopped⟩
    exact fun _ unset => absurd (by simpa using unset) stopped
  | false =>
    have unset := running.mp rfl
    simp only [Bool.false_eq_true, if_false]
    refine (adds_ownedProcess ⟨unset, upper⟩).bind ?_ ?_
    · rintro launched value (⟨-, rfl⟩ | ⟨_, ⟨⟩, _⟩)
      have whole : actions (asked ++ [started ("DiscoveryServer" ++ toString serverId)
          (serverArgs serverId ip port) true]) = serverPlan serverId [.ok (ip, port)] := by
        simp [still, serverPlan]
      rw [← List.append_nil [started _ _ _], ← List.append_assoc] at whole
      refine Program.adds_done ⟨⟨?_, ?_, fun stopped => ?_, fun _ _ => ?_⟩, fun stopped => ?_,
        fun next ended _ => ?_⟩
      · rw [← List.append_assoc, whole]
      · rw [List.append_nil, ← List.append_assoc]
        refine upper.extend fun other args ownGroup member layer => ?_
        obtain ⟨-, rfl, -⟩ : _ ∧ args = _ ∧ _ := by simpa using member
        simp [IsLayer, serverArgs] at layer
      · exact absurd (lasting_running _ _ unset) stopped
      · rw [← List.append_assoc, whole]
      · refine absurd ?_ stopped
        simpa [Running, QuitSeen, started] using unset
      · exact (Except.ok.inj ended).symm
    · rintro launched error (⟨⟨⟩, -⟩ | ⟨_, ⟨⟩, none⟩)
      refine ⟨⟨by simp [still, none], ?_, by simp [still, none], by simp⟩, by simp [still, none],
        by simp⟩
      rw [← List.append_assoc]
      exact upper.append none

/-- The servers are started in order, up to the first that cannot be read. -/
theorem adds_servers (servers : List (Except String (String × Int))) (serverId : ℕ)
    (up : AllUp past) :
    Program.Adds order past
      (servers.foldlM (fun serverId server => do
        let (ip, port) ← lift server
        launchSingleServer serverId ip port) serverId)
      fun said result => Served (serverPlan serverId servers) past said
        (∃ next, result = .ok next) := by
  induction servers generalizing serverId past with
  | nil => exact Program.adds_done ⟨by simp, by simpa using up, by simp, by simp [serverPlan]⟩
  | cons server rest ih =>
    rw [List.foldlM_cons]
    obtain error | ⟨ip, port⟩ := server
    · exact Program.adds_fail ⟨by simp, by simpa using up, by simp, by simp⟩
    · refine (adds_launchSingleServer serverId ip port up).bind ?_ ?_
      · rintro said next ⟨served, stopped, following⟩
        have cut : serverPlan serverId (.ok (ip, port) :: rest) =
            serverPlan serverId [.ok (ip, port)] ++ serverPlan (serverId + 1) rest := rfl
        by_cases running : Running (past ++ said)
        · obtain rfl := following next rfl running
          refine (ih (serverId + 1) served.up).mono fun more result later => ⟨?_, ?_, ?_, ?_⟩
          · simpa [cut] using served.within.append later.within
          · simpa using later.up
          · exact fun stopped => absurd (lasting_running _ _ running) stopped
          · rintro ended unset
            rw [← List.append_assoc] at unset
            rw [cut, actions_append, served.done ⟨_, rfl⟩ running, later.done ended unset]
        · refine (ih next served.up).mono fun more result later => ?_
          have none : actions (said ++ more) = [] := by
            simp [stopped running, later.stopped running]
          refine ⟨by simp [none], by simpa using later.up, fun _ => none, fun _ unset => ?_⟩
          rw [← List.append_assoc] at unset
          exact absurd (lasting_running _ _ unset) running
      · rintro said error ⟨served, stopped, -⟩
        refine ⟨?_, served.up, served.stopped, by simp⟩
        exact served.within.trans (List.sublist_append_left _ (serverPlan (serverId + 1) rest))

/-- `callRequiredCommand` sends its command at most once, and reports when it does not. -/
theorem adds_callRequiredCommand {owner command : String} (args : List String)
    (ready : CallReady past command owner) :
    Program.Adds order past (callRequiredCommand owner command args) fun said result =>
      ∃ called, result = .ok called ∧
        (called = true → actions said = [.call command args owner] ∧
          sent command args owner ∈ said) ∧
        (called = false → actions said = [] ∧ Reports said) := by
  refine (adds_callWhenUnique args ready).bind ?_ (by rintro said error ⟨_, ⟨⟩, _⟩)
  rintro said ended ⟨_, ⟨⟩, delivered, missing⟩
  match ended with
  | .inr () => exact Program.adds_done ⟨true, rfl, by simpa using delivered rfl, by simp⟩
  | .inl found =>
    have none := missing (by simp)
    refine (adds_cerr _).bind ?_ (by rintro printed error ⟨⟨⟩, _⟩)
    rintro printed _ ⟨_, still, reports⟩
    exact Program.adds_done ⟨false, rfl, by simp, fun _ => by
      simpa [none, still] using reports.right said⟩

/-- An application is loaded, and activated when it is to be, each at most once. -/
theorem adds_startApplication (appsToActivate : List String) {name loadCommand : String}
    (layer : String) (loads : loadCommand ≠ "activate") (up : AllUp past) :
    Program.Adds order past (startApplication appsToActivate name loadCommand layer)
      fun said result => ∃ ready, result = .ok ready ∧ AllUp (past ++ said) ∧
        List.Sublist (actions said) (startPlan appsToActivate name loadCommand layer) ∧
        (ready = true → actions said = startPlan appsToActivate name loadCommand layer) := by
  have calls {plan : List Action} (only : ∀ id args ownGroup, .start id args ownGroup ∉ plan)
      {said : Log} (within : List.Sublist (actions said) plan) : AllUp (past ++ said) :=
    up.extend fun id args ownGroup member => absurd (within.subset member) (only id args ownGroup)
  have none : ∀ id args ownGroup,
      Action.start id args ownGroup ∉ startPlan appsToActivate name loadCommand layer := by
    unfold startPlan
    split <;> simp
  suffices Program.Adds order past (startApplication appsToActivate name loadCommand layer)
      fun said result => ∃ ready, result = .ok ready ∧
        List.Sublist (actions said) (startPlan appsToActivate name loadCommand layer) ∧
        (ready = true → actions said = startPlan appsToActivate name loadCommand layer) from
    this.mono fun said result ⟨ready, ended, within, done⟩ =>
      ⟨ready, ended, calls none within, within, done⟩
  have ready : CallReady past loadCommand layer :=
    ⟨fun activates => absurd activates loads, up.others layer, fun _ => up⟩
  refine adds_andAlso (adds_callRequiredCommand [name] ready) ?_ ?_ ?_
  · rintro loaded ⟨_, ⟨⟩, delivered, -⟩
    obtain ⟨loading, sentTo⟩ := delivered rfl
    refine adds_andAlso (adds_waitForState (startupReport name) name "idle") ?_ ?_ ?_
    · rintro waited ⟨_, ⟨⟩, quiet, seen, -⟩
      by_cases wanted : name ∈ appsToActivate
      · rw [if_pos wanted]
        have upper : AllUp (past ++ loaded) := up.extend fun id args ownGroup member => by
          simp [loading] at member
        have next : CallReady (past ++ loaded ++ waited) "activate" name :=
          { others := (upper.append quiet).others name
            idle := fun _ => ⟨_, .inr ⟨_, _, rfl⟩, by
              rw [List.append_assoc]
              exact (sublist_pair sentTo (seen rfl).1).trans (List.sublist_append_right _ _)⟩
            up := by simp }
        refine adds_andAlso (adds_callRequiredCommand [] next) ?_ ?_ ?_
        · rintro activated ⟨_, ⟨⟩, activating, -⟩
          refine (adds_waitForState (startupReport name) name "run").mono fun ran result => ?_
          rintro ⟨reached, rfl, still, -⟩
          have whole : actions (loaded ++ (waited ++ (activated ++ ran))) =
              startPlan appsToActivate name loadCommand layer := by
            simp [loading, quiet, (activating rfl).1, still, startPlan, wanted]
          exact ⟨reached, rfl, by rw [whole], fun _ => whole⟩
        · rintro missed ⟨_, ⟨⟩, -, missing⟩
          exact ⟨false, rfl, by simp [loading, quiet, (missing rfl).1, startPlan], by simp⟩
        · rintro missed error ⟨_, ⟨⟩, _⟩
      · rw [if_neg wanted]
        have whole : actions (loaded ++ (waited ++ [])) =
            startPlan appsToActivate name loadCommand layer := by
          simp [loading, quiet, startPlan, wanted]
        exact Program.adds_done ⟨true, rfl, by rw [whole], fun _ => whole⟩
    · rintro waited ⟨_, ⟨⟩, quiet, -⟩
      exact ⟨false, rfl, by simp [loading, quiet, startPlan], by simp⟩
    · rintro waited error ⟨_, ⟨⟩, _⟩
  · rintro missed ⟨_, ⟨⟩, -, missing⟩
    exact ⟨false, rfl, by simp [(missing rfl).1], by simp⟩
  · rintro missed error ⟨_, ⟨⟩, _⟩

/-- Nothing has been reported to have failed. -/
def Silent (log : Log) : Prop := ¬ Reports log

theorem lasting_silent : Lasting Silent := fun _ more silent reports => silent (reports.left more)

theorem adds_lift {α : Type} {value : Except String α} {holds : Log → Except String α → Prop}
    (held : holds [] value) : Program.Adds order past (lift value) holds := by
  cases value with
  | ok value => exact Program.adds_done held
  | error error => exact Program.adds_fail held

theorem adds_tryApplication (config : StartupConfig) (appType layer : String)
    {command : String} (name : String) (loads : command ≠ "activate") (up : AllUp past) :
    Program.Adds order past (tryApplication config appType layer command name)
      fun said result => result = .ok () ∧ AllUp (past ++ said) ∧
        List.Sublist (actions said) (startPlan config.appsToActivate name command layer) ∧
        (Silent said → actions said = startPlan config.appsToActivate name command layer) := by
  refine (adds_startApplication config.appsToActivate layer loads up).bind ?_
    (by rintro said error ⟨_, ⟨⟩, _⟩)
  rintro said ready ⟨_, ⟨⟩, upper, within, done⟩
  cases ready with
  | true =>
    exact Program.adds_done ⟨rfl, by simpa using upper, by simpa using within, fun _ => by
      simpa using done rfl⟩
  | false =>
    refine (adds_cerr _).mono fun printed result => ?_
    rintro ⟨rfl, still, reports⟩
    exact ⟨rfl, by simpa using upper.append still, by simpa [still] using within,
      fun silent => absurd (reports.right said) silent⟩

/-- The model is loaded at most once, and `loadModel` returns false where it is not. -/
theorem adds_loadModel (config : StartupConfig) (appType name : String) (up : AllUp past) :
    Program.Adds order past (loadModel config appType name)
      (Follows (modelPlan config appType name) (fun _ => True) past) := by
  have wanted : Program.Adds order past (loadsModel config appType) fun said result =>
      said = [] ∧ ∀ model, result = .ok model → modelPlan config appType name =
        if model then [.call "loadModel" [config.robotName, config.spawningHeight] name]
        else [] := by
    unfold loadsModel modelPlan
    split
    next hardware =>
      refine adds_lift ⟨rfl, fun model read => ?_⟩
      cases model <;> simp [read]
    next other =>
      refine Program.adds_done ⟨rfl, fun model read => ?_⟩
      obtain rfl := Except.ok.inj read
      split <;> simp
  refine wanted.bind ?_ ?_
  · rintro said model ⟨rfl, planned⟩
    rw [planned model rfl]
    cases model with
    | false =>
      exact Program.adds_done ⟨by simp, fun _ => by simpa using up, fun _ _ => by simp⟩
    | true =>
      simp only [if_true, List.append_nil, List.nil_append]
      refine adds_shouldQuit.bind ?_ (by rintro said error ⟨_, ⟨⟩, _⟩)
      rintro asked quitting ⟨_, ⟨⟩, still, -⟩
      cases quitting with
      | true => exact Program.adds_done ⟨by simp [still], by simp, by simp⟩
      | false =>
        simp only [Bool.false_eq_true, if_false]
        refine Program.adds_query_bind trivial fun slept _ => ?_
        refine adds_shouldQuit.bind ?_ (by rintro said error ⟨_, ⟨⟩, _⟩)
        rintro again quitting ⟨_, ⟨⟩, quiet, -⟩
        cases quitting with
        | true => exact Program.adds_done ⟨by simp [still, quiet, action], by simp, by simp⟩
        | false =>
          simp only [Bool.false_eq_true, if_false]
          have upper : AllUp (past ++ asked ++ [⟨.sleepFor 1000, slept⟩] ++ again) :=
            ((up.append still).append (by simp [action])).append quiet
          have ready : CallReady (past ++ asked ++ [⟨.sleepFor 1000, slept⟩] ++ again) "loadModel"
              name := ⟨by simp, upper.others name, fun _ => upper⟩
          refine (adds_callRequiredCommand _ ready).mono fun called result => ?_
          rintro ⟨done, rfl, sending, missing⟩
          cases done with
          | true =>
            refine ⟨by simp [still, quiet, action, (sending rfl).1], fun _ => ?_, fun _ _ => by
              simp [still, quiet, action, (sending rfl).1]⟩
            simpa using upper.extend fun id args ownGroup member => by
              simp [(sending rfl).1] at member
          | false => exact ⟨by simp [still, quiet, action, (missing rfl).1], by simp, by simp⟩
  · rintro said error ⟨rfl, -⟩
    exact ⟨by simp, by simp, by simp⟩

/-- An application is started and its model loaded, as far as either can be done. -/
theorem adds_launchApplication (config : StartupConfig) (appType layer : String)
    {command : String} (name : String) (loads : command ≠ "activate") (up : AllUp past) :
    Program.Adds order past (launchApplication config appType layer command name)
      (Follows (applicationPlan config appType layer command name) Silent past) := by
  refine (adds_tryApplication config appType layer name loads up).bind ?_
    (by rintro said error ⟨⟨⟩, _⟩)
  rintro said _ ⟨_, upper, within, done⟩
  refine (adds_loadModel config appType name upper).mono fun more result follows => ⟨?_,
    fun ended => by simpa using follows.up ended, fun ended silent => ?_⟩
  · simpa [applicationPlan] using within.append follows.within
  · have calm : Silent said := fun reports =>
      silent (by simpa using (reports.right past).left more)
    simp [applicationPlan, done calm, follows.done ended trivial]

/-- No application is loaded by the command that activates. -/
theorem instructionsSet_loads {appType layer command : String}
    (listed : instructionsSet.lookup appType = some (layer, command)) : command ≠ "activate" := by
  have all : ∀ entry ∈ instructionsSet, entry.2.2 ≠ "activate" := by decide
  obtain ⟨before, after, split, -⟩ := List.lookup_eq_some_iff.mp listed
  exact all (appType, layer, command) (by simp [split])

/-- The applications of one type are launched one after the other. -/
theorem adds_launchApplications (config : StartupConfig) (appType : String) (up : AllUp past) :
    Program.Adds order past (launchApplications config appType)
      (Follows (applicationsPlan config appType) Silent past) := by
  unfold launchApplications applicationsPlan
  cases config.appsToLaunch.lookup appType with
  | none => exact Program.adds_done ⟨by simp, fun _ => by simpa using up, fun _ _ => by simp⟩
  | some names =>
    cases listed : instructionsSet.lookup appType with
    | none =>
      cases names with
      | nil => exact Program.adds_done ⟨by simp, fun _ => by simpa using up, fun _ _ => by simp⟩
      | cons name rest => exact Program.adds_fail ⟨by simp, by simp, by simp⟩
    | some entry =>
      obtain ⟨layer, command⟩ := entry
      exact adds_eachWhile lasting_silent (fun name past up =>
        adds_launchApplication config appType layer name (instructionsSet_loads listed) up) names up

theorem adds_runServers (site : Site) (config : StartupConfig) (up : AllUp past) :
    Program.Adds order past (runServers site config) fun said result =>
      Served (requestedServers site config) past said (result = .ok ()) := by
  unfold runServers requestedServers
  split
  next asked =>
    unfold launchServers serversPlan
    cases site.serversConfig with
    | error error => exact Program.adds_fail ⟨by simp, by simpa using up, by simp, by simp⟩
    | ok servers =>
      refine (adds_servers servers 0 up).bind ?_ ?_
      · rintro said next ⟨within, upper, stopped, done⟩
        exact Program.adds_done ⟨by simpa using within, by simpa using upper,
          by simpa using stopped,
          fun _ unset => by simpa using done ⟨_, rfl⟩ (by simpa using unset)⟩
      · rintro said error ⟨within, upper, stopped, done⟩
        exact ⟨within, upper, stopped, by simp⟩
  next spared => exact Program.adds_done ⟨by simp, by simpa using up, by simp, by simp⟩

theorem adds_launchSupervisor (site : Site) (config : StartupConfig) (up : AllUp past) :
    Program.Adds order past (launchSupervisor site config)
      (Follows (supervisorPlan site config) (fun _ => True) past) := by
  unfold launchSupervisor supervisorPlan
  match config.runSupervisor with
  | .error error => exact Program.adds_fail ⟨by simp, by simp, by simp⟩
  | .ok true => exact adds_runLayer site config.robotName "supervisor" "Supervisor" up
  | .ok false =>
    exact Program.adds_done ⟨by simp, fun _ => by simpa using up, fun _ _ => by simp⟩

theorem adds_launchAll (config : StartupConfig) (up : AllUp past) :
    Program.Adds order past (launchAll config) fun said result =>
      Follows ((appLaunchOrder config.appsToLaunch).flatMap (applicationsPlan config)) Silent past
        said result ∧ (result = .ok true → Running (past ++ said)) := by
  refine (adds_eachWhile lasting_silent (fun appType past up =>
    adds_launchApplications config appType up) _ up).bind ?_ fun said error follows =>
      ⟨⟨follows.within, by simp, by simp⟩, by simp⟩
  intro said finished follows
  cases finished with
  | false => exact Program.adds_done ⟨⟨by simpa using follows.within, by simp, by simp⟩, by simp⟩
  | true =>
    refine adds_shouldQuit.bind ?_ (by rintro asked error ⟨_, ⟨⟩, _⟩)
    rintro asked quitting ⟨_, ⟨⟩, still, running⟩
    refine Program.adds_done ⟨⟨by simpa [still] using follows.within, fun _ => ?_,
      fun _ silent => ?_⟩, fun ended => ?_⟩
    · simpa using (follows.up rfl).append still
    · rw [List.append_nil, ← List.append_assoc] at silent
      simpa [still] using follows.done rfl (lasting_silent _ _ silent)
    · simpa using running.mp (by simpa using ended)

/-- What has become of a startup. It does nothing that is not in its plan, nothing twice and
nothing out of order. Where it returns true, the layers of the file are all up, and nothing of
the plan is left unless a failure has been reported. -/
structure StartupOutcome (site : Site) (options : Options) (config : StartupConfig) (said : Log)
    (result : Except String Bool) : Prop where
  within : List.Sublist (actions said) (plan site options config)
  up : result = .ok true → AllUp said ∧ Running said
  framework : result = .ok true → frameworkPlan site options config <+: actions said
  done : result = .ok true → Silent said → actions said = plan site options config

theorem adds_runConfig (site : Site) (options : Options) (config : StartupConfig) :
    Program.Adds order [] (runConfig site options config)
      (StartupOutcome site options config) := by
  have up : AllUp [] := fun _ _ _ member => by simp at member
  have partway (servers layers supervisor : Log) {result : Except String Bool}
      (first : List.Sublist (actions servers) (requestedServers site config))
      (second : List.Sublist (actions layers)
        (layersPlan site config.robotName (requestedLayers (launchFlags options config.layers))))
      (third : List.Sublist (actions supervisor) (supervisorPlan site config))
      (failed : result ≠ .ok true) :
      StartupOutcome site options config (servers ++ (layers ++ supervisor)) result := by
    refine ⟨?_, fun ended => absurd ended failed, fun ended => absurd ended failed,
      fun ended => absurd ended failed⟩
    simpa [plan, frameworkPlan] using
      first.append (second.append (third.trans (List.sublist_append_left _ _)))
  refine (adds_runServers site config up).bind ?_ ?_
  · rintro servers _ served
    refine adds_andAlso (adds_launchLayers site config.robotName
      (launchFlags options config.layers) served.up) ?_ ?_ ?_
    · intro layers launched
      refine adds_andAlso (adds_launchSupervisor site config (launched.up rfl)) ?_ ?_ ?_
      · intro supervisor supervised
        refine (adds_launchAll config (supervised.up rfl)).mono fun apps result ended => ?_
        obtain ⟨follows, running⟩ := ended
        have framework (ended : result = .ok true) :
            actions (servers ++ (layers ++ supervisor)) = frameworkPlan site options config := by
          have served := served.done rfl
            (lasting_running _ (layers ++ supervisor ++ apps) (by simpa using running ended))
          simp [frameworkPlan, served, launched.done rfl trivial, supervised.done rfl trivial]
        have split : servers ++ (layers ++ (supervisor ++ apps)) =
            servers ++ (layers ++ supervisor) ++ apps := by simp
        refine ⟨?_, fun ended => ⟨?_, ?_⟩, fun ended => ?_, fun ended silent => ?_⟩
        · simpa [plan, frameworkPlan] using served.within.append
            (launched.within.append (supervised.within.append follows.within))
        · simpa using follows.up ended
        · simpa using running ended
        · rw [split, actions_append, framework ended]
          exact List.prefix_append _ _
        · have calm := follows.done ended (by simpa using silent)
          rw [split, actions_append, framework ended, calm, plan]
      · exact fun supervisor supervised =>
          partway servers layers supervisor served.within launched.within supervised.within
            (by simp)
      · exact fun supervisor error supervised =>
          partway servers layers supervisor served.within launched.within supervised.within
            (by simp)
    · intro layers launched
      rw [← List.append_nil layers]
      exact partway servers layers [] served.within launched.within (List.nil_sublist _) (by simp)
    · intro layers error launched
      rw [← List.append_nil layers]
      exact partway servers layers [] served.within launched.within (List.nil_sublist _) (by simp)
  · intro servers error served
    rw [← List.append_nil servers]
    exact partway servers [] [] served.within (List.nil_sublist _) (List.nil_sublist _) (by simp)

end RunDLS2

end Dls2.Main
