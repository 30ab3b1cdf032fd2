import Dls2.Application.Requests

/-!
# The gather threads of the control layer

`ControlLayer::checkActivation` creates a thread that runs
`controlSignalGather` until it sees the deactivation or the quit request raised.
`Layer::run` polls the same flags and clears them on its way out of RUN, without
waiting for the gather thread. A thread that is inside a cycle while its flag is
raised and cleared never learns of the request.

`AllStopped` is the condition under which that does not happen.
-/

namespace Dls2.ControlLayer

open Dls2.StateMachine Dls2.Application Dls2.Transition

/-- The places of `controlSignalGather`: the two loads of its loop guard, the
cycle that reads the controllers and publishes, and the return. -/
inductive GatherPc where
  | guardDeactivation
  | guardQuit
  | cycle
  | returned
deriving DecidableEq, Repr

/-- One step of a gather thread; the flags are all it reads of the machine. -/
def GatherPc.step (sm : Machine AppState AppEvent) : GatherPc → Option GatherPc
  | .guardDeactivation =>
    if sm.isRaised .deactivationRequest then some .returned else some .guardQuit
  | .guardQuit => if sm.isRaised .quitRequest then some .returned else some .cycle
  | .cycle => some .guardDeactivation
  | .returned => none

/-- With the flags as they are the thread passes its next guard check. -/
def GatherPc.passes (sm : Machine AppState AppEvent) : GatherPc → Bool
  | .guardDeactivation | .cycle =>
    !sm.isRaised .deactivationRequest && !sm.isRaised .quitRequest
  | .guardQuit => !sm.isRaised .quitRequest
  | .returned => false

/-- The application of the layer, the gather threads created so far, and the
member that holds the handle of one of them. The constructor leaves the handle
uninitialised. -/
structure Layer where
  app : App
  gatherThreads : List GatherPc
  controlSignalGatherThread : Option Nat

/-- Steps of the layer: its application thread, a gather thread, a request. -/
inductive LayerLabel where
  | thread
  | gather (index : Nat)
  | request (event : AppEvent)
deriving DecidableEq, Repr

namespace Layer

/-- `checkActivation` creates a gather thread and stores its handle. -/
def checkActivation (layer : Layer) : Layer :=
  { layer with
    gatherThreads := layer.gatherThreads ++ [.guardDeactivation]
    controlSignalGatherThread := some layer.gatherThreads.length }

/-- One step of the layer. `checkActivation` always returns true. -/
def step (layer : Layer) : LayerLabel → Option Layer
  | .thread => (layer.app.step .layer true).map fun app =>
    if layer.app.pc = .checkActivation then { layer.checkActivation with app := app }
    else { layer with app := app }
  | .gather index => layer.gatherThreads[index]?.bind fun pc =>
    (pc.step layer.app.sm).map fun next =>
      { layer with gatherThreads := layer.gatherThreads.set index next }
  | .request event =>
    (appStep .layer layer.app (.request event)).map fun app => { layer with app := app }

/-- How many gather threads would pass their next guard check. -/
def passing (layer : Layer) : Nat :=
  layer.gatherThreads.countP (GatherPc.passes layer.app.sm)

end Layer

/-- A layer that has not been activated yet. -/
def layerSystem : System Layer LayerLabel where
  initial := ⟨App.new, [], none⟩
  step := Layer.step

/-- The requests that end a gather thread. -/
def endsGather (event : AppEvent) : Bool := event == .deactivationRequest || event == .quitRequest

/-- When the thread consumes a request that ends gather threads, each of them has
returned, or the other request is raised and stops it. -/
def allStopped (layer : Layer) : LayerLabel → Bool
  | .thread =>
    match layer.app.pc with
    | .consume event => !endsGather event ||
        layer.gatherThreads.all fun pc => !pc.passes (layer.app.sm.consumeEvent event)
    | _ => true
  | .gather _ | .request _ => true

/-- The condition on the steps of a run. -/
def AllStopped (layer : Layer) (label : LayerLabel) : Prop := allStopped layer label = true

instance (layer : Layer) (label : LayerLabel) : Decidable (AllStopped layer label) :=
  inferInstanceAs (Decidable (allStopped layer label = true))

/-- The places at which the layer gathers control signals: on the way from a
successful `checkActivation` to RUN, and in RUN until a request that ends gather
threads has been consumed. FAIL counts as RUN; a layer does not get there. -/
def gathers : AppState → Pc → Bool
  | .activation, .activationExit activate => activate
  | .activation, .lookup event | .activation, .write event _ => event == .activated
  | .run, .lookup event | .run, .write event _ | .fail, .lookup event | .fail, .write event _ =>
    !endsGather event
  | .run, _ | .fail, _ => true
  | _, _ => false

/-! ### What a thread sees -/

namespace GatherPc

variable {sm other : Machine AppState AppEvent} {pc next : GatherPc}

/-- A thread that would not pass does not come to pass by going on. -/
theorem passes_of_step (taken : pc.step sm = some next) (passes : next.passes sm = true) :
    pc.passes sm = true := by
  cases pc <;> simp only [step] at taken
  case returned => cases taken
  all_goals
    repeat' split at taken
    all_goals
      obtain rfl := Option.some.inj taken
      simp_all [GatherPc.passes]

/-- Raising flags lets no further thread pass. -/
theorem passes_mono (raises : ∀ event, sm.isRaised event = true → other.isRaised event = true)
    (passes : pc.passes other = true) : pc.passes sm = true := by
  have deactivation := raises .deactivationRequest
  have quit := raises .quitRequest
  cases pc <;> simp only [GatherPc.passes, Bool.and_eq_true, Bool.not_eq_true'] at passes ⊢
  all_goals grind

end GatherPc

/-! ### The application thread -/

section AppThread

variable {app next : App} {state : AppState}

/-- Inside an activity the thread stays at places that gather. -/
theorem gathers_move {pc : Pc} (coherent : app.Coherent state)
    (gathering : gathers state app.pc = true) (moves : app.move .layer true = some pc) :
    gathers state pc = true := by
  have located := coherent.located
  cases place : app.pc with
  | _ =>
    simp only [place, Pc.within, beq_iff_eq] at located
    simp only [App.move, place] at moves
    repeat' split at moves
    all_goals simp only [Option.some.injEq, reduceCtorEq] at moves
    all_goals
      subst moves located
      simp_all [gathers, endsGather]

/-- Entering an activity in RUN or FAIL is entering a place that gathers. -/
theorem gathers_activity (gathering : gathers state .dispatch = true) :
    gathers state (App.activity .layer state) = true := by
  cases state <;> simp_all [gathers, App.activity]

/-- Writing the target of a transition other than a deactivation or a quit keeps
gathering. -/
theorem gathers_target {event : AppEvent} {target : AppState}
    (gathering : gathers state (.write event (some target)) = true)
    (known : transition state event = some target) : gathers target .dispatch = true := by
  cases state <;> cases event <;> simp_all [gathers, endsGather, transition] <;>
    subst known <;> rfl

/-- An event that is consumed at a place that gathers ends gather threads. -/
theorem endsGather_of_gathers {event : AppEvent} {target : AppState}
    (gathering : gathers state (.consume event) = true) (async : event.isAsync = true)
    (known : transition state event = some target) : endsGather event = true := by
  cases state <;> cases event <;>
    simp_all [gathers, endsGather, transition, AppEvent.isAsync]

/-- A step of the thread either consumes an event that ends gather threads, or
changes no flag they see and leads from places that gather to such places. -/
theorem gathers_step (coherent : app.Coherent state)
    (taken : app.step .layer true = some next) :
    (∃ event, app.pc = .consume event ∧ endsGather event = true ∧
        next.sm = app.sm.consumeEvent event) ∨
      (∀ event, endsGather event = true → next.sm.isRaised event = app.sm.isRaised event) ∧
        ∃ reached, next.Coherent reached ∧
          (gathers state app.pc = true → gathers reached next.pc = true) := by
  have effect := coherent.effect taken
  obtain kept | ⟨event, target, place, known, moved⟩ := effect.coherent coherent
  · cases effect with
    | @consumed event target place async known =>
      by_cases ends : endsGather event = true
      · exact .inl ⟨event, place, ends, rfl⟩
      · right
        constructor
        · intro other endsOther
          have different : other ≠ event := by
            rintro rfl
            exact ends endsOther
          simp [Machine.isRaised_consumeEvent, different]
        · refine ⟨state, kept, ?_⟩
          intro gathering
          rw [place] at gathering
          exact absurd (endsGather_of_gathers gathering async known) ends
    | @lookedUp event target place known =>
      refine .inr ⟨fun _ _ => rfl, state, kept, ?_⟩
      intro gathering
      rw [place] at gathering
      cases state <;> exact gathering
    | @wrote event target place known =>
      refine .inr ⟨fun _ _ => by simp, state, kept, ?_⟩
      intro gathering
      obtain rfl : target = state := by simpa using kept.current
      rw [place] at gathering
      exact gathers_target gathering known
    | ended place =>
      refine .inr ⟨fun _ _ => rfl, state, kept, ?_⟩
      intro gathering
      rw [place] at gathering
      cases state <;> exact gathering
    | entered place =>
      refine .inr ⟨fun _ _ => rfl, state, kept, ?_⟩
      intro gathering
      rw [place] at gathering
      exact gathers_activity gathering
    | moved moves inside =>
      refine .inr ⟨fun _ _ => rfl, state, kept, ?_⟩
      intro gathering
      exact gathers_move coherent gathering moves
    | closed place quitting | announced place quitting | stopped place quitting =>
      refine .inr ⟨fun _ _ => rfl, state, kept, ?_⟩
      intro gathering
      simp [quitting, gathers] at gathering
  · have written : next = { app with sm := app.sm.writeState (some target), pc := .dispatch } := by
      simpa [App.step, place, eq_comm] using taken
    subst written
    refine .inr ⟨fun _ _ => by simp, target, moved, ?_⟩
    intro gathering
    rw [place] at gathering
    exact gathers_target gathering known

/-- Creating a gather thread happens before a successful activation. -/
theorem step_checkActivation (place : app.pc = .checkActivation) :
    app.step .layer true = some (app.goto (.activationExit true)) := by
  simp [App.step, App.move, place]

end AppThread

/-! ### Runs -/

/-- Along runs that meet the condition threads pass only while the layer gathers,
and there is at most one such thread. -/
structure Gathering (layer : Layer) : Prop where
  place : ∃ state, layer.app.Coherent state ∧
    ∀ pc ∈ layer.gatherThreads, pc.passes layer.app.sm = true → gathers state layer.app.pc = true
  single : layer.passing ≤ 1
  handle : ∀ index, layer.controlSignalGatherThread = some index →
    index < layer.gatherThreads.length

namespace Gathering

variable {layer next : Layer}

/-- Replacing a thread by one that passes only if the old one did adds no thread
that passes. -/
theorem countP_set_le {threads : List GatherPc} {index : Nat} {pc moved : GatherPc}
    {passes : GatherPc → Bool} (atIndex : threads[index]? = some pc)
    (before : passes moved = true → passes pc = true) :
    (threads.set index moved).countP passes ≤ threads.countP passes := by
  obtain ⟨bound, value⟩ := List.getElem?_eq_some_iff.mp atIndex
  rw [List.countP_set bound, value]
  have counted : passes pc = true → 0 < threads.countP passes := by
    intro holds
    exact List.countP_pos_iff.mpr ⟨pc, List.mem_of_getElem? atIndex, holds⟩
  split <;> split <;> first | omega | simp_all

/-- A step of a gather thread. -/
theorem gather {index : Nat} (holds : Gathering layer)
    (taken : layer.step (.gather index) = some next) : Gathering next := by
  simp only [Layer.step, Option.bind_eq_some_iff, Option.map_eq_some_iff] at taken
  obtain ⟨pc, atIndex, moved, goes, rfl⟩ := taken
  have before : moved.passes layer.app.sm = true → pc.passes layer.app.sm = true :=
    GatherPc.passes_of_step goes
  have member := List.mem_of_getElem? atIndex
  obtain ⟨state, coherent, passing⟩ := holds.place
  constructor
  case place =>
    refine ⟨state, coherent, ?_⟩
    intro other among passes
    obtain old | rfl := List.mem_or_eq_of_mem_set among
    · exact passing other old passes
    · exact passing pc member (before passes)
  case single => exact Nat.le_trans (countP_set_le atIndex before) holds.single
  case handle =>
    intro other handle
    simpa using holds.handle other handle

/-- A request. -/
theorem request {event : AppEvent} (holds : Gathering layer)
    (taken : layer.step (.request event) = some next) : Gathering next := by
  obtain ⟨state, coherent, passing⟩ := holds.place
  simp only [Layer.step, appStep, Option.map_eq_some_iff] at taken
  obtain ⟨app, raised, rfl⟩ := taken
  split at raised
  · obtain rfl := Option.some.inj raised
    have fewer : ∀ pc ∈ layer.gatherThreads,
        pc.passes (layer.app.sm.raiseEvent event).2 = true → pc.passes layer.app.sm = true := by
      intro pc _
      apply GatherPc.passes_mono
      intro other raised
      simp [Machine.isRaised_raiseEvent, raised]
    constructor
    case place =>
      refine ⟨state, coherent.request event, ?_⟩
      intro pc member passes
      exact passing pc member (fewer pc member passes)
    case single => exact Nat.le_trans (List.countP_mono_left fewer) holds.single
    case handle => exact holds.handle
  · cases raised

/-- Nothing passes while the layer does not gather. -/
theorem none_passing {state : AppState} (holds : Gathering layer)
    (coherent : layer.app.Coherent state) (elsewhere : gathers state layer.app.pc = false) :
    ∀ pc ∈ layer.gatherThreads, pc.passes layer.app.sm = false := by
  obtain ⟨found, kept, passing⟩ := holds.place
  obtain rfl : found = state := Option.some.inj (kept.current.symm.trans coherent.current)
  intro pc member
  by_contra passes
  exact absurd ((passing pc member (by simpa using passes)).symm.trans elsewhere) (by simp)

/-- A successful `checkActivation` adds the only thread that passes. -/
theorem checkActivation (holds : Gathering layer) (place : layer.app.pc = .checkActivation) :
    Gathering { layer.checkActivation with app := layer.app.goto (.activationExit true) } := by
  obtain ⟨state, coherent, _⟩ := holds.place
  obtain rfl : state = .activation := by simpa [place, Pc.within] using coherent.located
  have stopped := holds.none_passing coherent (by rw [place]; rfl)
  constructor
  case place => exact ⟨.activation, coherent.goto rfl, fun _ _ _ => rfl⟩
  case single =>
    have before : layer.gatherThreads.countP (GatherPc.passes layer.app.sm) = 0 :=
      List.countP_eq_zero.mpr fun pc member => by simp [stopped pc member]
    simp only [Layer.passing, Layer.checkActivation, App.goto_sm, List.countP_append, before,
      Nat.zero_add]
    exact List.countP_le_length
  case handle =>
    intro index handle
    obtain rfl : layer.gatherThreads.length = index := by
      simpa [Layer.checkActivation] using handle
    simp [Layer.checkActivation]

/-- A step of the application thread that consumes no request too early. -/
theorem thread (holds : Gathering layer) (stopped : AllStopped layer .thread)
    (taken : layer.step .thread = some next) : Gathering next := by
  simp only [Layer.step, Option.map_eq_some_iff] at taken
  obtain ⟨app, steps, taken⟩ := taken
  split at taken
  · have place : layer.app.pc = .checkActivation := ‹_›
    obtain rfl := Option.some.inj (steps.symm.trans (step_checkActivation place))
    exact taken ▸ holds.checkActivation place
  · subst taken
    obtain ⟨state, coherent, passing⟩ := holds.place
    obtain ⟨event, place, ends, consumed⟩ | ⟨flags, reached, kept, stays⟩ :=
      gathers_step coherent steps
    · have none : ∀ pc ∈ layer.gatherThreads, pc.passes app.sm = false := by
        simpa [AllStopped, allStopped, place, ends, consumed] using stopped
      have stepped : appStep .layer layer.app (.thread true) = some app := steps
      obtain ⟨state, kept⟩ := coherent.appStep stepped
      constructor
      case place =>
        refine ⟨state, kept, ?_⟩
        intro pc member passes
        exact absurd (passes.symm.trans (none pc member)) (by simp)
      case single =>
        have zero : layer.gatherThreads.countP (GatherPc.passes app.sm) = 0 :=
          List.countP_eq_zero.mpr fun pc member => by simp [none pc member]
        simp [Layer.passing, zero]
      case handle => exact holds.handle
    · have same : GatherPc.passes app.sm = GatherPc.passes layer.app.sm := by
        funext pc
        cases pc <;> simp [GatherPc.passes, flags .deactivationRequest rfl, flags .quitRequest rfl]
      constructor
      case place =>
        refine ⟨reached, kept, ?_⟩
        intro pc member passes
        rw [same] at passes
        exact stays (passing pc member passes)
      case single =>
        simp only [Layer.passing, same]
        exact holds.single
      case handle => exact holds.handle

end Gathering

/-- The invariant holds along every run that meets the condition. -/
theorem reachable_gathering {layer : Layer}
    (reachable : layerSystem.ReachableUnder AllStopped layer) : Gathering layer := by
  apply reachable.invariant Gathering
  · constructor
    case place => exact ⟨.initialization, App.coherent_new, by simp [layerSystem]⟩
    case single => simp [Layer.passing, layerSystem]
    case handle => simp [layerSystem]
  · intro before label next holds stopped taken
    cases label with
    | thread => exact holds.thread stopped taken
    | gather index => exact holds.gather taken
    | request event => exact holds.request taken

/-- In IDLE and in QUIT no gather thread passes its next guard check. -/
def Quiet (layer : Layer) : Prop :=
  layer.app.sm.state = some .idle ∨ layer.app.sm.state = some .quit →
    ∀ pc ∈ layer.gatherThreads, pc.passes layer.app.sm = false

/-- Outside of RUN and of the way into it the layer does not gather. -/
theorem Gathering.quiet {layer : Layer} (holds : Gathering layer) : Quiet layer := by
  intro rests
  obtain ⟨state, coherent, _⟩ := holds.place
  apply holds.none_passing coherent
  rw [coherent.current] at rests
  obtain same | same := rests <;> obtain rfl := Option.some.inj same <;>
    cases layer.app.pc <;> rfl

/-! ### Requests consumed too early -/

/-- Steps of the application thread of the layer. -/
def LayerLabel.IsThread (label : LayerLabel) : Prop := label = .thread

/-- One step of the application thread on the way to a state. -/
theorem leads_thread {layer : Layer} {goal : Layer → Prop} (app : App)
    (place : layer.app.pc ≠ .checkActivation) (steps : layer.app.step .layer true = some app)
    (later : layerSystem.LeadsTo LayerLabel.IsThread goal { layer with app := app }) :
    layerSystem.LeadsTo LayerLabel.IsThread goal layer :=
  .step _ rfl (by simp [layerSystem, Layer.step, steps, place]) later

/-- A thread that passes sees no quit request. -/
theorem GatherPc.quit_of_passes {sm : Machine AppState AppEvent} {pc : GatherPc}
    (passes : pc.passes sm = true) : sm.isRaised .quitRequest = false := by
  cases pc <;> simp_all [GatherPc.passes]

section TooEarly

variable {layer : Layer} {state target : AppState} {event : AppEvent} {pc : GatherPc}

/-- A thread that passes goes on passing while `nextState` writes the next state. -/
theorem written_of_lookup {goal : Layer → Prop} (coherent : layer.app.Coherent state)
    (place : layer.app.pc = .lookup event) (known : transition state event = some target)
    (later : layerSystem.LeadsTo LayerLabel.IsThread goal { layer with
      app := { layer.app with sm := layer.app.sm.writeState (some target), pc := .dispatch } }) :
    layerSystem.LeadsTo LayerLabel.IsThread goal layer := by
  apply leads_thread _ (by simp [place]) (coherent.step_lookup place known)
  exact leads_thread _ (by simp) (by simp [App.step, App.goto]) later

/-- Writing a state does not stop a gather thread. -/
theorem GatherPc.passes_writeState (sm : Machine AppState AppEvent) (pc : GatherPc) :
    pc.passes (sm.writeState (some target)) = pc.passes sm := by
  cases pc <;> simp [GatherPc.passes]

/-- A thread that passes when QUIT or IDLE is about to be entered is not stopped. -/
theorem loud_of_lookup (coherent : layer.app.Coherent state)
    (place : layer.app.pc = .lookup event) (known : transition state event = some target)
    (rests : target = .idle ∨ target = .quit) (member : pc ∈ layer.gatherThreads)
    (passes : pc.passes layer.app.sm = true) :
    layerSystem.LeadsTo LayerLabel.IsThread (fun layer => ¬ Quiet layer) layer := by
  apply written_of_lookup coherent place known
  constructor
  intro quiet
  have stopped := quiet (rests.imp (congrArg some) (congrArg some)) pc member
  rw [GatherPc.passes_writeState, passes] at stopped
  cases stopped

/-- A deactivation request consumed while a thread passes is on its way to IDLE. -/
theorem loud_of_deactivation (coherent : layer.app.Coherent state)
    (place : layer.app.pc = .lookup .deactivationRequest)
    (running : layer.app.sm.quit = false) (member : pc ∈ layer.gatherThreads)
    (passes : pc.passes layer.app.sm = true) :
    layerSystem.LeadsTo LayerLabel.IsThread (fun layer => ¬ Quiet layer) layer := by
  have known : transition state .deactivationRequest = some .deactivation := by
    have located := coherent.located
    rw [place] at located
    cases state <;> first | rfl | cases located
  have quit := GatherPc.quit_of_passes passes
  apply written_of_lookup coherent place known
  -- DEACTIVATION is left at once: a layer has nothing to do there
  apply leads_thread { layer.app with
      sm := layer.app.sm.writeState (some .deactivation), pc := .deactivationTestQuit true }
    (by simp) (by simp [App.step, App.goto, App.activity, running])
  apply leads_thread { layer.app with
      sm := layer.app.sm.writeState (some .deactivation), pc := .lookup .deactivated }
    (by simp) (App.step_of_move (by simp [App.move, quit]))
  exact loud_of_lookup ⟨by simpa using coherent.table, rfl, rfl⟩ rfl rfl (.inl rfl) member
    (by simpa [GatherPc.passes_writeState] using passes)

end TooEarly

/-- The application of a layer runs like an application on its own. -/
theorem reachable_app {layer : Layer} (reachable : layerSystem.Reachable layer) :
    (appSystem .layer).Reachable layer.app := by
  apply reachable.invariant (fun layer => (appSystem .layer).Reachable layer.app) .initial
  rintro before label next prior _ taken
  cases label with
  | thread =>
    simp only [layerSystem, Layer.step, Option.map_eq_some_iff] at taken
    obtain ⟨app, steps, taken⟩ := taken
    have arrives : next.app = app := by split at taken <;> exact taken ▸ rfl
    have stepped : (appSystem .layer).step before.app (.thread true) = some app := steps
    exact arrives ▸ .step prior trivial stepped
  | gather index =>
    simp only [layerSystem, Layer.step, Option.bind_eq_some_iff, Option.map_eq_some_iff] at taken
    obtain ⟨pc, _, moved, _, rfl⟩ := taken
    exact prior
  | request event =>
    simp only [layerSystem, Layer.step, Option.map_eq_some_iff] at taken
    obtain ⟨app, raised, rfl⟩ := taken
    have stepped : (appSystem .layer).step before.app (.request event) = some app := raised
    exact .step prior trivial stepped

/-- Consuming a request before every gather thread is stopped lets the application
thread alone get to IDLE or QUIT while one still passes. -/
theorem loud_of_not_allStopped {layer next : Layer} {label : LayerLabel}
    (reachable : layerSystem.Reachable layer) (early : ¬ AllStopped layer label)
    (taken : layer.step label = some next) :
    layerSystem.LeadsTo LayerLabel.IsThread (fun layer => ¬ Quiet layer) next := by
  obtain ⟨state, coherent⟩ := reachable_coherent (reachable_app reachable)
  cases label with
  | thread =>
    simp only [AllStopped, allStopped] at early
    split at early
    · rename_i event place
      simp only [Bool.or_eq_true, Bool.not_eq_true', List.all_eq_true, not_or, not_forall,
        Bool.not_eq_false] at early
      obtain ⟨ends, pc, member, passes⟩ := early
      have steps : layer.app.step .layer true = some
          { layer.app with sm := layer.app.sm.consumeEvent event, pc := .lookup event } := by
        simp [App.step, place]
      obtain rfl : _ = next := by simpa [Layer.step, steps, place] using taken
      have located := coherent.located
      simp only [place, Pc.within, Bool.and_eq_true, Option.isSome_iff_exists] at located
      obtain ⟨async, target, known⟩ := located
      have kept : App.Coherent { layer.app with
          sm := layer.app.sm.consumeEvent event, pc := .lookup event } state :=
        ⟨coherent.table, coherent.current, by simp [Pc.within, known]⟩
      have which : event = .deactivationRequest ∨ event = .quitRequest := by
        simpa [endsGather] using ends
      obtain rfl | rfl := which
      · have running : layer.app.sm.quit = false := by
          by_contra ended
          have quits := reachable_ended (reachable_app reachable) (by simpa using ended)
          obtain rfl : state = .quit := Option.some.inj (coherent.current.symm.trans quits)
          simp at known
        exact loud_of_deactivation kept rfl (by simpa using running) member passes
      · obtain rfl := target_of_quitRequest known
        exact loud_of_lookup kept rfl known (.inr rfl) member passes
    · exact absurd rfl early
  | gather index | request event => exact absurd rfl early

/-! ### Joining the gather thread -/

/-- The gather thread with this index returns in steps of its own. -/
def Returns (layer : Layer) (index : Nat) : Prop :=
  layerSystem.LeadsTo (fun label => label = .gather index)
    (fun layer => layer.gatherThreads[index]? = some .returned) layer

/-- The handle that `~ControlLayer` passes to `pthread_join` is that of a gather
thread, and the thread returns. -/
def JoinReturns (layer : Layer) : Prop :=
  ∃ index, layer.controlSignalGatherThread = some index ∧ Returns layer index

section Returns

variable {layer : Layer} {index : Nat} {pc : GatherPc}

/-- One step of a gather thread on the way to its return. -/
theorem returns_step (next : GatherPc) (atIndex : layer.gatherThreads[index]? = some pc)
    (goes : pc.step layer.app.sm = some next)
    (later : ∀ moved : Layer, moved.app = layer.app → moved.gatherThreads[index]? = some next →
      Returns moved index) : Returns layer index := by
  refine .step { layer with gatherThreads := layer.gatherThreads.set index next } rfl
    (by simp [layerSystem, Layer.step, atIndex, goes]) (later _ rfl ?_)
  obtain ⟨bound, _⟩ := List.getElem?_eq_some_iff.mp atIndex
  exact List.getElem?_set_self bound

/-- A gather thread that would not pass its next guard check returns. -/
theorem returns_of_not_passes (atIndex : layer.gatherThreads[index]? = some pc)
    (stopped : pc.passes layer.app.sm = false) : Returns layer index := by
  have quit : ∀ layer : Layer, layer.gatherThreads[index]? = some .guardQuit →
      layer.app.sm.isRaised .quitRequest = true → Returns layer index := by
    intro layer atIndex raised
    exact returns_step .returned atIndex (by simp [GatherPc.step, raised])
      fun _ _ returned => .here returned
  have guard : ∀ layer : Layer, layer.gatherThreads[index]? = some .guardDeactivation →
      GatherPc.passes layer.app.sm .guardDeactivation = false → Returns layer index := by
    intro layer atIndex stopped
    cases raised : layer.app.sm.isRaised .deactivationRequest with
    | true =>
      exact returns_step .returned atIndex (by simp [GatherPc.step, raised])
        fun _ _ returned => .here returned
    | false =>
      apply returns_step .guardQuit atIndex (by simp [GatherPc.step, raised])
      intro moved same there
      apply quit moved there
      simpa [GatherPc.passes, raised, same] using stopped
  cases pc with
  | guardDeactivation => exact guard layer atIndex stopped
  | guardQuit => exact quit layer atIndex (by simpa [GatherPc.passes] using stopped)
  | cycle =>
    apply returns_step .guardDeactivation atIndex rfl
    intro moved same there
    rw [← same] at stopped
    exact guard moved there stopped
  | returned => exact .here atIndex

end Returns

/-- Along runs in which requests are consumed only when every gather thread is
stopped, no thread passes in IDLE or QUIT, at most one passes anywhere, and in
QUIT the join returns if the layer has been activated at all. A request consumed
earlier lets the application thread get to IDLE or QUIT while a thread passes. -/
theorem quiet_of_allStopped (layer : Layer) :
    (layerSystem.ReachableUnder AllStopped layer →
      Quiet layer ∧ layer.passing ≤ 1 ∧
        (layer.app.sm.state = some .quit →
          (JoinReturns layer ↔ layer.controlSignalGatherThread.isSome = true))) ∧
    ∀ label next, layerSystem.Reachable layer → ¬ AllStopped layer label →
      layerSystem.step layer label = some next →
      layerSystem.LeadsTo LayerLabel.IsThread (fun layer => ¬ Quiet layer) next := by
  constructor
  · intro reachable
    have holds := reachable_gathering reachable
    refine ⟨holds.quiet, holds.single, ?_⟩
    intro quits
    constructor
    · rintro ⟨index, handle, _⟩
      simp [handle]
    · intro activated
      obtain ⟨index, handle⟩ := Option.isSome_iff_exists.mp activated
      have bound := holds.handle index handle
      have stopped := holds.quiet (.inr quits) _ (List.getElem_mem bound)
      exact ⟨index, handle, returns_of_not_passes (List.getElem?_eq_getElem bound) stopped⟩
  · intro label next reachable early taken
    exact loud_of_not_allStopped reachable early taken

/-- A layer in RUN whose gather thread is inside a cycle is told to deactivate,
and its application thread is about to consume the request. -/
def deactivatedInCycle : List LayerLabel :=
  List.replicate 3 .thread ++ [.request .activationRequest] ++ List.replicate 12 .thread ++
    [.gather 0, .gather 0, .thread, .request .deactivationRequest] ++ List.replicate 2 .thread

/-- If the gather thread returns first the layer is quiet in IDLE; consuming the
request inside the cycle leads on to a state that is not. -/
theorem quiet_after_return :
    (∃ layer : Layer, layer.app.sm.state = some .idle ∧ Quiet layer) ∧
      ∃ next : Layer, next.app.pc = .lookup .deactivationRequest ∧
        layerSystem.LeadsTo LayerLabel.IsThread (fun layer => ¬ Quiet layer) next := by
  have returned : (layerSystem.run (deactivatedInCycle ++ [.gather 0, .gather 0] ++
      List.replicate 7 .thread)).any (fun layer => layer.app.sm.state == some .idle) = true := by
    decide
  have admitted : layerSystem.AdmitsFrom AllStopped layerSystem.initial
      (deactivatedInCycle ++ [.gather 0, .gather 0] ++ List.replicate 7 .thread) := by
    decide
  obtain ⟨layer, reachable, rests⟩ := System.exists_reachableUnder_of_run admitted returned
  constructor
  · exact ⟨layer, by simpa using rests, ((quiet_of_allStopped layer).1 reachable).1⟩
  have early : (layerSystem.run deactivatedInCycle).any (fun layer =>
      !allStopped layer .thread && (layerSystem.step layer .thread).any fun next =>
        next.app.pc == .lookup .deactivationRequest) = true := by
    decide
  obtain ⟨layer, reachable, passes⟩ := System.exists_reachable_of_run early
  simp only [Bool.and_eq_true, Bool.not_eq_true', Option.any_eq_true, beq_iff_eq] at passes
  obtain ⟨early, next, taken, place⟩ := passes
  exact ⟨next, place, (quiet_of_allStopped layer).2 .thread next reachable
    (by simp [AllStopped, early]) taken⟩

/-- A gather thread can survive a deactivation: the layer is in IDLE and the
thread passes its next guard check. After the next activation two of them pass. -/
theorem gather_survives_deactivation :
    (∃ layer, layerSystem.Reachable layer ∧ layer.app.sm.state = some .idle ∧
      GatherPc.cycle ∈ layer.gatherThreads ∧ GatherPc.passes layer.app.sm .cycle = true) ∧
    ∃ layer, layerSystem.Reachable layer ∧ layer.passing = 2 := by
  have idle : (layerSystem.run (deactivatedInCycle ++ List.replicate 7 .thread)).any (fun layer =>
      layer.app.sm.state == some .idle && decide (GatherPc.cycle ∈ layer.gatherThreads) &&
        GatherPc.passes layer.app.sm .cycle) = true := by
    decide
  have again : (layerSystem.run (deactivatedInCycle ++ List.replicate 8 .thread ++
      [.request .activationRequest] ++ List.replicate 9 .thread)).any (fun layer =>
        layer.passing == 2) = true := by
    decide
  obtain ⟨layer, reachable, passes⟩ := System.exists_reachable_of_run idle
  obtain ⟨later, reachableLater, two⟩ := System.exists_reachable_of_run again
  simp only [Bool.and_eq_true, beq_iff_eq, decide_eq_true_eq] at passes two
  exact ⟨⟨layer, reachable, passes.1.1, passes.1.2, passes.2⟩, later, reachableLater, two⟩

end Dls2.ControlLayer
