import Dls2.Lib.Transition
import Mathlib.Data.List.AList

/-!
# Loading and unloading controllers

Operations on the controllers of a `ControlLayer` run in the threads of their
callers. All but one of them hold `controllers_operations_mutex` from start to
end, test `closing_` when they load, and take `controllers_mutex` for each access
to the map. `loadPythonController` takes neither mutex and does not test
`closing_`; its lock is commented out.

A thread executes one operation after another, and every mutex-protected block,
atomic load, launch and shutdown of a process is one step. The lookup and the
entry of `loadPythonController` hold no mutex: each takes two steps, one to begin
and one to end, and another access to the map in between has no defined meaning if
one of the two is a write. Motion generators, which have a map and a mutex of their
own, are left out, and so is who only reads the map under its mutex, such as the
gather cycles.
-/

namespace Dls2.ControlLayer

open Dls2.Transition

/-- The operations on controllers. -/
inductive Operation where
  | loadController
  | loadExternalController
  | loadPythonController
  | unloadController
  | unloadExternalController
deriving DecidableEq, Repr

/-- Where a thread is in an operation. -/
inductive OpPc (Name : Type) where
  | idle
  /-- About to lock `controllers_operations_mutex`. -/
  | lock (operation : Operation) (name : Name)
  | testClosing (operation : Operation) (name : Name)
  /-- About to look the name up in the map. -/
  | find (operation : Operation) (name : Name)
  /-- In the unlocked lookup of `loadPythonController`. -/
  | finding (name : Name)
  /-- About to launch the process. -/
  | launch (operation : Operation) (name : Name)
  /-- About to enter the controller, with its process if it has one, into the map. -/
  | emplace (operation : Operation) (name : Name) (proc : Option Nat)
  /-- In the unlocked entry of `loadPythonController`. -/
  | entering (name : Name) (proc : Option Nat)
  /-- About to look up and erase the entry to unload. -/
  | extract (operation : Operation) (name : Name)
  /-- About to shut the process of an extracted controller down. -/
  | shutdown (name : Name) (proc : Nat)
  /-- About to return, which releases `controllers_operations_mutex`. -/
  | unlock
deriving DecidableEq, Repr

/-- Where `close` is. `stopping` holds the controllers it has swapped out and not
yet unloaded. -/
inductive ClosePc (Name : Type) where
  | notCalled
  | swap
  | stopping (controllersToStop : List ((_ : Name) × Option Nat))
  | returned

/-- The map of controllers with the process of each, external ones having none;
the owner of `controllers_operations_mutex`; `closing_`; the running processes
with the names they were launched for; the threads and `close`; how many unlocked
lookups and entries are in progress; and whether accesses to the map have raced. -/
structure Controllers (Name : Type) where
  controllers : AList fun _ : Name => Option Nat
  operationsMutex : Option Nat
  closing : Bool
  processes : Nat → Option Name
  launched : Nat
  threads : Nat → OpPc Name
  close : ClosePc Name
  lookups : Nat
  entries : Nat
  undefined : Bool

/-- How a step accesses the map of controllers. -/
inductive Access where
  | none
  | read
  | write
deriving DecidableEq, Repr

/-- Steps: a thread starts an operation or goes on with it, a launch succeeding or
not, or `close` is called or goes on. -/
inductive OpLabel (Name : Type) where
  | start (thread : Nat) (operation : Operation) (name : Name)
  | go (thread : Nat) (launches : Bool)
  | close
deriving DecidableEq, Repr

namespace Controllers

variable {Name : Type}

/-- A thread goes on elsewhere. -/
def goto (layer : Controllers Name) (thread : Nat) (pc : OpPc Name) : Controllers Name :=
  { layer with threads := Function.update layer.threads thread pc }

/-- The end of an operation: only `loadPythonController` holds no mutex. -/
def finish : Operation → OpPc Name
  | .loadPythonController => .idle
  | _ => .unlock

/-- A process ends, by the shutdown command or by the signal. -/
def kill (layer : Controllers Name) (proc : Nat) : Controllers Name :=
  { layer with processes := Function.update layer.processes proc none }

variable [DecidableEq Name]

/-- What follows the lookup of a name that is not in the map. -/
def create (operation : Operation) (name : Name) : OpPc Name :=
  if operation = .loadExternalController then .emplace operation name none
  else .launch operation name

/-- `map::emplace` keeps an entry that is there already. -/
def emplace (controllers : AList fun _ : Name => Option Nat) (name : Name) (proc : Option Nat) :
    AList fun _ : Name => Option Nat :=
  if name ∈ controllers then controllers else controllers.insert name proc

/-- One step of a thread inside its operation. -/
def go (layer : Controllers Name) (thread : Nat) (launches : Bool) : Option (Controllers Name) :=
  match layer.threads thread with
  | .idle => none
  | .lock operation name =>
    if layer.operationsMutex = none then
      let layer := { layer with operationsMutex := some thread }
      match operation with
      | .unloadController | .unloadExternalController =>
        some (layer.goto thread (.extract operation name))
      | _ => some (layer.goto thread (.testClosing operation name))
    else none
  | .testClosing operation name =>
    if layer.closing then some (layer.goto thread .unlock)
    else some (layer.goto thread (.find operation name))
  | .find operation name =>
    if operation = .loadPythonController then
      some ({ layer with lookups := layer.lookups + 1 }.goto thread (.finding name))
    else if name ∈ layer.controllers then some (layer.goto thread (finish operation))
    else some (layer.goto thread (create operation name))
  | .finding name =>
    let layer := { layer with lookups := layer.lookups - 1 }
    if name ∈ layer.controllers then some (layer.goto thread (finish .loadPythonController))
    else some (layer.goto thread (create .loadPythonController name))
  | .launch operation name =>
    if launches then
      some ({ layer with
        processes := Function.update layer.processes layer.launched (some name)
        launched := layer.launched + 1 }.goto thread
          (.emplace operation name (some layer.launched)))
    else some (layer.goto thread (finish operation))
  | .emplace operation name proc =>
    if operation = .loadPythonController then
      some ({ layer with entries := layer.entries + 1 }.goto thread (.entering name proc))
    else
      some ({ layer with controllers := emplace layer.controllers name proc }.goto thread
        (finish operation))
  | .entering name proc =>
    let layer := { layer with entries := layer.entries - 1 }
    some ({ layer with controllers := emplace layer.controllers name proc }.goto thread
      (finish .loadPythonController))
  | .extract operation name =>
    match layer.controllers.lookup name with
    | none => some (layer.goto thread .unlock)
    | some none =>
      some ({ layer with controllers := layer.controllers.erase name }.goto thread .unlock)
    | some (some proc) =>
      if operation = .unloadExternalController then some (layer.goto thread .unlock)
      else some ({ layer with controllers := layer.controllers.erase name }.goto thread
        (.shutdown name proc))
  | .shutdown _ proc => some ((layer.kill proc).goto thread .unlock)
  | .unlock => some ({ layer with operationsMutex := none }.goto thread .idle)

/-- One step of `close`. The locked block swaps the map out. -/
def goClose (layer : Controllers Name) : Option (Controllers Name) :=
  match layer.close with
  | .notCalled => some { layer with closing := true, close := .swap }
  | .swap =>
    if layer.operationsMutex = none then
      some { layer with
        controllers := ∅
        close := .stopping layer.controllers.entries }
    else none
  | .stopping [] => some { layer with close := .returned }
  | .stopping (⟨_, none⟩ :: rest) => some { layer with close := .stopping rest }
  | .stopping (⟨_, some proc⟩ :: rest) => some { layer.kill proc with close := .stopping rest }
  | .returned => none

/-- One step of the layer, as though accesses to the map came one after another. -/
def advance (layer : Controllers Name) : OpLabel Name → Option (Controllers Name)
  | .start thread operation name =>
    if layer.threads thread = .idle then
      some (layer.goto thread (if operation = .loadPythonController then .find operation name
        else .lock operation name))
    else none
  | .go thread launches => layer.go thread launches
  | .close => layer.goClose

/-- The access to the map that a step makes or begins. An entry is erased only where one
is found that may be unloaded. -/
def access (layer : Controllers Name) : OpLabel Name → Access
  | .start _ _ _ => .none
  | .go thread _ =>
    match layer.threads thread with
    | .find _ _ => .read
    | .emplace _ _ _ => .write
    | .extract operation name =>
      match layer.controllers.lookup name with
      | none => .read
      | some none => .write
      | some (some _) => if operation = .unloadExternalController then .read else .write
    | _ => .none
  | .close =>
    match layer.close with
    | .swap => .write
    | _ => .none

/-- The step makes or begins an access while an unlocked one is in progress, and one of
the two is a write. -/
def conflicts (layer : Controllers Name) (label : OpLabel Name) : Bool :=
  match layer.access label with
  | .none => false
  | .read => 0 < layer.entries
  | .write => 0 < layer.entries || 0 < layer.lookups

/-- One step of the layer. Once accesses have conflicted the map may hold anything, or the
program end. -/
def step (layer : Controllers Name) (label : OpLabel Name) : Option (Controllers Name) :=
  (layer.advance label).map fun next =>
    { next with undefined := layer.undefined || layer.conflicts label }

end Controllers

/-- A layer without controllers. -/
def controllersSystem (Name : Type) [DecidableEq Name] :
    System (Controllers Name) (OpLabel Name) where
  initial := ⟨∅, none, false, fun _ => none, 0, fun _ => .idle, .notCalled, 0, 0, false⟩
  step := Controllers.step

/-! ### The discipline that keeps controllers in order -/

/-- The controllers that `close` has still to unload. -/
def ClosePc.controllersToStop {Name : Type} : ClosePc Name → List ((_ : Name) × Option Nat)
  | .stopping rest => rest
  | .notCalled | .swap | .returned => []

/-- `close` has set `closing_`. -/
def ClosePc.called {Name : Type} : ClosePc Name → Bool
  | .notCalled => false
  | .swap | .stopping _ | .returned => true

/-- `close` has swapped the map out. -/
def ClosePc.swapped {Name : Type} : ClosePc Name → Bool
  | .stopping _ | .returned => true
  | .notCalled | .swap => false

/-- Who has swapped has set `closing_`. -/
theorem ClosePc.called_of_swapped {Name : Type} {close : ClosePc Name}
    (swapped : close.swapped = true) : close.called = true := by
  cases close <;> first | rfl | cases swapped

namespace OpPc

variable {Name : Type}

/-- Places at which a thread owns `controllers_operations_mutex`. -/
def locked : OpPc Name → Bool
  | .idle | .lock _ _ | .finding _ | .entering _ _ => false
  | .find operation _ | .launch operation _ | .emplace operation _ _ =>
    operation != .loadPythonController
  | .testClosing _ _ | .extract _ _ | .shutdown _ _ | .unlock => true

/-- The name a thread is working on: it has found the name absent under the mutex,
holds a controller not yet entered, or a process not yet shut down. -/
def claims : OpPc Name → Option Name
  | .launch operation name => if operation = .loadPythonController then none else some name
  | .emplace _ name _ | .entering name _ | .shutdown name _ => some name
  | _ => none

/-- The name of a Python controller that the thread has launched and not yet entered. -/
def pending : OpPc Name → Option Name
  | .emplace .loadPythonController name _ | .entering name _ => some name
  | _ => none

/-- The process of a controller that the thread has launched and not yet entered,
or extracted and not yet shut down. -/
def holds : OpPc Name → Option (Name × Nat)
  | .emplace _ name (some proc) | .entering name (some proc) | .shutdown name proc =>
    some (name, proc)
  | _ => none

/-- Who holds a process works on its name. -/
theorem claims_of_holds {pc : OpPc Name} {name : Name} {proc : Nat}
    (held : pc.holds = some (name, proc)) : pc.claims = some name := by
  cases pc with
  | emplace operation other held' => cases held' <;> simp_all [holds, claims]
  | entering other held' => cases held' <;> simp_all [holds, claims]
  | shutdown other held' => simp_all [holds, claims]
  | _ => simp [holds] at held

/-- Who works on a name owns the mutex, or is a `loadPythonController` that has
launched its process. -/
theorem locked_of_claims {pc : OpPc Name} {name : Name} (claimed : pc.claims = some name) :
    pc.locked = true ∨ pc.pending = some name := by
  cases pc with
  | launch operation other =>
    cases operation <;> simp_all [claims, locked]
  | emplace operation other held =>
    obtain rfl : other = name := by simpa [claims] using claimed
    cases operation
    case loadPythonController => exact .inr rfl
    all_goals exact .inl rfl
  | entering other held => exact .inr claimed
  | shutdown other held => exact .inl rfl
  | _ => simp [claims] at claimed

end OpPc

section Discipline

variable {Name : Type}

/-- What makes up for the missing lock of `loadPythonController`: no access to the map
conflicts with one that is in progress; when it launches, its name is absent, nobody
works on the name, and `close` has not swapped the map out; no other load looks a name
up, and `close` does not swap, while it has a process of that name, or of any name,
that is not yet entered. -/
def Disciplined [DecidableEq Name] (layer : Controllers Name) (label : OpLabel Name) : Prop :=
  layer.conflicts label = false ∧
  match label with
  | .go thread launches =>
    match layer.threads thread with
    | .launch .loadPythonController name => launches = true → name ∉ layer.controllers ∧
        (∀ other, (layer.threads other).claims ≠ some name) ∧ layer.close.swapped = false
    | .find .loadPythonController _ => True
    | .find _ name => ∀ other, (layer.threads other).pending ≠ some name
    | _ => True
  | .close =>
    match layer.close with
    | .swap => ∀ other, (layer.threads other).pending = none
    | _ => True
  | .start _ _ _ => True

/-- The invariant of disciplined runs. -/
structure Orderly [DecidableEq Name] (layer : Controllers Name) : Prop where
  mutex : ∀ thread, (layer.threads thread).locked = true → layer.operationsMutex = some thread
  closing : layer.close.called = true → layer.closing = true
  owned : ∀ proc name, layer.processes proc = some name →
    layer.controllers.lookup name = some (some proc) ∨
      (∃ thread, (layer.threads thread).holds = some (name, proc)) ∨
      ⟨name, some proc⟩ ∈ layer.close.controllersToStop
  unique : ∀ proc other name, layer.processes proc = some name →
    layer.processes other = some name → proc = other
  absent : ∀ thread name, (layer.threads thread).claims = some name → name ∉ layer.controllers
  single : ∀ thread other name, (layer.threads thread).claims = some name →
    (layer.threads other).claims = some name → thread = other
  launching : ∀ thread operation name, layer.threads thread = .launch operation name →
    operation ≠ .loadPythonController → ∀ proc, layer.processes proc ≠ some name
  past : layer.close.swapped = true → layer.controllers = ∅ ∧
    ∀ thread, (layer.threads thread).claims = none ∧
      ∀ operation name, layer.threads thread = .find operation name →
        operation = .loadPythonController

end Discipline

/-! ### One step -/

namespace Orderly

variable {Name : Type} [DecidableEq Name] {layer next : Controllers Name} {thread : Nat}

/-- Nobody works on a name after the swap. -/
theorem not_swapped (holds : Orderly layer) {name : Name}
    (claimed : (layer.threads thread).claims = some name) : layer.close.swapped = false := by
  by_contra swapped
  have none := ((holds.past (by simpa using swapped)).2 thread).1
  exact absurd (claimed.symm.trans none) (by simp)

/-- Only one thread owns the mutex. -/
theorem eq_of_locked (holds : Orderly layer) {other : Nat}
    (mine : (layer.threads thread).locked = true) (others : (layer.threads other).locked = true) :
    thread = other :=
  Option.some.inj ((holds.mutex thread mine).symm.trans (holds.mutex other others))

/-- A process that is not in the map is held by a thread that works on its name, or
`close` has swapped. -/
theorem claimed_of_absent (holds : Orderly layer) {proc : Nat} {name : Name}
    (runs : layer.processes proc = some name) (absent : name ∉ layer.controllers) :
    (∃ thread, (layer.threads thread).claims = some name) ∨ layer.close.swapped = true := by
  rcases holds.owned proc name runs with entered | ⟨thread, held⟩ | stops
  · exact absurd (AList.lookup_isSome.mp (by simp [entered])) absent
  · exact .inl ⟨thread, OpPc.claims_of_holds held⟩
  · right
    cases place : layer.close with
    | stopping rest => rfl
    | _ => simp [place, ClosePc.controllersToStop] at stops

omit [DecidableEq Name] in
/-- After a thread has gone on elsewhere, what holds of the place of some thread holds
of that place, or held of another thread before. -/
theorem goto_cases (layer : Controllers Name) {pc : OpPc Name} {other : Nat}
    (Holds : OpPc Name → Prop) (there : Holds ((layer.goto thread pc).threads other)) :
    (other = thread ∧ Holds pc) ∨ (other ≠ thread ∧ Holds (layer.threads other)) := by
  by_cases same : other = thread
  · subst same
    left
    exact ⟨rfl, by simpa [Controllers.goto] using there⟩
  · right
    exact ⟨same, by simpa [Controllers.goto, same] using there⟩

omit [DecidableEq Name] in
/-- A name somebody works on is either the new one of that thread or one that another
thread worked on before. -/
theorem claims_goto (layer : Controllers Name) {pc : OpPc Name} {other : Nat} {name : Name}
    (claimed : ((layer.goto thread pc).threads other).claims = some name) :
    (other = thread ∧ pc.claims = some name) ∨
      (other ≠ thread ∧ (layer.threads other).claims = some name) :=
  goto_cases layer (fun pc => pc.claims = some name) claimed

/-- The mutex is still owned by the thread at a place that needs it, if that thread
owned it or needs it no longer. -/
theorem mutex_goto (holds : Orderly layer) {pc : OpPc Name}
    (mine : pc.locked = true → layer.operationsMutex = some thread) {other : Nat}
    (locked : ((layer.goto thread pc).threads other).locked = true) :
    layer.operationsMutex = some other := by
  obtain ⟨rfl, here⟩ | ⟨_, before⟩ := goto_cases layer (fun pc => pc.locked = true) locked
  · exact mine here
  · exact holds.mutex other before

/-- Two threads still work on different names, if nobody else works on the one that the thread
goes on to. -/
theorem single_goto (holds : Orderly layer) {pc : OpPc Name}
    (alone : ∀ name, pc.claims = some name → ∀ other, other ≠ thread →
      (layer.threads other).claims ≠ some name) {first second : Nat} {name : Name}
    (one : ((layer.goto thread pc).threads first).claims = some name)
    (two : ((layer.goto thread pc).threads second).claims = some name) : first = second := by
  obtain ⟨rfl, claimed⟩ | ⟨different, before⟩ := claims_goto layer one
  · obtain ⟨rfl, _⟩ | ⟨different, later⟩ := claims_goto layer two
    · rfl
    · exact absurd later (alone name claimed second different)
  · obtain ⟨rfl, claimed⟩ | ⟨_, later⟩ := claims_goto layer two
    · exact absurd before (alone name claimed first different)
    · exact holds.single first second name before later

omit [DecidableEq Name] in
/-- Other threads keep the processes they hold. -/
theorem holds_goto (layer : Controllers Name) {pc : OpPc Name} {other : Nat} {held : Name × Nat}
    (before : (layer.threads other).holds = some held)
    (different : (layer.threads thread).holds ≠ some held) :
    ((layer.goto thread pc).threads other).holds = some held := by
  have apart : other ≠ thread := by
    rintro rfl
    exact different before
  simpa [Controllers.goto, apart] using before

omit [DecidableEq Name] in
/-- A thread that holds nothing can go on without a process becoming unowned. -/
theorem owned_goto (layer : Controllers Name) {pc : OpPc Name} {proc : Nat} {name : Name}
    {entered stops : Prop} (nothing : (layer.threads thread).holds ≠ some (name, proc))
    (owned : entered ∨ (∃ other, (layer.threads other).holds = some (name, proc)) ∨ stops) :
    entered ∨ (∃ other, ((layer.goto thread pc).threads other).holds = some (name, proc)) ∨
      stops := by
  obtain before | ⟨other, held⟩ | after := owned
  · exact .inl before
  · exact .inr (.inl ⟨other, holds_goto layer held nothing⟩)
  · exact .inr (.inr after)

/-- A thread that holds no process and works on no name afterwards leaves things in
order, also when it takes or releases the mutex. -/
theorem move (holds : Orderly layer) {pc : OpPc Name} {mutex : Option Nat}
    (others : ∀ other, other ≠ thread → (layer.threads other).locked = true → mutex = some other)
    (mine : pc.locked = true → mutex = some thread)
    (nothing : (layer.threads thread).holds = none) (unclaimed : pc.claims = none)
    (python : layer.close.swapped = true → ∀ operation name, pc = .find operation name →
      operation = .loadPythonController) :
    Orderly ({ layer with operationsMutex := mutex }.goto thread pc) := by
  have claims : ∀ other name, ((layer.goto thread pc).threads other).claims = some name →
      (layer.threads other).claims = some name := by
    intro other name claimed
    obtain ⟨_, mine⟩ | ⟨_, before⟩ := claims_goto layer claimed
    · exact absurd (mine.symm.trans unclaimed) (by simp)
    · exact before
  constructor
  case mutex =>
    intro other locked
    obtain ⟨rfl, here⟩ | ⟨different, before⟩ :=
      goto_cases layer (fun pc => pc.locked = true) locked
    · exact mine here
    · exact others other different before
  case closing => exact holds.closing
  case owned =>
    intro proc name runs
    exact owned_goto layer (by simp [nothing]) (holds.owned proc name runs)
  case unique => exact holds.unique
  case absent =>
    intro other name claimed
    exact holds.absent other name (claims other name claimed)
  case single =>
    intro first second name one two
    exact holds.single first second name (claims first name one) (claims second name two)
  case launching =>
    intro other operation name place different
    obtain ⟨_, launches⟩ | ⟨_, before⟩ :=
      goto_cases layer (fun pc => pc = .launch operation name) place
    · simp [launches, OpPc.claims, different] at unclaimed
    · exact holds.launching other operation name before different
  case past =>
    intro swapped
    obtain ⟨empty, unworked⟩ := holds.past swapped
    refine ⟨empty, fun other => ⟨?_, ?_⟩⟩
    · by_contra claimed
      obtain ⟨name, claimed⟩ := Option.ne_none_iff_exists'.mp claimed
      have before := claims other name claimed
      exact absurd (before.symm.trans (unworked other).1) (by simp)
    · intro operation name place
      obtain ⟨_, here⟩ | ⟨_, before⟩ := goto_cases layer (fun pc => pc = .find operation name) place
      · exact python swapped operation name here
      · exact (unworked other).2 operation name before

/-- The same without touching the mutex. -/
theorem goto (holds : Orderly layer) {pc : OpPc Name}
    (mine : pc.locked = true → layer.operationsMutex = some thread)
    (nothing : (layer.threads thread).holds = none) (unclaimed : pc.claims = none)
    (python : layer.close.swapped = true → ∀ operation name, pc = .find operation name →
      operation = .loadPythonController) : Orderly (layer.goto thread pc) :=
  holds.move (fun other _ locked => holds.mutex other locked) mine nothing unclaimed python

/-- At the end of an operation that holds no process. -/
theorem finish (holds : Orderly layer) {operation : Operation}
    (mine : operation ≠ .loadPythonController → layer.operationsMutex = some thread)
    (nothing : (layer.threads thread).holds = none) :
    Orderly (layer.goto thread (Controllers.finish operation)) := by
  apply holds.goto _ nothing
  · cases operation <;> rfl
  · intro _ other name place
    cases operation <;> simp [Controllers.finish] at place
  · intro locked
    apply mine
    rintro rfl
    simp [Controllers.finish, OpPc.locked] at locked

/-- A thread that owns the mutex begins to work on an absent name that no process
runs for and nobody else works on. -/
theorem claim (holds : Orderly layer) {pc : OpPc Name} (name : Name)
    (owner : layer.operationsMutex = some thread) (nothing : (layer.threads thread).holds = none)
    (claimed : pc.claims = some name) (absent : name ∉ layer.controllers)
    (alone : ∀ other, (layer.threads other).claims ≠ some name)
    (early : layer.close.swapped = false) : Orderly (layer.goto thread pc) := by
  constructor
  case mutex =>
    intro other locked
    exact holds.mutex_goto (fun _ => owner) locked
  case closing => exact holds.closing
  case owned =>
    intro proc found runs
    exact owned_goto layer (by simp [nothing]) (holds.owned proc found runs)
  case unique => exact holds.unique
  case absent =>
    intro other found there
    obtain ⟨_, mine⟩ | ⟨_, before⟩ := claims_goto layer there
    · obtain rfl := Option.some.inj (claimed.symm.trans mine)
      exact absent
    · exact holds.absent other found before
  case single =>
    intro first second found one two
    refine holds.single_goto ?_ one two
    intro found mine other _
    obtain rfl := Option.some.inj (claimed.symm.trans mine)
    exact alone other
  case launching =>
    intro other operation found place different proc runs
    obtain ⟨_, launches⟩ | ⟨_, before⟩ :=
      goto_cases layer (fun pc => pc = .launch operation found) place
    · obtain rfl : found = name := by simpa [launches, OpPc.claims, different] using claimed
      obtain ⟨other, there⟩ | swapped := holds.claimed_of_absent runs absent
      · exact alone other there
      · exact absurd (swapped.symm.trans early) (by simp)
    · exact holds.launching other operation found before different proc runs
  case past =>
    intro swapped
    exact absurd (swapped.symm.trans early) (by simp)

/-- A process is launched for an absent name that nobody else works on and no
process runs for. -/
theorem launch (holds : Orderly layer) {operation : Operation} {name : Name}
    (place : layer.threads thread = .launch operation name) (absent : name ∉ layer.controllers)
    (alone : ∀ other, other ≠ thread → (layer.threads other).claims ≠ some name)
    (none : ∀ proc, layer.processes proc ≠ some name) (early : layer.close.swapped = false) :
    Orderly ({ layer with
      processes := Function.update layer.processes layer.launched (some name)
      launched := layer.launched + 1 }.goto thread
        (.emplace operation name (some layer.launched))) := by
  have runs : ∀ proc found,
      Function.update layer.processes layer.launched (some name) proc = some found →
      (proc = layer.launched ∧ found = name) ∨ layer.processes proc = some found := by
    intro proc found there
    by_cases same : proc = layer.launched
    · subst same
      rw [Function.update_self] at there
      exact .inl ⟨rfl, (Option.some.inj there).symm⟩
    · exact .inr (by simpa [same] using there)
  have claims : ∀ other found, ((layer.goto thread
      (.emplace operation name (some layer.launched))).threads other).claims = some found →
      (other = thread ∧ found = name) ∨
        (other ≠ thread ∧ (layer.threads other).claims = some found) := by
    intro other found there
    obtain ⟨same, mine⟩ | before := claims_goto layer there
    · exact .inl ⟨same, by simpa [OpPc.claims, eq_comm] using mine⟩
    · exact .inr before
  constructor
  case mutex =>
    intro other locked
    apply holds.mutex_goto _ locked
    intro needed
    apply holds.mutex thread
    simpa [place, OpPc.locked] using needed
  case closing => exact holds.closing
  case owned =>
    intro proc found there
    obtain ⟨rfl, rfl⟩ | before := runs proc found there
    · exact .inr (.inl ⟨thread, by simp [Controllers.goto, OpPc.holds]⟩)
    · exact owned_goto layer (by simp [place, OpPc.holds]) (holds.owned proc found before)
  case unique =>
    intro first second found one two
    obtain ⟨rfl, rfl⟩ | before := runs first found one
    · obtain ⟨rfl, _⟩ | later := runs second found two
      · rfl
      · exact absurd later (none second)
    · obtain ⟨_, rfl⟩ | later := runs second found two
      · exact absurd before (none first)
      · exact holds.unique first second found before later
  case absent =>
    intro other found there
    obtain ⟨_, rfl⟩ | ⟨_, before⟩ := claims other found there
    · exact absent
    · exact holds.absent other found before
  case single =>
    intro first second found one two
    refine holds.single_goto ?_ one two
    intro found claimed
    obtain rfl : name = found := by simpa [OpPc.claims] using claimed
    exact alone
  case launching =>
    intro other operation' found there different proc running
    obtain ⟨_, here⟩ | ⟨apart, before⟩ :=
      goto_cases layer (fun pc => pc = .launch operation' found) there
    · cases here
    · obtain ⟨_, rfl⟩ | running := runs proc found running
      · exact alone other apart (by simp [before, OpPc.claims, different])
      · exact holds.launching other operation' found before different proc running
  case past =>
    intro swapped
    exact absurd (swapped.symm.trans early) (by simp)

/-- The counts of unlocked accesses and the mark of a race are not looked at. -/
theorem count (holds : Orderly layer) (lookups entries : Nat) (undefined : Bool) :
    Orderly { layer with lookups := lookups, entries := entries, undefined := undefined } :=
  ⟨holds.mutex, holds.closing, holds.owned, holds.unique, holds.absent, holds.single,
    holds.launching, holds.past⟩

/-- A thread begins to enter its Python controller. -/
theorem enter (holds : Orderly layer) {name : Name} {proc : Option Nat}
    (place : layer.threads thread = .emplace .loadPythonController name proc) :
    Orderly (layer.goto thread (.entering name proc)) := by
  have claimed : (layer.threads thread).claims = some name := by simp [place, OpPc.claims]
  have claims : ∀ other found,
      ((layer.goto thread (.entering name proc)).threads other).claims = some found →
      (layer.threads other).claims = some found := by
    intro other found there
    obtain ⟨rfl, mine⟩ | ⟨_, before⟩ := claims_goto layer there
    · obtain rfl : name = found := by simpa [OpPc.claims] using mine
      exact claimed
    · exact before
  constructor
  case mutex =>
    intro other locked
    exact holds.mutex_goto (by simp [OpPc.locked]) locked
  case closing => exact holds.closing
  case owned =>
    intro other found runs
    refine (holds.owned other found runs).imp id (Or.imp ?_ id)
    rintro ⟨holder, held⟩
    refine ⟨holder, ?_⟩
    by_cases same : holder = thread
    · subst same
      cases proc <;> simp_all [Controllers.goto, OpPc.holds]
    · simpa [Controllers.goto, same] using held
  case unique => exact holds.unique
  case absent =>
    intro other found there
    exact holds.absent other found (claims other found there)
  case single =>
    intro first second found one two
    exact holds.single first second found (claims first found one) (claims second found two)
  case launching =>
    intro other operation found there
    obtain ⟨_, here⟩ | ⟨_, before⟩ :=
      goto_cases layer (fun pc => pc = .launch operation found) there
    · cases here
    · exact holds.launching other operation found before
  case past =>
    intro swapped
    exact absurd (swapped.symm.trans (holds.not_swapped claimed)) (by simp)

/-- A controller is entered under the name its thread works on. -/
theorem emplace (holds : Orderly layer) {operation : Operation} {name : Name} {proc : Option Nat}
    (place : layer.threads thread = .emplace operation name proc ∨
      operation = .loadPythonController ∧ layer.threads thread = .entering name proc) :
    Orderly ({ layer with controllers := Controllers.emplace layer.controllers name proc }.goto
      thread (Controllers.finish operation)) := by
  have claimed : (layer.threads thread).claims = some name := by
    obtain here | ⟨_, here⟩ := place <;> simp [here, OpPc.claims]
  have absent := holds.absent thread name claimed
  have early := holds.not_swapped claimed
  have entered : Controllers.emplace layer.controllers name proc =
      layer.controllers.insert name proc := by simp [Controllers.emplace, absent]
  have unclaimed : (Controllers.finish operation : OpPc Name).claims = none := by
    cases operation <;> rfl
  have claims : ∀ other found,
      ((layer.goto thread (Controllers.finish operation)).threads other).claims = some found →
      other ≠ thread ∧ (layer.threads other).claims = some found := by
    intro other found there
    obtain ⟨_, mine⟩ | before := claims_goto layer there
    · exact absurd (mine.symm.trans unclaimed) (by simp)
    · exact before
  rw [entered]
  constructor
  case mutex =>
    intro other locked
    apply holds.mutex_goto _ locked
    intro needed
    apply holds.mutex thread
    obtain here | ⟨rfl, here⟩ := place
    · cases operation <;> simp_all [Controllers.finish, OpPc.locked]
    · simp [Controllers.finish, OpPc.locked] at needed
  case closing => exact holds.closing
  case owned =>
    intro other found runs
    by_cases same : found = name
    · subst same
      have nowhere : layer.controllers.lookup found = none := AList.lookup_eq_none.mpr absent
      obtain before | ⟨holder, held⟩ | stops := holds.owned other found runs
      · simp [nowhere] at before
      · obtain rfl : holder = thread :=
          holds.single holder thread found (OpPc.claims_of_holds held) claimed
        obtain rfl : proc = some other := by
          obtain here | ⟨_, here⟩ := place <;> cases proc <;> simp_all [OpPc.holds]
        exact .inl (AList.lookup_insert layer.controllers)
      · exact .inr (.inr stops)
    · apply owned_goto layer
      · intro mine
        have worked := OpPc.claims_of_holds mine
        exact same (Option.some.inj (worked.symm.trans claimed))
      · exact (holds.owned other found runs).imp (AList.lookup_insert_ne same).trans id
  case unique => exact holds.unique
  case absent =>
    intro other found there present
    obtain ⟨different, before⟩ := claims other found there
    obtain rfl | present := (AList.mem_insert _).mp present
    · exact different (holds.single other thread found before claimed)
    · exact holds.absent other found before present
  case single =>
    intro first second found one two
    exact holds.single first second found (claims first found one).2 (claims second found two).2
  case launching =>
    intro other operation' found there
    obtain ⟨_, here⟩ | ⟨_, before⟩ :=
      goto_cases layer (fun pc => pc = .launch operation' found) there
    · cases operation <;> simp [Controllers.finish] at here
    · exact holds.launching other operation' found before
  case past =>
    intro swapped
    exact absurd (swapped.symm.trans early) (by simp)

/-- A controller is extracted from the map. If it has a process the thread goes on
to shut that down. -/
theorem extract (holds : Orderly layer) {operation : Operation} {name : Name}
    {proc : Option Nat} {pc : OpPc Name} (place : layer.threads thread = .extract operation name)
    (present : layer.controllers.lookup name = some proc)
    (follows : pc = proc.elim .unlock (.shutdown name)) :
    Orderly ({ layer with controllers := layer.controllers.erase name }.goto thread pc) := by
  have member : name ∈ layer.controllers := AList.lookup_isSome.mp (by simp [present])
  have nothing : (layer.threads thread).holds = none := by simp [place, OpPc.holds]
  have unworked : ∀ other, (layer.threads other).claims ≠ some name := fun other claimed =>
    holds.absent other name claimed member
  have mine : ∀ found, pc.claims = some found → found = name := by
    intro found claimed
    cases proc <;> simp_all [OpPc.claims]
  have locked : layer.operationsMutex = some thread :=
    holds.mutex thread (by simp [place, OpPc.locked])
  constructor
  case mutex =>
    intro other there
    exact holds.mutex_goto (fun _ => locked) there
  case closing => exact holds.closing
  case owned =>
    intro other found runs
    obtain entered | ⟨holder, held⟩ | stops := holds.owned other found runs
    · by_cases same : found = name
      · subst same
        obtain rfl : proc = some other := Option.some.inj (present.symm.trans entered)
        exact .inr (.inl ⟨thread, by simp [Controllers.goto, follows, OpPc.holds]⟩)
      · exact .inl ((AList.lookup_erase_ne same).trans entered)
    · exact .inr (.inl ⟨holder, holds_goto layer held (by simp [nothing])⟩)
    · exact .inr (.inr stops)
  case unique => exact holds.unique
  case absent =>
    intro other found there
    obtain ⟨_, claimed⟩ | ⟨_, before⟩ := claims_goto layer there
    · obtain rfl := mine found claimed
      simp [Controllers.goto, AList.mem_erase]
    · intro present
      exact holds.absent other found before (AList.mem_erase.mp present).2
  case single =>
    intro first second found one two
    refine holds.single_goto ?_ one two
    intro found claimed other _
    obtain rfl := mine found claimed
    exact unworked other
  case launching =>
    intro other operation' found there
    obtain ⟨_, here⟩ | ⟨_, before⟩ :=
      goto_cases layer (fun pc => pc = .launch operation' found) there
    · cases proc <;> simp [follows] at here
    · exact holds.launching other operation' found before
  case past =>
    intro swapped
    exact absurd member (by simp [(holds.past swapped).1])

/-- The process of an extracted controller is shut down. -/
theorem shutdown (holds : Orderly layer) {name : Name} {proc : Nat}
    (place : layer.threads thread = .shutdown name proc) :
    Orderly ((layer.kill proc).goto thread .unlock) := by
  have locked : layer.operationsMutex = some thread :=
    holds.mutex thread (by simp [place, OpPc.locked])
  have claims : ∀ other found, ((layer.goto thread .unlock).threads other).claims = some found →
      (layer.threads other).claims = some found := by
    intro other found there
    obtain ⟨_, mine⟩ | ⟨_, before⟩ := claims_goto layer there
    · cases mine
    · exact before
  have runs : ∀ other found, (layer.kill proc).processes other = some found →
      other ≠ proc ∧ layer.processes other = some found := by
    intro other found running
    by_cases same : other = proc
    · simp [Controllers.kill, same] at running
    · exact ⟨same, by simpa [Controllers.kill, same] using running⟩
  constructor
  case mutex =>
    intro other there
    exact holds.mutex_goto (fun _ => locked) there
  case closing => exact holds.closing
  case owned =>
    intro other found running
    obtain ⟨different, before⟩ := runs other found running
    apply owned_goto layer _ (holds.owned other found before)
    intro mine
    have same : name = found ∧ proc = other := by simpa [place, OpPc.holds] using mine
    exact different same.2.symm
  case unique =>
    intro first second found one two
    exact holds.unique first second found (runs first found one).2 (runs second found two).2
  case absent =>
    intro other found there
    exact holds.absent other found (claims other found there)
  case single =>
    intro first second found one two
    exact holds.single first second found (claims first found one) (claims second found two)
  case launching =>
    intro other operation found there different other' running
    obtain ⟨_, here⟩ | ⟨_, before⟩ :=
      goto_cases layer (fun pc => pc = .launch operation found) there
    · cases here
    · exact holds.launching other operation found before different other'
        (runs other' found running).2
  case past =>
    intro swapped
    have worked : (layer.threads thread).claims = some name := by simp [place, OpPc.claims]
    exact absurd (swapped.symm.trans (holds.not_swapped worked)) (by simp)

/-- A name that is not in the map: a thread with the mutex goes on to create its
controller. -/
theorem create (holds : Orderly layer) {operation : Operation} {name : Name} {launches : Bool}
    (place : layer.threads thread = .find operation name)
    (locked : operation ≠ .loadPythonController) (absent : name ∉ layer.controllers)
    (disciplined : Disciplined layer (.go thread launches)) :
    Orderly (layer.goto thread (Controllers.create operation name)) := by
  have nothing : (layer.threads thread).holds = none := by simp [place, OpPc.holds]
  have mine : (layer.threads thread).locked = true := by simp [place, OpPc.locked, locked]
  have entering : ∀ other, (layer.threads other).pending ≠ some name := by
    cases operation <;> simp_all [Disciplined]
  apply holds.claim name (holds.mutex thread mine) nothing _ absent
  · intro other claimed
    obtain others | there := OpPc.locked_of_claims claimed
    · obtain rfl := holds.eq_of_locked mine others
      simp [place, OpPc.claims] at claimed
    · exact entering other there
  · by_contra swapped
    exact locked (((holds.past (by simpa using swapped)).2 thread).2 operation name place)
  · unfold Controllers.create
    split <;> simp [OpPc.claims, locked]

/-- The end of the unlocked lookup. -/
theorem found (holds : Orderly layer) {name : Name}
    (place : layer.threads thread = .finding name) {pc : OpPc Name}
    (follows : pc = Controllers.finish .loadPythonController ∨
      pc = Controllers.create .loadPythonController name) : Orderly (layer.goto thread pc) := by
  have nothing : (layer.threads thread).holds = none := by simp [place, OpPc.holds]
  obtain rfl | rfl := follows
  · exact holds.finish (by simp) nothing
  · exact holds.goto (by simp [Controllers.create, OpPc.locked]) nothing rfl
      (by simp [Controllers.create])

/-- Taking the mutex. -/
theorem lock (holds : Orderly layer) {operation : Operation} {name : Name} {launches : Bool}
    (place : layer.threads thread = .lock operation name)
    (taken : layer.go thread launches = some next) : Orderly next := by
  simp only [Controllers.go, place] at taken
  split at taken
  · have free : layer.operationsMutex = none := ‹_›
    have others : ∀ other, other ≠ thread → (layer.threads other).locked = true →
        some thread = some other := by
      intro other _ locked
      have owner := holds.mutex other locked
      rw [free] at owner
      cases owner
    have nothing : (layer.threads thread).holds = none := by simp [place, OpPc.holds]
    split at taken <;> obtain rfl := Option.some.inj taken
    · exact holds.move others (fun _ => rfl) nothing rfl (by simp)
    · exact holds.move others (fun _ => rfl) nothing rfl (by simp)
    · exact holds.move others (fun _ => rfl) nothing rfl (by simp)
  · cases taken

/-- A launch that succeeds in a disciplined run. -/
theorem launches (holds : Orderly layer) {operation : Operation} {name : Name}
    (place : layer.threads thread = .launch operation name)
    (disciplined : Disciplined layer (.go thread true)) :
    Orderly ({ layer with
      processes := Function.update layer.processes layer.launched (some name)
      launched := layer.launched + 1 }.goto thread
        (.emplace operation name (some layer.launched))) := by
  by_cases python : operation = .loadPythonController
  · subst python
    obtain ⟨absent, alone, early⟩ := (by simpa [Disciplined, place] using disciplined.2 :
      name ∉ layer.controllers ∧ (∀ other, ¬ (layer.threads other).claims = some name) ∧
        layer.close.swapped = false)
    apply holds.launch place absent (fun other _ => alone other) _ early
    intro proc runs
    obtain ⟨other, claimed⟩ | swapped := holds.claimed_of_absent runs absent
    · exact alone other claimed
    · exact absurd (swapped.symm.trans early) (by simp)
  · have claimed : (layer.threads thread).claims = some name := by
      simp [place, OpPc.claims, python]
    exact holds.launch place (holds.absent thread name claimed)
      (fun other different others => different (holds.single other thread name others claimed))
      (holds.launching thread operation name place python) (holds.not_swapped claimed)

/-- One step of a thread in a disciplined run. -/
theorem go (holds : Orderly layer) {launches : Bool}
    (disciplined : Disciplined layer (.go thread launches))
    (taken : layer.go thread launches = some next) : Orderly next := by
  cases place : layer.threads thread with
  | idle => simp [Controllers.go, place] at taken
  | lock operation name => exact holds.lock place taken
  | testClosing operation name =>
    have mine : layer.operationsMutex = some thread :=
      holds.mutex thread (by simp [place, OpPc.locked])
    have nothing : (layer.threads thread).holds = none := by simp [place, OpPc.holds]
    simp only [Controllers.go, place] at taken
    split at taken <;> obtain rfl := Option.some.inj taken
    · exact holds.goto (fun _ => mine) nothing rfl (by simp)
    · apply holds.goto (fun _ => mine) nothing rfl
      intro swapped
      exact absurd (holds.closing (ClosePc.called_of_swapped swapped)) ‹_›
  | find operation name =>
    simp only [Controllers.go, place] at taken
    split at taken
    · obtain rfl := Option.some.inj taken
      exact (holds.goto (by simp [OpPc.locked]) (by simp [place, OpPc.holds]) rfl (by simp)).count
        (layer.lookups + 1) layer.entries layer.undefined
    · have locked : operation ≠ .loadPythonController := ‹_›
      split at taken <;> obtain rfl := Option.some.inj taken
      · exact holds.finish (fun _ => holds.mutex thread (by simp [place, OpPc.locked, locked]))
          (by simp [place, OpPc.holds])
      · exact holds.create place locked ‹_› disciplined
  | finding name =>
    have counted := holds.count (layer.lookups - 1) layer.entries layer.undefined
    simp only [Controllers.go, place] at taken
    split at taken <;> obtain rfl := Option.some.inj taken
    · exact counted.found place (.inl rfl)
    · exact counted.found place (.inr rfl)
  | launch operation name =>
    simp only [Controllers.go, place] at taken
    split at taken <;> obtain rfl := Option.some.inj taken
    · have succeeds : launches = true := ‹_›
      exact holds.launches place (succeeds ▸ disciplined)
    · exact holds.finish (fun python => holds.mutex thread (by simp [place, OpPc.locked, python]))
        (by simp [place, OpPc.holds])
  | emplace operation name proc =>
    simp only [Controllers.go, place] at taken
    split at taken <;> obtain rfl := Option.some.inj taken
    · have python : operation = .loadPythonController := ‹_›
      exact (holds.enter (python ▸ place)).count layer.lookups (layer.entries + 1) layer.undefined
    · exact holds.emplace (.inl place)
  | entering name proc =>
    have counted := holds.count layer.lookups (layer.entries - 1) layer.undefined
    simp only [Controllers.go, place, Option.some.injEq] at taken
    exact taken ▸ counted.emplace (.inr ⟨rfl, place⟩)
  | extract operation name =>
    have returns : Orderly (layer.goto thread .unlock) :=
      holds.goto (fun _ => holds.mutex thread (by simp [place, OpPc.locked]))
        (by simp [place, OpPc.holds]) rfl (by simp)
    simp only [Controllers.go, place] at taken
    split at taken
    · exact Option.some.inj taken ▸ returns
    · exact Option.some.inj taken ▸ holds.extract place ‹_› rfl
    · split at taken <;> obtain rfl := Option.some.inj taken
      · exact returns
      · exact holds.extract place ‹_› rfl
  | shutdown name proc =>
    simp only [Controllers.go, place, Option.some.injEq] at taken
    exact taken ▸ holds.shutdown place
  | unlock =>
    have mine : (layer.threads thread).locked = true := by simp [place, OpPc.locked]
    simp only [Controllers.go, place, Option.some.injEq] at taken
    subst taken
    apply holds.move _ (by simp [OpPc.locked]) (by simp [place, OpPc.holds]) rfl (by simp)
    intro other different others
    exact absurd (holds.eq_of_locked others mine) different

/-- The swap of `close` in a disciplined run. -/
theorem swap (holds : Orderly layer) (place : layer.close = .swap)
    (free : layer.operationsMutex = none) (disciplined : Disciplined layer .close) :
    Orderly { layer with controllers := ∅, close := .stopping layer.controllers.entries } := by
  have unlocked : ∀ other, (layer.threads other).locked = false := by
    intro other
    by_contra locked
    have owner := holds.mutex other (by simpa using locked)
    simp [free] at owner
  have unworked : ∀ other, (layer.threads other).claims = none := by
    intro other
    by_contra claimed
    obtain ⟨name, claimed⟩ := Option.ne_none_iff_exists'.mp claimed
    rcases OpPc.locked_of_claims claimed with locked | there
    · exact absurd (locked.symm.trans (unlocked other)) (by simp)
    · have entered : ∀ other, (layer.threads other).pending = none := by
        simpa [Disciplined, place] using disciplined.2
      exact absurd (there.symm.trans (entered other)) (by simp)
  have closing := holds.closing (by simp [place, ClosePc.called])
  constructor
  case mutex => exact holds.mutex
  case closing =>
    intro _
    exact closing
  case owned =>
    intro proc name runs
    obtain entered | held | stops := holds.owned proc name runs
    · exact .inr (.inr (AList.mem_lookup_iff.mp entered))
    · exact .inr (.inl held)
    · simp [place, ClosePc.controllersToStop] at stops
  case unique => exact holds.unique
  case absent =>
    intro other name claimed
    exact absurd (claimed.symm.trans (unworked other)) (by simp)
  case single => exact holds.single
  case launching => exact holds.launching
  case past =>
    intro _
    refine ⟨rfl, fun other => ⟨unworked other, ?_⟩⟩
    intro operation name there
    have there : layer.threads other = .find operation name := there
    simpa [there, OpPc.locked] using unlocked other

/-- Unloading the next of the controllers that `close` has swapped out. -/
theorem stop (holds : Orderly layer) {name : Name} {proc : Option Nat}
    {rest : List ((_ : Name) × Option Nat)} {processes : Nat → Option Name}
    (place : layer.close = .stopping (⟨name, proc⟩ :: rest))
    (fewer : ∀ other found, processes other = some found →
      layer.processes other = some found ∧ proc ≠ some other) :
    Orderly { layer with processes := processes, close := .stopping rest } := by
  constructor
  case mutex => exact holds.mutex
  case closing =>
    intro _
    exact holds.closing (by simp [place, ClosePc.called])
  case owned =>
    intro other found runs
    obtain ⟨before, kept⟩ := fewer other found runs
    obtain entered | held | stops := holds.owned other found before
    · exact .inl entered
    · exact .inr (.inl held)
    · rw [place] at stops
      obtain same | later := List.mem_cons.mp stops
      · cases same
        exact absurd rfl kept
      · exact .inr (.inr later)
  case unique =>
    intro first second found one two
    exact holds.unique first second found (fewer first found one).1 (fewer second found two).1
  case absent => exact holds.absent
  case single => exact holds.single
  case launching =>
    intro thread operation found there different other runs
    exact holds.launching thread operation found there different other (fewer other found runs).1
  case past =>
    intro _
    exact holds.past (by simp [place, ClosePc.swapped])

/-- One step of `close` in a disciplined run. -/
theorem goClose (holds : Orderly layer) (disciplined : Disciplined layer .close)
    (taken : layer.goClose = some next) : Orderly next := by
  simp only [Controllers.goClose] at taken
  split at taken
  · obtain rfl := Option.some.inj taken
    have place : layer.close = .notCalled := ‹_›
    exact ⟨holds.mutex, fun _ => rfl, fun proc name runs => (holds.owned proc name runs).imp id
      (Or.imp id (by simp [place, ClosePc.controllersToStop])), holds.unique, holds.absent,
      holds.single, holds.launching, by simp [ClosePc.swapped]⟩
  · split at taken
    · exact Option.some.inj taken ▸ holds.swap ‹_› ‹_› disciplined
    · cases taken
  · obtain rfl := Option.some.inj taken
    have place : layer.close = .stopping [] := ‹_›
    exact ⟨holds.mutex, fun _ => holds.closing (by simp [place, ClosePc.called]),
      fun proc name runs => (holds.owned proc name runs).imp id
        (Or.imp id (by simp [place, ClosePc.controllersToStop])), holds.unique, holds.absent,
      holds.single, holds.launching, fun _ => holds.past (by simp [place, ClosePc.swapped])⟩
  · exact Option.some.inj taken ▸ holds.stop ‹_› fun other found runs => ⟨runs, by simp⟩
  · rename_i name proc rest place
    obtain rfl := Option.some.inj taken
    apply holds.stop place
    intro other found runs
    by_cases same : other = proc
    · simp [Controllers.kill, same] at runs
    · exact ⟨by simpa [Controllers.kill, same] using runs, by simpa [eq_comm] using same⟩
  · cases taken

/-- Starting an operation. -/
theorem start (holds : Orderly layer) {operation : Operation} {name : Name}
    (place : layer.threads thread = .idle) :
    Orderly (layer.goto thread (if operation = .loadPythonController then .find operation name
      else .lock operation name)) := by
  split
  · have python : operation = .loadPythonController := ‹_›
    apply holds.goto (by simp [OpPc.locked, python]) (by simp [place, OpPc.holds]) rfl
    rintro _ other _ same
    cases same
    exact python
  · exact holds.goto (by simp [OpPc.locked]) (by simp [place, OpPc.holds]) rfl (by simp)

end Orderly

/-- Every layer reached by a disciplined run is in order. -/
theorem reachable_orderly {Name : Type} [DecidableEq Name] {layer : Controllers Name}
    (reachable : (controllersSystem Name).ReachableUnder Disciplined layer) : Orderly layer := by
  apply reachable.invariant Orderly
  · constructor <;>
      simp [controllersSystem, OpPc.locked, OpPc.claims, ClosePc.called, ClosePc.swapped]
  · intro before label next holds disciplined taken
    obtain ⟨next, advances, rfl⟩ := Option.map_eq_some_iff.mp taken
    suffices orderly : Orderly next from orderly.count next.lookups next.entries _
    cases label with
    | start thread operation name =>
      simp only [Controllers.advance] at advances
      split at advances
      · exact Option.some.inj advances ▸ holds.start ‹_›
      · cases advances
    | go thread launches => exact holds.go disciplined advances
    | close => exact holds.goClose disciplined advances

/-- No accesses to the map race in a disciplined run. -/
theorem reachable_defined {Name : Type} [DecidableEq Name] {layer : Controllers Name}
    (reachable : (controllersSystem Name).ReachableUnder Disciplined layer) :
    layer.undefined = false := by
  apply reachable.invariant (fun layer => layer.undefined = false) rfl
  intro before label next defined disciplined taken
  obtain ⟨_, _, rfl⟩ := Option.map_eq_some_iff.mp taken
  simp [defined, disciplined.1]

/-- No operation is in progress, and `close` has not been called or has returned. -/
def Quiescent {Name : Type} (layer : Controllers Name) : Prop :=
  (∀ thread, layer.threads thread = .idle) ∧
    (layer.close = .notCalled ∨ layer.close = .returned)

/-- Along disciplined runs accesses to the map do not race, and there is at most one
running process for a name; while no operation is in progress every one of them is in
the map under its name; and after `close` has returned the map is empty and no process
is left. -/
theorem controllers_in_order {Name : Type} [DecidableEq Name] (layer : Controllers Name)
    (reachable : (controllersSystem Name).ReachableUnder Disciplined layer) :
    layer.undefined = false ∧
    (∀ proc other name, layer.processes proc = some name → layer.processes other = some name →
      proc = other) ∧
    (Quiescent layer → ∀ proc name, layer.processes proc = some name →
      layer.controllers.lookup name = some (some proc)) ∧
    (layer.close = .returned → layer.controllers = ∅ ∧
      ∀ proc, layer.processes proc = none) := by
  have holds := reachable_orderly reachable
  refine ⟨reachable_defined reachable, holds.unique, ?_, ?_⟩
  · rintro ⟨idle, closed⟩ proc name runs
    obtain entered | ⟨thread, held⟩ | stops := holds.owned proc name runs
    · exact entered
    · simp [idle thread, OpPc.holds] at held
    · obtain place | place := closed <;> simp [place, ClosePc.controllersToStop] at stops
  · intro returned
    obtain ⟨empty, unworked⟩ := holds.past (by simp [returned, ClosePc.swapped])
    refine ⟨empty, ?_⟩
    intro proc
    by_contra runs
    obtain ⟨name, runs⟩ := Option.ne_none_iff_exists'.mp runs
    obtain entered | ⟨thread, held⟩ | stops := holds.owned proc name runs
    · simp [empty] at entered
    · exact absurd ((OpPc.claims_of_holds held).symm.trans (unworked thread).1) (by simp)
    · simp [returned, ClosePc.controllersToStop] at stops

/-- A Python controller that is loaded undisturbed is in the map. -/
theorem python_controller_entered : ∃ layer : Controllers Unit,
    layer.undefined = false ∧ layer.processes 0 = some () ∧
      layer.controllers.lookup () = some (some 0) := by
  have admitted : (controllersSystem Unit).AdmitsFrom Disciplined
      (controllersSystem Unit).initial
      (.start 0 .loadPythonController () :: List.replicate 5 (.go 0 true)) := by
    refine ⟨⟨rfl, trivial⟩, ?_⟩
    rintro _ ⟨⟩
    refine ⟨⟨rfl, trivial⟩, ?_⟩
    rintro _ ⟨⟩
    refine ⟨⟨rfl, trivial⟩, ?_⟩
    rintro _ ⟨⟩
    -- the launch: the map is empty and all other threads are idle
    refine ⟨⟨rfl, fun _ => ⟨AList.notMem_empty (), fun other => ?_, rfl⟩⟩, ?_⟩
    · by_cases same : other = 0
      · subst same
        simp [Controllers.goto, Controllers.create, OpPc.claims]
      · simp [Controllers.goto, controllersSystem, same, OpPc.claims]
    rintro _ ⟨⟩
    refine ⟨⟨rfl, trivial⟩, ?_⟩
    rintro _ ⟨⟩
    refine ⟨⟨rfl, trivial⟩, ?_⟩
    rintro _ ⟨⟩
    trivial
  have reachable := System.ReachableUnder.initial.runFrom admitted rfl
  have order := controllers_in_order _ reachable
  refine ⟨_, order.1, rfl, order.2.2.1 ⟨fun thread => ?_, .inl rfl⟩ 0 () rfl⟩
  by_cases same : thread = 0
  · subst same
    rfl
  · simp [Controllers.goto, controllersSystem, same]

/-- A Python controller and a library controller of one name can both be launched, a
Python controller can be left running, in the map, after `close` has returned, and the
entries of two Python controllers of different names can race. -/
theorem python_controller_escapes :
    (∃ layer, (controllersSystem Unit).Reachable layer ∧ layer.undefined = false ∧
      layer.processes 0 = some () ∧ layer.processes 1 = some ()) ∧
    (∃ layer, (controllersSystem Unit).Reachable layer ∧ layer.undefined = false ∧
      layer.close = .returned ∧ layer.controllers.lookup () = some (some 0) ∧
      layer.processes 0 = some ()) ∧
    ∃ layer, (controllersSystem Bool).Reachable layer ∧ layer.undefined = true := by
  have twice : ((controllersSystem Unit).run ([.start 0 .loadPythonController ()] ++
      List.replicate 3 (.go 0 true) ++ [.start 1 .loadController ()] ++
      List.replicate 4 (.go 1 true))).any (fun layer => layer.undefined == false &&
        (layer.processes 0 == some () && layer.processes 1 == some ())) = true := by
    decide
  have late : ((controllersSystem Unit).run ([.start 0 .loadPythonController ()] ++
      List.replicate 3 (.go 0 true) ++ [.close, .close, .close] ++
      List.replicate 2 (.go 0 true))).any (fun layer => layer.undefined == false &&
        ((match layer.close with | .returned => true | _ => false) &&
          (layer.controllers.lookup () == some (some 0) && layer.processes 0 == some ()))) =
        true := by
    decide
  have race : ((controllersSystem Bool).run ([.start 0 .loadPythonController false] ++
      List.replicate 3 (.go 0 true) ++ [.start 1 .loadPythonController true] ++
      List.replicate 3 (.go 1 true) ++ [.go 0 true, .go 1 true])).any
        (fun layer => layer.undefined) = true := by
    decide
  obtain ⟨layer, reachable, both⟩ := System.exists_reachable_of_run twice
  obtain ⟨closed, reachableClosed, passes⟩ := System.exists_reachable_of_run late
  obtain ⟨raced, reachableRaced, undefined⟩ := System.exists_reachable_of_run race
  simp only [Bool.and_eq_true, beq_iff_eq] at both passes
  obtain ⟨defined, returned, entered, runs⟩ := passes
  refine ⟨⟨layer, reachable, both⟩, ⟨closed, reachableClosed, defined, ?_, entered, runs⟩,
    raced, reachableRaced, undefined⟩
  split at returned
  · assumption
  · cases returned

end Dls2.ControlLayer
