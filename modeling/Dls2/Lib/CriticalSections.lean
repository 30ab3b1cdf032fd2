import Mathlib.Data.List.Nodup
import Mathlib.Logic.Function.Basic
import Dls2.Lib.Transition

/-!
# Critical sections

Threads run lists of critical sections on cells that they share. A section locks some cells, one
after the other, writes one cell after the other, and unlocks again. It touches what it has locked
and cells that no other thread touches.

`serializable` says that every run comes down to the sections being performed one at a time: each
section takes its place in this order when its last write is done. What has been written by
sections that are under way is their own work on top of that.
-/

namespace Dls2.CriticalSections

open Dls2.Transition

universe u v w x

/-- A cell that is written with a value computed from all cells. -/
structure Write (Cell : Type u) (Value : Type v) where
  cell : Cell
  value : (Cell → Value) → Value

variable {Cell : Type u} {Value : Type v} {ThreadId : Type w} {Call : Type x}

/-- The write depends on these cells only, and writes one of them. -/
structure Write.Within (write : Write Cell Value) (cells : List Cell) : Prop where
  cell : write.cell ∈ cells
  value : ∀ first second, (∀ cell ∈ cells, first cell = second cell) →
    write.value first = write.value second

/-- The cells that are locked, in this order, the cells that are the thread's own, and what is
written. -/
structure Critical (Cell : Type u) (Value : Type v) where
  locks : List Cell
  own : List Cell
  body : List (Write Cell Value)
  within : ∀ write ∈ body, write.Within (locks ++ own)

/-- The cells that a section touches. -/
def Critical.touched (critical : Critical Cell Value) : List Cell := critical.locks ++ critical.own

/-- Where a thread is in its section. -/
inductive Stage (Call : Type x) (Cell : Type u) (Value : Type v) where
  | idle
  | locking (call : Call) (held wanted : List Cell)
  | inside (call : Call) (performed left : List (Write Cell Value))
  | unlocking (held : List Cell)

def Stage.held (sections : Call → Critical Cell Value) : Stage Call Cell Value → List Cell
  | .idle => []
  | .locking _ held _ => held
  | .inside call _ _ => (sections call).locks
  | .unlocking held => held

/-- The section that a thread has begun and not yet completed. -/
def Stage.current : Stage Call Cell Value → List Call
  | .locking call _ _ | .inside call _ _ => [call]
  | .idle | .unlocking _ => []

structure Thread (Call : Type x) (Cell : Type u) (Value : Type v) where
  stage : Stage Call Cell Value
  /-- The sections that it has not begun. -/
  rest : List Call

structure State (ThreadId : Type w) (Call : Type x) (Cell : Type u) (Value : Type v) where
  data : Cell → Value
  owner : Cell → Option ThreadId
  threads : ThreadId → Thread Call Cell Value

section System

variable [eqCell : DecidableEq Cell] [eqThread : DecidableEq ThreadId]

def Write.perform (data : Cell → Value) (write : Write Cell Value) : Cell → Value :=
  Function.update data write.cell (write.value data)

def performAll (data : Cell → Value) (writes : List (Write Cell Value)) : Cell → Value :=
  writes.foldl Write.perform data

def State.moveTo (state : State ThreadId Call Cell Value) (thread : ThreadId)
    (stage : Stage Call Cell Value) (rest : List Call) : State ThreadId Call Cell Value :=
  { state with threads := Function.update state.threads thread ⟨stage, rest⟩ }

/-- The next step of a thread. -/
def step (sections : Call → Critical Cell Value) (state : State ThreadId Call Cell Value)
    (thread : ThreadId) : Option (State ThreadId Call Cell Value) :=
  match state.threads thread with
  | ⟨.idle, []⟩ => none
  | ⟨.idle, call :: rest⟩ =>
    some (state.moveTo thread (.locking call [] (sections call).locks) rest)
  | ⟨.locking call held (cell :: wanted), rest⟩ =>
    if state.owner cell = none then
      some { state.moveTo thread (.locking call (held ++ [cell]) wanted) rest with
        owner := Function.update state.owner cell (some thread) }
    else none
  | ⟨.locking call _ [], rest⟩ =>
    some (state.moveTo thread (.inside call [] (sections call).body) rest)
  | ⟨.inside call performed (write :: left), rest⟩ =>
    some { state.moveTo thread (.inside call (performed ++ [write]) left) rest with
      data := write.perform state.data }
  | ⟨.inside call _ [], rest⟩ =>
    some (state.moveTo thread (.unlocking (sections call).locks.reverse) rest)
  | ⟨.unlocking (cell :: held), rest⟩ =>
    some { state.moveTo thread (.unlocking held) rest with
      owner := Function.update state.owner cell none }
  | ⟨.unlocking [], rest⟩ => some (state.moveTo thread .idle rest)

def criticalSystem (sections : Call → Critical Cell Value) (initial : Cell → Value)
    (programs : ThreadId → List Call) :
    System (State ThreadId Call Cell Value) ThreadId where
  initial := ⟨initial, fun _ => none, fun thread => ⟨.idle, programs thread⟩⟩
  step := step sections

/-- The sections in the order in which they are completed, with the threads that run them. -/
abbrev Order (ThreadId : Type w) (Call : Type x) := List (ThreadId × Call)

/-- A section is completed by the step after its last write. -/
def completes (state : State ThreadId Call Cell Value) (thread : ThreadId)
    (_ : State ThreadId Call Cell Value) (order : Order ThreadId Call) : Order ThreadId Call :=
  match (state.threads thread).stage with
  | .inside call _ [] => order ++ [(thread, call)]
  | _ => order

/-- The system with the order of the completed sections. -/
def orderedSystem (sections : Call → Critical Cell Value) (initial : Cell → Value)
    (programs : ThreadId → List Call) :
    System (State ThreadId Call Cell Value × Order ThreadId Call) ThreadId :=
  (criticalSystem sections initial programs).withHistory [] completes

/-- The sections are performed one at a time. -/
def serial (sections : Call → Critical Cell Value) (initial : Cell → Value)
    (order : Order ThreadId Call) : Cell → Value :=
  order.foldl (fun data entry => performAll data (sections entry.2).body) initial

/-- The sections of one thread. -/
def Order.of (order : Order ThreadId Call) (thread : ThreadId) : List Call :=
  (order.filter (·.1 = thread)).map Prod.snd

end System

/-- What is a thread's own is touched by no other thread. -/
def Disciplined (sections : Call → Critical Cell Value) (programs : ThreadId → List Call) : Prop :=
  ∀ thread other, thread ≠ other → ∀ mine ∈ programs thread, ∀ theirs ∈ programs other,
    ∀ cell ∈ (sections mine).own, cell ∉ (sections theirs).touched

variable [eqCell : DecidableEq Cell] [eqThread : DecidableEq ThreadId]
  {sections : Call → Critical Cell Value} {initial : Cell → Value} {programs : ThreadId → List Call}

/-! ### Writes -/

section Writes

variable {cells : List Cell} {write : Write Cell Value} {writes : List (Write Cell Value)}
  {first second data : Cell → Value} {cell : Cell}

omit eqCell in
theorem Write.within_iff : write.Within cells ↔ write.cell ∈ cells ∧
    ∀ first second, (∀ cell ∈ cells, first cell = second cell) →
      write.value first = write.value second :=
  ⟨fun within => ⟨within.cell, within.value⟩, fun within => ⟨within.1, within.2⟩⟩

/-- Data that agree on the cells of a write still do after it. -/
theorem Write.Within.perform (within : write.Within cells)
    (agree : ∀ cell ∈ cells, first cell = second cell) :
    ∀ cell ∈ cells, write.perform first cell = write.perform second cell := by
  intro cell member
  unfold Write.perform
  rw [within.value first second agree]
  by_cases same : cell = write.cell
  · rw [same, Function.update_self, Function.update_self]
  · rw [Function.update_of_ne same, Function.update_of_ne same, agree cell member]

theorem Write.Within.frame (within : write.Within cells) (outside : cell ∉ cells) :
    write.perform data cell = data cell :=
  Function.update_of_ne (fun same : cell = write.cell => outside (same ▸ within.cell)) _ _

theorem performAll_concat (data : Cell → Value) (writes : List (Write Cell Value))
    (write : Write Cell Value) :
    performAll data (writes ++ [write]) = write.perform (performAll data writes) := by
  simp [performAll]

theorem performAll_congr (within : ∀ write ∈ writes, write.Within cells)
    (agree : ∀ cell ∈ cells, first cell = second cell) :
    ∀ cell ∈ cells, performAll first writes cell = performAll second writes cell := by
  induction writes generalizing first second with
  | nil => exact agree
  | cons write rest ih =>
    obtain ⟨now, later⟩ := List.forall_mem_cons.mp within
    exact ih later (now.perform agree)

theorem performAll_frame (within : ∀ write ∈ writes, write.Within cells) (outside : cell ∉ cells) :
    performAll data writes cell = data cell := by
  induction writes generalizing data with
  | nil => rfl
  | cons write rest ih =>
    obtain ⟨now, later⟩ := List.forall_mem_cons.mp within
    exact (ih later).trans (now.frame outside)

omit eqThread in
theorem serial_concat (initial : Cell → Value) (order : Order ThreadId Call)
    (entry : ThreadId × Call) : serial sections initial (order ++ [entry]) =
      performAll (serial sections initial order) (sections entry.2).body := by
  simp [serial]

end Writes

/-! ### Steps -/

section Steps

variable {state next : State ThreadId Call Cell Value} {thread other : ThreadId}
  {stage : Stage Call Cell Value} {rest : List Call}

omit eqCell in
@[simp] theorem moveTo_self :
    (state.moveTo thread stage rest).threads thread = ⟨stage, rest⟩ :=
  Function.update_self ..

omit eqCell in
theorem moveTo_ne (different : other ≠ thread) :
    (state.moveTo thread stage rest).threads other = state.threads other :=
  Function.update_of_ne different ..

/-- What a step can be. -/
inductive Taken (sections : Call → Critical Cell Value) (state : State ThreadId Call Cell Value)
    (thread : ThreadId) : State ThreadId Call Cell Value → Prop where
  | begins {call : Call} {rest : List Call}
      (place : state.threads thread = ⟨.idle, call :: rest⟩) :
      Taken sections state thread
        (state.moveTo thread (.locking call [] (sections call).locks) rest)
  | locks {call : Call} {held wanted : List Cell} {cell : Cell}
      {rest : List Call}
      (place : state.threads thread = ⟨.locking call held (cell :: wanted), rest⟩)
      (free : state.owner cell = none) :
      Taken sections state thread
        { state.moveTo thread (.locking call (held ++ [cell]) wanted) rest with
          owner := Function.update state.owner cell (some thread) }
  | enters {call : Call} {held : List Cell}
      {rest : List Call}
      (place : state.threads thread = ⟨.locking call held [], rest⟩) :
      Taken sections state thread (state.moveTo thread (.inside call [] (sections call).body) rest)
  | writes {call : Call} {performed left : List (Write Cell Value)}
      {write : Write Cell Value} {rest : List Call}
      (place : state.threads thread = ⟨.inside call performed (write :: left), rest⟩) :
      Taken sections state thread
        { state.moveTo thread (.inside call (performed ++ [write]) left) rest with
          data := write.perform state.data }
  | completes {call : Call} {performed : List (Write Cell Value)}
      {rest : List Call}
      (place : state.threads thread = ⟨.inside call performed [], rest⟩) :
      Taken sections state thread
        (state.moveTo thread (.unlocking (sections call).locks.reverse) rest)
  | unlocks {cell : Cell} {held : List Cell} {rest : List Call}
      (place : state.threads thread = ⟨.unlocking (cell :: held), rest⟩) :
      Taken sections state thread
        { state.moveTo thread (.unlocking held) rest with
          owner := Function.update state.owner cell none }
  | ends {rest : List Call}
      (place : state.threads thread = ⟨.unlocking [], rest⟩) :
      Taken sections state thread (state.moveTo thread .idle rest)

theorem taken_of_step (taken : step sections state thread = some next) :
    Taken sections state thread next := by
  unfold step at taken
  split at taken
  next => simp at taken
  next call rest place => exact Option.some.inj taken ▸ .begins place
  next call held cell wanted rest place =>
    split at taken
    next free => exact Option.some.inj taken ▸ .locks place free
    next => simp at taken
  next call held rest place => exact Option.some.inj taken ▸ .enters place
  next call performed write left rest place => exact Option.some.inj taken ▸ .writes place
  next call performed rest place => exact Option.some.inj taken ▸ .completes place
  next cell held rest place => exact Option.some.inj taken ▸ .unlocks place
  next rest place => exact Option.some.inj taken ▸ .ends place

/-! ### Locks -/

/-- The locks of a state: a thread holds what it owns, and gets what its section locks. -/
structure Locked (sections : Call → Critical Cell Value) (state : State ThreadId Call Cell Value) :
    Prop where
  owned : ∀ thread cell,
    cell ∈ (state.threads thread).stage.held sections ↔ state.owner cell = some thread
  nodup : ∀ thread, ((state.threads thread).stage.held sections).Nodup
  locking : ∀ thread call held wanted,
    (state.threads thread).stage = .locking call held wanted →
      held ++ wanted = (sections call).locks

omit eqCell in
/-- A step that changes no lock. -/
theorem Locked.moveTo (locked : Locked sections state)
    (same : ∀ cell, cell ∈ stage.held sections ↔ cell ∈ (state.threads thread).stage.held sections)
    (nodup : (stage.held sections).Nodup) (locking : ∀ call held wanted,
      stage = .locking call held wanted → held ++ wanted = (sections call).locks) :
    Locked sections (state.moveTo thread stage rest) where
  owned other cell := by
    by_cases own : other = thread
    · subst own
      rw [moveTo_self]
      exact (same cell).trans (locked.owned other cell)
    · rw [moveTo_ne own]
      exact locked.owned other cell
  nodup other := by
    by_cases own : other = thread
    · subst own
      rwa [moveTo_self]
    · rw [moveTo_ne own]
      exact locked.nodup other
  locking other := by
    by_cases own : other = thread
    · subst own
      rwa [moveTo_self]
    · rw [moveTo_ne own]
      exact locked.locking other

/-- A free cell is locked. -/
theorem Locked.lock {call : Call} {held wanted : List Cell} {cell : Cell}
    (locked : Locked sections state)
    (place : state.threads thread = ⟨.locking call held (cell :: wanted), rest⟩)
    (free : state.owner cell = none) :
    Locked sections { state.moveTo thread (.locking call (held ++ [cell]) wanted) rest with
      owner := Function.update state.owner cell (some thread) } := by
  have mine : ∀ other, other ∈ held ↔ state.owner other = some thread := by
    simpa [place, Stage.held] using locked.owned thread
  have fresh : cell ∉ held := fun member => by
    rw [mine, free] at member
    exact nomatch member
  refine ⟨fun someone other => ?_, fun someone => ?_, fun someone => ?_⟩
  · by_cases own : someone = thread
    · subst own
      by_cases same : other = cell
      · simp [same, Stage.held]
      · simp [same, Stage.held, mine]
    · rw [show (State.threads _ someone) = state.threads someone from moveTo_ne own,
        locked.owned someone other]
      by_cases same : other = cell
      · subst same
        simp [free, Ne.symm own]
      · simp [same]
  · by_cases own : someone = thread
    · subst own
      have nodup : held.Nodup := by simpa [place, Stage.held] using locked.nodup someone
      have apart : ∀ other ∈ held, other ≠ cell := by
        rintro other member rfl
        exact fresh member
      simpa [Stage.held, List.nodup_append, nodup] using apart
    · rw [show (State.threads _ someone) = state.threads someone from moveTo_ne own]
      exact locked.nodup someone
  · by_cases own : someone = thread
    · subst own
      intro other first later same
      obtain ⟨rfl, rfl, rfl⟩ : call = other ∧ held ++ [cell] = first ∧ wanted = later := by
        simpa using same
      simpa using locked.locking someone call held (cell :: wanted) (by rw [place])
    · rw [show (State.threads _ someone) = state.threads someone from moveTo_ne own]
      exact locked.locking someone

/-- A held cell is unlocked. -/
theorem Locked.unlock {held : List Cell} {cell : Cell} (locked : Locked sections state)
    (place : state.threads thread = ⟨.unlocking (cell :: held), rest⟩) :
    Locked sections { state.moveTo thread (.unlocking held) rest with
      owner := Function.update state.owner cell none } := by
  have mine : ∀ other, other = cell ∨ other ∈ held ↔ state.owner other = some thread := by
    simpa [place, Stage.held] using locked.owned thread
  have nodup : (cell :: held).Nodup := by simpa [place, Stage.held] using locked.nodup thread
  obtain ⟨fresh, nodup⟩ := List.nodup_cons.mp nodup
  refine ⟨fun someone other => ?_, fun someone => ?_, fun someone => ?_⟩
  · by_cases own : someone = thread
    · subst own
      by_cases same : other = cell
      · simp [same, Stage.held, fresh]
      · simp [same, Stage.held, ← mine]
    · rw [show (State.threads _ someone) = state.threads someone from moveTo_ne own,
        locked.owned someone other]
      by_cases same : other = cell
      · subst same
        have held := (mine other).mp (.inl rfl)
        simp [held, Ne.symm own]
      · simp [same]
  · by_cases own : someone = thread
    · subst own
      simpa [Stage.held] using nodup
    · rw [show (State.threads _ someone) = state.threads someone from moveTo_ne own]
      exact locked.nodup someone
  · by_cases own : someone = thread
    · subst own
      intro other first later same
      simp at same
    · rw [show (State.threads _ someone) = state.threads someone from moveTo_ne own]
      exact locked.locking someone

/-- Every step keeps the locks in order. -/
theorem Locked.step (locked : Locked sections state) (taken : Taken sections state thread next) :
    Locked sections next := by
  cases taken with
  | begins place =>
    refine locked.moveTo (by simp [place, Stage.held]) (by simp [Stage.held]) ?_
    rintro call held wanted ⟨⟩
    rfl
  | locks place free => exact locked.lock place free
  | @enters call held rest place =>
    have all : held = (sections call).locks := by
      simpa using locked.locking thread call held [] (by rw [place])
    have nodup := locked.nodup thread
    exact locked.moveTo (by simp [place, Stage.held, all]) (by simpa [place, Stage.held, all] using
      nodup) nofun
  | @writes call performed left write rest place =>
    have nodup := locked.nodup thread
    have kept : Locked sections
        (state.moveTo thread (.inside call (performed ++ [write]) left) rest) :=
      locked.moveTo (by simp [place, Stage.held]) (by simpa [place, Stage.held] using nodup) nofun
    exact ⟨kept.owned, kept.nodup, kept.locking⟩
  | completes place =>
    have nodup := locked.nodup thread
    exact locked.moveTo (by simp [place, Stage.held]) (by
      simpa [place, Stage.held, List.nodup_reverse] using nodup) nofun
  | unlocks place => exact locked.unlock place
  | ends place => exact locked.moveTo (by simp [place, Stage.held]) List.nodup_nil nofun

end Steps

/-! ### The order of the sections -/

section Serialization

variable {state after : State ThreadId Call Cell Value} {order : Order ThreadId Call}
  {thread other : ThreadId} {cell : Cell}

omit eqCell in
theorem Order.of_concat (order : Order ThreadId Call) (entry : ThreadId × Call)
    (thread : ThreadId) :
    Order.of (order ++ [entry]) thread =
      order.of thread ++ if entry.1 = thread then [entry.2] else [] := by
  unfold Order.of
  split <;> simp_all

/-- Every thread has completed the beginning of its program, in order. -/
def Accounted (programs : ThreadId → List Call)
    (run : State ThreadId Call Cell Value × Order ThreadId Call) : Prop :=
  ∀ thread, Order.of run.2 thread ++ (run.1.threads thread).stage.current ++
    (run.1.threads thread).rest = programs thread

omit eqCell in
/-- A step that completes no section and keeps what its thread has still to do. -/
theorem Accounted.moveTo {stage : Stage Call Cell Value} {rest : List Call}
    (accounted : Accounted programs (state, order))
    (moved : after.threads = (state.moveTo thread stage rest).threads)
    (same : stage.current ++ rest =
      (state.threads thread).stage.current ++ (state.threads thread).rest) :
    Accounted programs (after, order) := by
  intro other
  have before := accounted other
  simp only [moved]
  by_cases own : other = thread
  · subst own
    simpa [same] using before
  · simpa [moveTo_ne own] using before

/-- Every step accounts for the sections. -/
theorem Accounted.step (accounted : Accounted programs (state, order))
    (taken : Taken sections state thread after) :
    Accounted programs (after, completes state thread after order) := by
  cases taken with
  | begins place | locks place | enters place | writes place | unlocks place | ends place =>
    rw [show completes state thread _ order = order by simp [completes, place]]
    exact accounted.moveTo rfl (by simp [place, Stage.current])
  | @completes call performed rest place =>
    intro other
    have before := accounted other
    by_cases own : other = thread
    · subst own
      simpa [completes, place, Order.of_concat, Stage.current] using before
    · simpa [completes, place, Order.of_concat, moveTo_ne own, Ne.symm own] using before

omit eqCell in
/-- A section that is under way is one of the program. -/
theorem Accounted.mem_of_inside {call : Call} {performed left : List (Write Cell Value)}
    (accounted : Accounted programs (state, order))
    (inside : (state.threads thread).stage = .inside call performed left) :
    call ∈ programs thread := by
  simp [← accounted thread, inside, Stage.current]

omit eqCell in
/-- Sections that are under way at once touch different cells. -/
theorem apart {mine theirs : Call} {performed left others later : List (Write Cell Value)}
    (disciplined : Disciplined sections programs) (locked : Locked sections state)
    (accounted : Accounted programs (state, order)) (different : thread ≠ other)
    (here : (state.threads thread).stage = .inside mine performed left)
    (there : (state.threads other).stage = .inside theirs others later)
    (touched : cell ∈ (sections mine).touched) : cell ∉ (sections theirs).touched := by
  have first := accounted.mem_of_inside here
  have second := accounted.mem_of_inside there
  intro both
  obtain lock | own := List.mem_append.mp touched
  · obtain also | own := List.mem_append.mp both
    · have held := (locked.owned thread cell).mp (by rwa [here])
      rw [(locked.owned other cell).mp (by rwa [there])] at held
      exact different (Option.some.inj held).symm
    · exact disciplined other thread different.symm _ second _ first _ own touched
  · exact disciplined thread other different _ first _ second _ own both

/-- No section that is under way touches the cell. -/
def State.Quiet (sections : Call → Critical Cell Value) (state : State ThreadId Call Cell Value)
    (cell : Cell) : Prop :=
  ∀ thread call performed left, (state.threads thread).stage = .inside call performed left →
    cell ∉ (sections call).touched

/-- The data are those of the completed sections, performed one at a time. Where a section is under
way, what it has written so far comes on top. -/
structure Serialized (sections : Call → Critical Cell Value) (initial : Cell → Value)
    (state : State ThreadId Call Cell Value) (order : Order ThreadId Call) : Prop where
  body : ∀ {thread call performed left},
    (state.threads thread).stage = .inside call performed left →
      performed ++ left = (sections call).body
  inside : ∀ {thread call performed left},
    (state.threads thread).stage = .inside call performed left →
      ∀ cell ∈ (sections call).touched,
        state.data cell = performAll (serial sections initial order) performed cell
  outside : ∀ cell, state.Quiet sections cell →
    state.data cell = serial sections initial order cell

/-- A step outside of the sections. -/
theorem Serialized.moveTo {stage : Stage Call Cell Value} {rest : List Call}
    (serialized : Serialized sections initial state order)
    (moved : after.threads = (state.moveTo thread stage rest).threads)
    (data : after.data = state.data)
    (before : ∀ call performed left,
      (state.threads thread).stage ≠ .inside call performed left)
    (now : ∀ call performed left, stage ≠ .inside call performed left) :
    Serialized sections initial after order := by
  have same : ∀ other call performed left,
      (after.threads other).stage = .inside call performed left ↔
        (state.threads other).stage = .inside call performed left := by
    intro other call performed left
    rw [moved]
    by_cases own : other = thread
    · subst own
      rw [moveTo_self]
      exact iff_of_false (now call performed left) (before call performed left)
    · rw [moveTo_ne own]
  exact {
    body := fun inside => serialized.body ((same ..).mp inside)
    inside := fun inside => data ▸ serialized.inside ((same ..).mp inside)
    outside := fun cell untouched => data ▸ serialized.outside cell fun other call performed left
      inside => untouched other call performed left ((same ..).mpr inside) }

/-- What is written in a section is seen in this section only. -/
theorem Serialized.write {call : Call} {performed left : List (Write Cell Value)}
    {write : Write Cell Value} {rest : List Call}
    (serialized : Serialized sections initial state order)
    (disciplined : Disciplined sections programs) (locked : Locked sections state)
    (accounted : Accounted programs (state, order))
    (place : state.threads thread = ⟨.inside call performed (write :: left), rest⟩) :
    Serialized sections initial
      { state.moveTo thread (.inside call (performed ++ [write]) left) rest with
        data := write.perform state.data } order := by
  have here : (state.threads thread).stage = .inside call performed (write :: left) := by
    rw [place]
  have body := serialized.body here
  have within : write.Within (sections call).touched :=
    (sections call).within write (body ▸ List.mem_append_right _ List.mem_cons_self)
  refine ⟨?_, ?_, ?_⟩
  · intro other theirs others later inside
    by_cases own : other = thread
    · subst own
      rw [show (State.threads _ other) = _ from moveTo_self] at inside
      cases inside
      simpa using body
    · rw [show (State.threads _ other) = state.threads other from moveTo_ne own] at inside
      exact serialized.body inside
  · intro other theirs others later inside cell touched
    by_cases own : other = thread
    · subst own
      rw [show (State.threads _ other) = _ from moveTo_self] at inside
      cases inside
      rw [performAll_concat]
      exact within.perform (serialized.inside here) cell touched
    · rw [show (State.threads _ other) = state.threads other from moveTo_ne own] at inside
      have untouched := apart disciplined locked accounted own inside here touched
      exact (within.frame untouched).trans (serialized.inside inside cell touched)
  · intro cell untouched
    have mine : cell ∉ (sections call).touched :=
      untouched thread call (performed ++ [write]) left (congrArg Thread.stage moveTo_self)
    refine (within.frame mine).trans (serialized.outside cell ?_)
    intro other theirs others later inside
    by_cases own : other = thread
    · subst own
      rw [here] at inside
      cases inside
      exact mine
    · exact untouched other theirs others later
        ((congrArg Thread.stage (moveTo_ne own)).trans inside)

/-- When a section is entered, nobody else is writing what it touches. -/
theorem Serialized.enter {call : Call} {held : List Cell} {rest : List Call}
    (serialized : Serialized sections initial state order)
    (disciplined : Disciplined sections programs)
    (locked : Locked sections (state.moveTo thread (.inside call [] (sections call).body) rest))
    (accounted : Accounted programs
      (state.moveTo thread (.inside call [] (sections call).body) rest, order))
    (place : state.threads thread = ⟨.locking call held [], rest⟩) :
    Serialized sections initial
      (state.moveTo thread (.inside call [] (sections call).body) rest) order := by
  have now : ((state.moveTo thread (.inside call [] (sections call).body) rest).threads
      thread).stage = .inside call [] (sections call).body := congrArg Thread.stage moveTo_self
  -- The other threads are where they were.
  have still : ∀ {other theirs others later},
      (state.threads other).stage = .inside theirs others later →
      other ≠ thread ∧ ((state.moveTo thread (.inside call [] (sections call).body) rest).threads
        other).stage = .inside theirs others later := by
    intro other theirs others later inside
    have different : other ≠ thread := by
      rintro rfl
      rw [place] at inside
      cases inside
    exact ⟨different, (congrArg Thread.stage (moveTo_ne different)).trans inside⟩
  refine ⟨?_, ?_, ?_⟩
  · intro other theirs others later inside
    by_cases own : other = thread
    · subst own
      cases now.symm.trans inside
      rfl
    · rw [moveTo_ne own] at inside
      exact serialized.body inside
  · intro other theirs others later inside cell touched
    by_cases own : other = thread
    · subst own
      cases now.symm.trans inside
      refine serialized.outside cell fun someone theirs others later before => ?_
      obtain ⟨different, after⟩ := still before
      exact apart disciplined locked accounted different.symm now after touched
    · rw [moveTo_ne own] at inside
      exact serialized.inside inside cell touched
  · intro cell untouched
    refine serialized.outside cell fun other theirs others later inside => ?_
    exact untouched other theirs others later (still inside).2

/-- A section that is completed takes its place in the order. -/
theorem Serialized.complete {call : Call} {performed : List (Write Cell Value)} {rest : List Call}
    (serialized : Serialized sections initial state order)
    (disciplined : Disciplined sections programs) (locked : Locked sections state)
    (accounted : Accounted programs (state, order))
    (place : state.threads thread = ⟨.inside call performed [], rest⟩) :
    Serialized sections initial
      (state.moveTo thread (.unlocking (sections call).locks.reverse) rest)
      (order ++ [(thread, call)]) := by
  have here : (state.threads thread).stage = .inside call performed [] := by rw [place]
  have whole : performed = (sections call).body := by simpa using serialized.body here
  have still : ∀ {other theirs others later},
      ((state.moveTo thread (.unlocking (sections call).locks.reverse) rest).threads
        other).stage = .inside theirs others later →
      other ≠ thread ∧ (state.threads other).stage = .inside theirs others later := by
    intro other theirs others later inside
    by_cases own : other = thread
    · subst own
      rw [moveTo_self] at inside
      cases inside
    · rw [moveTo_ne own] at inside
      exact ⟨own, inside⟩
  refine ⟨fun inside => serialized.body (still inside).2, ?_, ?_⟩
  · intro other theirs others later inside cell touched
    obtain ⟨different, before⟩ := still inside
    have within : ∀ write ∈ others, write.Within (sections theirs).touched :=
      fun write member => (sections theirs).within write
        (serialized.body before ▸ List.mem_append_left _ member)
    have same : ∀ cell ∈ (sections theirs).touched, serial sections initial order cell =
        serial sections initial (order ++ [(thread, call)]) cell := by
      intro cell touched
      have untouched := apart disciplined locked accounted different before here touched
      rw [serial_concat]
      exact (performAll_frame (sections call).within untouched).symm
    exact (serialized.inside before cell touched).trans (performAll_congr within same cell touched)
  · intro cell untouched
    rw [serial_concat]
    by_cases touched : cell ∈ (sections call).touched
    · exact whole ▸ serialized.inside here cell touched
    · rw [performAll_frame (sections call).within touched]
      refine serialized.outside cell fun other theirs others later inside => ?_
      by_cases own : other = thread
      · subst own
        cases here.symm.trans inside
        exact touched
      · exact untouched other theirs others later
          ((congrArg Thread.stage (moveTo_ne own)).trans inside)

/-- Every step keeps the data serialized. -/
theorem Serialized.step (serialized : Serialized sections initial state order)
    (disciplined : Disciplined sections programs) (locked : Locked sections state)
    (accounted : Accounted programs (state, order)) (taken : Taken sections state thread after) :
    Serialized sections initial after (completes state thread after order) := by
  have lockedNext := locked.step taken
  have accountedNext := accounted.step taken
  cases taken with
  | begins place | locks place | unlocks place | ends place =>
    rw [show completes state thread _ order = order by simp [completes, place]]
    exact serialized.moveTo rfl rfl (by simp [place]) (by simp)
  | enters place =>
    rw [show completes state thread _ order = order by simp [completes, place]] at accountedNext ⊢
    exact serialized.enter disciplined lockedNext accountedNext place
  | writes place =>
    rw [show completes state thread _ order = order by simp [completes, place]]
    exact serialized.write disciplined locked accounted place
  | @completes call performed rest place =>
    rw [show completes state thread _ order = order ++ [(thread, call)] by
      simp [completes, place]]
    exact serialized.complete disciplined locked accounted place

end Serialization

/-! ### Runs -/

section Runs

variable {state : State ThreadId Call Cell Value} {order : Order ThreadId Call}

theorem Locked.atFirst : Locked sections (criticalSystem sections initial programs).initial where
  owned := by simp [criticalSystem, Stage.held]
  nodup := by simp [criticalSystem, Stage.held]
  locking := by simp [criticalSystem]

theorem Serialized.atFirst :
    Serialized sections initial (criticalSystem sections initial programs).initial
      ([] : Order ThreadId Call) where
  body := by simp [criticalSystem]
  inside := by simp [criticalSystem]
  outside := by simp [criticalSystem, serial]

/-- In every run of disciplined threads the data are those of the completed sections, performed one
at a time in the order of their completion, which is the one of the program for each thread. -/
theorem serialized_of_reachable (disciplined : Disciplined sections programs)
    (reachable : (orderedSystem sections initial programs).Reachable (state, order)) :
    Locked sections state ∧ Accounted programs (state, order) ∧
      Serialized sections initial state order := by
  refine reachable.invariant
    (fun run => Locked sections run.1 ∧ Accounted programs run ∧
      Serialized sections initial run.1 run.2)
    ⟨Locked.atFirst, fun thread => ?_, Serialized.atFirst⟩ ?_
  · simp [orderedSystem, criticalSystem, System.withHistory, Order.of, Stage.current]
  · rintro ⟨before, orderBefore⟩ thread ⟨next, orderNext⟩ ⟨locked, accounted, serialized⟩ - taken
    obtain ⟨stepped, recorded⟩ := System.withHistory_step_iff.mp taken
    obtain rfl : orderNext = completes before thread next orderBefore := recorded
    have moved := taken_of_step stepped
    exact ⟨locked.step moved, accounted.step moved,
      serialized.step disciplined locked accounted moved⟩

/-- Every state of a run of disciplined threads has such an order. -/
theorem serializable (disciplined : Disciplined sections programs)
    (reachable : (criticalSystem sections initial programs).Reachable state) :
    ∃ order : Order ThreadId Call, Accounted programs (state, order) ∧
      Serialized sections initial state order := by
  obtain ⟨order, recorded⟩ : ∃ order,
      (orderedSystem sections initial programs).Reachable (state, order) := reachable.recorded
  exact ⟨order, (serialized_of_reachable disciplined recorded).2⟩

end Runs

end Dls2.CriticalSections
