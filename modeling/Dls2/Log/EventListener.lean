import Dls2.Lib.CircularBuffer
import Dls2.Lib.Transition
import Mathlib.Data.List.Nodup

/-!
# Reading events

An `EventListener` keeps the events that arrive in a circular buffer and counts them.
A reader passes a cursor to `readEvents`, which is meant to return what has arrived
since the cursor was last written. `readEvents` sets the cursor to 0 before it uses
it, so that every read returns all that the buffer holds.

Each arrival and each read is one step. Indices are unbounded integers: `long int`
would overflow only after 2^63 arrivals.
-/

namespace Dls2.Log

open Dls2.Transition

universe u

variable {Event : Type u} {capacity : Nat}

/-- `unboundedBufferIdx` is the index of the last event that arrived, counted from 0. -/
structure EventListener (Event : Type u) (capacity : Nat) where
  eventBuffer : CircularBuffer Event capacity
  unboundedBufferIdx : Int

namespace EventListener

def new : EventListener Event capacity := ⟨.empty, -1⟩

/-- The callback of the reader. -/
def receive (listener : EventListener Event capacity) (msg : Event) :
    EventListener Event capacity where
  eventBuffer := listener.eventBuffer.pushBack msg
  unboundedBufferIdx := listener.unboundedBufferIdx + 1

def getUnboundedBufferIdx (listener : EventListener Event capacity) : Int :=
  listener.unboundedBufferIdx

/-- -1 for a buffer of capacity 0, after the conversion of the unsigned difference to
`long int`. -/
def getBufferMaxIdx (_ : EventListener Event capacity) : Int := capacity - 1

/-- `count` values of the buffer from index `i` on; `none` if an index is not in it. -/
def readValues (buffer : CircularBuffer Event capacity) (i : Int) : Nat → Option (List Event)
  | 0 => some []
  | count + 1 =>
    (buffer.at? i).bind fun event => (readValues buffer (i + 1) count).map (event :: ·)

/-- The events and the cursor that a read returns. -/
def readEvents (listener : EventListener Event capacity) (_idxRead : Int) :
    Option (List Event × Int) :=
  let idxRead := 0
  let bufferMaxIdx := listener.getBufferMaxIdx
  let idxBuffer := listener.getUnboundedBufferIdx
  if idxBuffer ≥ idxRead then
    let delta := idxBuffer - idxRead
    -- mapping unbounded indices to bounded ones
    let (idxRead, idxBuffer) :=
      if delta > bufferMaxIdx then (0, bufferMaxIdx)
      else if idxBuffer ≥ bufferMaxIdx then
        (bufferMaxIdx - delta, bufferMaxIdx - delta + delta)
      else (idxRead, idxBuffer)
    (readValues listener.eventBuffer idxRead (idxBuffer + 1 - idxRead).toNat).map
      fun events => (events, idxBuffer + 1)
  else some ([], idxRead)

end EventListener

/-- An event arrives, or the reader reads. -/
inductive ListenerLabel (Event : Type u) where
  | arrival (event : Event)
  | readEvents
deriving DecidableEq, Repr

/-- A listener, the cursor of its reader, and the batches the reader has got. -/
structure Reading (Event : Type u) (capacity : Nat) where
  listener : EventListener Event capacity
  idxRead : Int
  batches : List (List Event)

namespace Reading

def step (reading : Reading Event capacity) :
    ListenerLabel Event → Option (Reading Event capacity)
  | .arrival event => some { reading with listener := reading.listener.receive event }
  | .readEvents => (reading.listener.readEvents reading.idxRead).map fun (events, idxRead) =>
      { reading with idxRead := idxRead, batches := reading.batches ++ [events] }

end Reading

def readingSystem (Event : Type u) (capacity : Nat) :
    System (Reading Event capacity) (ListenerLabel Event) where
  initial := ⟨.new, 0, []⟩
  step := Reading.step

/-- The events that arrive, in the order of their arrival. -/
def arrivals : List (ListenerLabel Event) → List Event
  | [] => []
  | .arrival event :: rest => event :: arrivals rest
  | .readEvents :: rest => arrivals rest

/-- Each event paired with the number of arrivals before it. -/
def number (next : Nat) : List (ListenerLabel Event) → List (ListenerLabel (Nat × Event))
  | [] => []
  | .arrival event :: rest => .arrival (next, event) :: number (next + 1) rest
  | .readEvents :: rest => .readEvents :: number next rest

/-- What reads return that return the last `capacity` arrivals. `seen` has arrived
before. -/
def windows (capacity : Nat) (seen : List Event) : List (ListenerLabel Event) → List (List Event)
  | [] => []
  | .arrival event :: rest => windows capacity (seen ++ [event]) rest
  | .readEvents :: rest => seen.rtake capacity :: windows capacity seen rest

/-- The listener has received `seen`. -/
structure EventListener.Received (seen : List Event) (listener : EventListener Event capacity) :
    Prop where
  items : listener.eventBuffer.items = seen.rtake capacity
  counted : listener.unboundedBufferIdx = seen.length - 1

namespace EventListener

variable {listener : EventListener Event capacity} {seen : List Event}

/-- Reading as many values as there are from the oldest one on gives all of them. -/
theorem readValues_eq (buffer : CircularBuffer Event capacity) (count start : Nat)
    (inside : start + count = buffer.items.length) :
    readValues buffer start count = some (buffer.items.drop start) := by
  induction count generalizing start with
  | zero =>
    rw [List.drop_of_length_le (by omega)]
    rfl
  | succ count ih =>
    have bound : start < buffer.items.length := by omega
    have here : buffer.at? start = some (buffer.items[start]) := by
      simp [CircularBuffer.at?, bound]
    have rest : readValues buffer ((start : Int) + 1) count =
        some (buffer.items.drop (start + 1)) := by
      have later := ih (start + 1) (by omega)
      simpa using later
    rw [readValues, here, Option.bind_some, rest, Option.map_some,
      List.drop_eq_getElem_cons bound]

theorem Received.new : Received [] (EventListener.new : EventListener Event capacity) where
  items := by simp [EventListener.new, CircularBuffer.empty]
  counted := rfl

theorem Received.receive (received : Received seen listener) (event : Event) :
    Received (seen ++ [event]) (listener.receive event) where
  items := CircularBuffer.items_pushBack received.items event
  counted := by
    simp [EventListener.receive, received.counted]

/-- In all three regimes a read returns what the buffer holds, whatever the cursor. -/
theorem Received.readEvents (received : Received seen listener) (idxRead : Int) :
    ∃ cursor, listener.readEvents idxRead = some (seen.rtake capacity, cursor) := by
  have length : listener.eventBuffer.items.length = min capacity seen.length := by
    rw [received.items, CircularBuffer.length_rtake]
  have whole : readValues listener.eventBuffer 0 listener.eventBuffer.items.length =
      some (seen.rtake capacity) := by
    rw [← received.items]
    exact readValues_eq listener.eventBuffer _ 0 (Nat.zero_add _)
  unfold EventListener.readEvents getUnboundedBufferIdx getBufferMaxIdx
  simp only [received.counted]
  by_cases empty : seen = []
  · subst empty
    exact ⟨0, by simp⟩
  · have nonempty : 0 < seen.length := List.length_pos_iff.mpr empty
    -- not full, exactly full or overrun, all indices of the buffer are read
    have mapped : (if (seen.length : Int) - 1 - 0 > capacity - 1 then
          ((0 : Int), (capacity : Int) - 1)
        else if (seen.length : Int) - 1 ≥ capacity - 1 then
          ((capacity : Int) - 1 - (seen.length - 1 - 0),
            (capacity : Int) - 1 - (seen.length - 1 - 0) + (seen.length - 1 - 0))
        else (0, (seen.length : Int) - 1)) =
          ((0 : Int), (listener.eventBuffer.items.length : Int) - 1) := by
      rw [length]
      split
      · congr 1
        omega
      · split
        · congr 1 <;> omega
        · congr 1
          omega
    rw [if_pos (by omega), mapped]
    have count : ((listener.eventBuffer.items.length : Int) - 1 + 1 - 0).toNat =
        listener.eventBuffer.items.length := by
      omega
    simp only [count, whole]
    exact ⟨_, rfl⟩

end EventListener

/-- The run lemma: every run goes through, and its reads return windows. -/
theorem runFrom_windows (reading : Reading Event capacity) (seen : List Event)
    (received : reading.listener.Received seen) (labels : List (ListenerLabel Event)) :
    ∃ final, (readingSystem Event capacity).runFrom reading labels = some final ∧
      final.batches = reading.batches ++ windows capacity seen labels := by
  induction labels generalizing reading seen with
  | nil => exact ⟨reading, rfl, (List.append_nil _).symm⟩
  | cons label rest ih =>
    cases label with
    | arrival event =>
      obtain ⟨final, ran, returned⟩ :=
        ih { reading with listener := reading.listener.receive event } (seen ++ [event])
          (received.receive event)
      exact ⟨final, ran, returned⟩
    | readEvents =>
      obtain ⟨cursor, read⟩ := received.readEvents reading.idxRead
      obtain ⟨final, ran, returned⟩ := ih { reading with
        idxRead := cursor, batches := reading.batches ++ [seen.rtake capacity] } seen received
      refine ⟨final, ?_, ?_⟩
      · have taken : (readingSystem Event capacity).step reading .readEvents =
            some { reading with
              idxRead := cursor
              batches := reading.batches ++ [seen.rtake capacity] } := by
          simp [readingSystem, Reading.step, read]
        rw [System.runFrom_cons, taken]
        exact ran
      · rw [returned]
        simp [windows]

theorem run_windows (capacity : Nat) (labels : List (ListenerLabel Event)) :
    ∃ final, (readingSystem Event capacity).run labels = some final ∧
      final.batches = windows capacity [] labels := by
  obtain ⟨final, ran, returned⟩ :=
    runFrom_windows (readingSystem Event capacity).initial [] .new labels
  exact ⟨final, ran, returned⟩

section Windows

variable (old new seen : List Event) (labels : List (ListenerLabel Event))

@[simp] theorem arrivals_append (first second : List (ListenerLabel Event)) :
    arrivals (first ++ second) = arrivals first ++ arrivals second := by
  induction first with
  | nil => rfl
  | cons label rest ih => cases label <;> simp [arrivals, ih]

theorem windows_append (first second : List (ListenerLabel Event)) :
    windows capacity seen (first ++ second) =
      windows capacity seen first ++ windows capacity (seen ++ arrivals first) second := by
  induction first generalizing seen with
  | nil => simp [windows, arrivals]
  | cons label rest ih => cases label <;> simp [windows, arrivals, ih]

/-- Reads return the same events with and without their numbers. -/
theorem windows_number (next : Nat) (seen : List (Nat × Event)) :
    windows capacity (seen.map Prod.snd) labels =
      (windows capacity seen (number next labels)).map (List.map Prod.snd) := by
  induction labels generalizing next seen with
  | nil => rfl
  | cons label rest ih =>
    cases label with
    | arrival event => simpa [windows, number] using ih (next + 1) (seen ++ [(next, event)])
    | readEvents => simp [windows, number, CircularBuffer.rtake_map, ih next seen]

/-- Numbers tell arrivals apart. -/
theorem nodup_arrivals_number (next : Nat) : (arrivals (number next labels)).Nodup := by
  have counted : ∀ next, (arrivals (number next labels)).map Prod.fst =
      List.range' next (arrivals labels).length := by
    induction labels with
    | nil => intro _; rfl
    | cons label rest ih =>
      intro next
      cases label <;> simp [arrivals, number, ih, List.range'_succ]
  apply List.Nodup.of_map Prod.fst
  rw [counted]
  exact List.nodup_range'

/-- At least `capacity` events arrive between two reads, the first of which has found
any. `before` is the number of arrivals before the last read, `since` the number of
arrivals after it. -/
def Spaced (capacity : Nat) (before since : Nat) : List (ListenerLabel Event) → Prop
  | [] => True
  | .arrival _ :: rest => Spaced capacity before (since + 1) rest
  | .readEvents :: rest =>
    (before = 0 ∨ capacity ≤ since) ∧ Spaced capacity (before + since) 0 rest

theorem spaced_number (next before since : Nat) :
    Spaced capacity before since (number next labels) ↔ Spaced capacity before since labels := by
  induction labels generalizing next before since with
  | nil => rfl
  | cons label rest ih => cases label <;> simp [Spaced, number, ih]

/-- Reads that are spaced return new arrivals only. `old` has arrived before the last
read, `new` since. -/
theorem windows_sublist (spaced : Spaced capacity old.length new.length labels) :
    (windows capacity (old ++ new) labels).flatten.Sublist (new ++ arrivals labels) := by
  induction labels generalizing old new with
  | nil => simp [windows]
  | cons label rest ih =>
    cases label with
    | arrival event =>
      have later : Spaced capacity old.length (new ++ [event]).length rest := by
        simpa [Spaced] using spaced
      simpa [windows, arrivals] using ih old (new ++ [event]) later
    | readEvents =>
      obtain ⟨apart, later⟩ := spaced
      have tail : (windows capacity (old ++ new) rest).flatten.Sublist (arrivals rest) := by
        have moved : Spaced capacity (old ++ new).length ([] : List Event).length rest := by
          simpa using later
        simpa using ih (old ++ new) [] moved
      have head : ((old ++ new).rtake capacity).Sublist new := by
        rcases apart with none | enough
        · rw [List.length_eq_zero_iff.mp none]
          exact CircularBuffer.rtake_sublist new capacity
        · rw [CircularBuffer.rtake_append_of_le old enough]
          exact CircularBuffer.rtake_sublist new capacity
      simpa [windows, arrivals] using head.append tail

/-- Reads that return nothing twice, nor anything that the last read has returned, are
spaced. -/
theorem spaced_of_nodup
    (nodup : (old.rtake capacity ++ (windows capacity (old ++ new) labels).flatten).Nodup) :
    Spaced capacity old.length new.length labels := by
  induction labels generalizing old new with
  | nil => trivial
  | cons label rest ih =>
    cases label with
    | arrival event =>
      have later := ih old (new ++ [event]) (by simpa [windows] using nodup)
      simpa [Spaced] using later
    | readEvents =>
      simp only [windows, List.flatten_cons] at nodup
      constructor
      · by_contra both
        rw [not_or, not_le] at both
        -- the last old event is returned by both reads
        have some : old ≠ [] := List.length_eq_zero_iff.not.mp both.1
        obtain ⟨before, event, rfl⟩ : ∃ before event, old = before ++ [event] :=
          ⟨old.dropLast, old.getLast some, (List.dropLast_concat_getLast some).symm⟩
        have positive : ([] : List Event).length < capacity := by
          rw [List.length_nil]
          omega
        have first : event ∈ (before ++ [event]).rtake capacity :=
          CircularBuffer.mem_rtake positive
        have second : event ∈ (before ++ [event] ++ new).rtake capacity := by
          rw [List.append_assoc]
          exact CircularBuffer.mem_rtake both.2
        have disjoint := (List.nodup_append'.mp nodup).2.2
        exact disjoint first (List.mem_append_left _ second)
      · have later := ih (old ++ new) []
          (by simpa using (List.nodup_append'.mp nodup).2.1)
        simpa using later

/-- An event is returned if a read follows before `capacity` others have arrived. -/
theorem mem_windows {before middle after : List (ListenerLabel Event)} {event : Event}
    (soon : (arrivals middle).length < capacity) :
    event ∈ (windows capacity []
      (before ++ .arrival event :: (middle ++ .readEvents :: after))).flatten := by
  rw [windows_append, windows, windows_append, windows, List.flatten_append, List.flatten_append,
    List.flatten_cons]
  apply List.mem_append_right
  apply List.mem_append_right
  apply List.mem_append_left
  rw [List.append_assoc]
  exact CircularBuffer.mem_rtake soon

end Windows

/-- What reading events is for: what is returned is in the order of arrival, nothing is
returned twice, and an event is returned if a read follows before `capacity` others
have arrived. -/
structure ExactlyOnce (capacity : Nat) (labels : List (ListenerLabel Event))
    (returned : List Event) : Prop where
  ordered : returned.Sublist (arrivals labels)
  once : returned.Nodup
  complete : ∀ before event middle after,
    labels = before ++ .arrival event :: (middle ++ .readEvents :: after) →
      (arrivals middle).length < capacity → event ∈ returned

/-- Every run goes through, and numbering the events makes no difference to it. Each
arrival is returned once, in order, if and only if between two reads, the first of
which has found any event, at least `capacity` events arrive. -/
theorem exactlyOnce_iff_spaced (capacity : Nat) (labels : List (ListenerLabel Event)) :
    ∃ final numbered, (readingSystem Event capacity).run labels = some final ∧
      (readingSystem (Nat × Event) capacity).run (number 0 labels) = some numbered ∧
      final.batches = numbered.batches.map (List.map Prod.snd) ∧
      (ExactlyOnce capacity (number 0 labels) numbered.batches.flatten ↔
        Spaced capacity 0 0 labels) := by
  obtain ⟨final, ran, returned⟩ := run_windows capacity labels
  obtain ⟨numbered, ranNumbered, returnedNumbered⟩ := run_windows capacity (number 0 labels)
  refine ⟨final, numbered, ran, ranNumbered, ?_, ?_⟩
  · rw [returned, returnedNumbered]
    exact windows_number labels 0 []
  · rw [returnedNumbered]
    constructor
    · intro exactly
      apply (spaced_number labels 0 0 0).mp
      exact spaced_of_nodup [] [] _ (by simpa using exactly.once)
    · intro spaced
      have sublist := windows_sublist [] [] _ ((spaced_number labels 0 0 0).mpr spaced)
      refine ⟨sublist, sublist.nodup (nodup_arrivals_number labels 0), ?_⟩
      rintro before event middle after same soon
      rw [same]
      exact mem_windows soon

/-- Two reads in a row after one arrival return it twice. -/
theorem read_twice_returns_twice : ∃ numbered,
    (readingSystem (Nat × Unit) 1000000).run
      (number 0 [.arrival (), .readEvents, .readEvents]) = some numbered ∧
    numbered.batches = [[(0, ())], [(0, ())]] ∧
    ¬ ExactlyOnce 1000000 (number 0 [.arrival (), .readEvents, .readEvents])
      numbered.batches.flatten := by
  obtain ⟨numbered, ran, returned⟩ := run_windows 1000000
    (number 0 [.arrival (), .readEvents, .readEvents])
  have twice : numbered.batches = [[(0, ())], [(0, ())]] := by
    rw [returned]
    decide
  refine ⟨numbered, ran, twice, fun exactly => ?_⟩
  have once := exactly.once
  rw [twice] at once
  exact absurd once (by decide)

end Dls2.Log
