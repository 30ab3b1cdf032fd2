import Mathlib.Data.List.DropRight
import Mathlib.Logic.Function.Basic

/-!
# Circular buffers

A circular buffer of a fixed capacity holds the values pushed last, oldest first: a
push into a full buffer overwrites the oldest value. What it holds after a sequence
of pushes is the end of that sequence, `List.rtake capacity`, so the middle of this
file is about ends of lists. Its end is about storing a buffer in an array of slots
whose first used one moves round.
-/

namespace Dls2

universe u

structure CircularBuffer (α : Type u) (capacity : Nat) where
  items : List α
  bounded : items.length ≤ capacity

namespace CircularBuffer

variable {α : Type u} {capacity : Nat}

def empty : CircularBuffer α capacity := ⟨[], Nat.zero_le _⟩

/-- Append a value, overwriting the oldest one of a full buffer. -/
def pushBack (buffer : CircularBuffer α capacity) (value : α) : CircularBuffer α capacity where
  items := if buffer.items.length < capacity then buffer.items ++ [value]
    else (buffer.items ++ [value]).tail
  bounded := by
    have bounded := buffer.bounded
    split
    · rw [List.length_append, List.length_singleton]
      omega
    · simpa using bounded

/-- The value at an index counted from the oldest one. -/
def at? (buffer : CircularBuffer α capacity) (index : Int) : Option α :=
  if index < 0 then none else buffer.items[index.toNat]?

theorem rtake_sublist (values : List α) (count : Nat) : (values.rtake count).Sublist values :=
  List.drop_sublist _ values

theorem rtake_of_length_le {values : List α} {count : Nat} (short : values.length ≤ count) :
    values.rtake count = values := by
  simp [List.rtake, Nat.sub_eq_zero_of_le short]

@[simp] theorem length_rtake (values : List α) (count : Nat) :
    (values.rtake count).length = min count values.length := by
  simp only [List.rtake, List.length_drop]
  omega

/-- An end that is short enough ignores what comes before. -/
theorem rtake_append_of_le (before : List α) {after : List α} {count : Nat}
    (long : count ≤ after.length) : (before ++ after).rtake count = after.rtake count := by
  unfold List.rtake
  rw [List.length_append, List.drop_append]
  have past : before.length ≤ before.length + after.length - count := by omega
  rw [List.drop_of_length_le past, List.nil_append]
  congr 1
  omega

/-- An end that is longer reaches back. -/
theorem rtake_append_of_ge (before : List α) {after : List α} {count : Nat}
    (short : after.length ≤ count) :
    (before ++ after).rtake count = before.rtake (count - after.length) ++ after := by
  unfold List.rtake
  rw [List.length_append, List.drop_append]
  congr 1
  · congr 1
    omega
  · have none : before.length + after.length - count - before.length = 0 := by omega
    rw [none, List.drop_zero]

/-- A value is in the end of a list that is longer than what follows it. -/
theorem mem_rtake {before after : List α} {value : α} {count : Nat}
    (short : after.length < count) : value ∈ (before ++ value :: after).rtake count := by
  rw [rtake_append_of_ge before (by simpa using Nat.succ_le_of_lt short)]
  simp

theorem rtake_map {β : Type*} (change : α → β) (values : List α) (count : Nat) :
    (values.map change).rtake count = (values.rtake count).map change := by
  simp [List.rtake, List.map_drop]

/-- If a buffer holds the end of a sequence, it does so after another push. -/
theorem items_pushBack {buffer : CircularBuffer α capacity} {pushed : List α}
    (holds : buffer.items = pushed.rtake capacity) (value : α) :
    (buffer.pushBack value).items = (pushed ++ [value]).rtake capacity := by
  have length : buffer.items.length = min capacity pushed.length := by rw [holds, length_rtake]
  simp only [pushBack]
  split
  · have short : pushed.length < capacity := by omega
    rw [holds, rtake_of_length_le (by omega), rtake_of_length_le (by simp; omega)]
  · have full : capacity ≤ pushed.length := by omega
    unfold List.rtake at holds ⊢
    rw [holds, ← List.drop_one, List.drop_append, List.drop_append, List.drop_drop]
    simp only [List.length_append, List.length_drop, List.length_singleton]
    congr 2 <;> omega

theorem items_pushBack_of_lt {buffer : CircularBuffer α capacity} {value : α}
    (room : buffer.items.length < capacity) :
    (buffer.pushBack value).items = buffer.items ++ [value] :=
  if_pos room

theorem items_pushBack_of_full {buffer : CircularBuffer α capacity} {value : α}
    (full : ¬ buffer.items.length < capacity) :
    (buffer.pushBack value).items = (buffer.items ++ [value]).tail :=
  if_neg full

section Slots

variable (positive : 0 < capacity)

/-- The slot that is `offset` places after `head`, wrapping around at the last one. -/
def slot (head offset : Nat) : Fin capacity :=
  ⟨(head + offset) % capacity, Nat.mod_lt _ positive⟩

/-- What is in the `size` slots from `head` on. -/
def stored (data : Fin capacity → α) (head size : Nat) : List α :=
  (List.range size).map fun offset => data (slot positive head offset)

variable {positive}

@[simp] theorem length_stored (data : Fin capacity → α) (head size : Nat) :
    (stored positive data head size).length = size := by
  simp [stored]

/-- Within one turn no slot comes twice. -/
theorem slot_ne {head first second : Nat} (before : first < second)
    (turn : second < first + capacity) :
    slot positive head first ≠ slot positive head second := by
  intro equal
  have remainders : (head + first) % capacity = (head + second) % capacity :=
    congrArg Fin.val equal
  have divides : capacity ∣ second - first := by
    have difference := Nat.dvd_of_mod_eq_zero (Nat.sub_mod_eq_zero_of_mod_eq remainders.symm)
    rwa [Nat.add_sub_add_left] at difference
  have atLeast := Nat.le_of_dvd (Nat.sub_pos_of_lt before) divides
  omega

/-- Slots counted from the next head are one place further. -/
theorem slot_next (head offset : Nat) :
    slot positive ((head + 1) % capacity) offset = slot positive head (offset + 1) := by
  apply Fin.ext
  simp only [slot, Nat.mod_add_mod]
  congr 1
  omega

theorem slot_capacity (head : Nat) : slot positive head capacity = slot positive head 0 := by
  apply Fin.ext
  simp [slot]

theorem stored_succ (data : Fin capacity → α) (head size : Nat) :
    stored positive data head (size + 1) =
      stored positive data head size ++ [data (slot positive head size)] := by
  simp [stored, List.range_succ]

/-- The oldest value is in the slot at the head. -/
theorem stored_eq_cons (data : Fin capacity → α) (head size : Nat) :
    stored positive data head (size + 1) =
      data (slot positive head 0) :: stored positive data ((head + 1) % capacity) size := by
  simp [stored, List.range_succ_eq_map, slot_next]

/-- A slot outside the used ones can be written freely. -/
theorem stored_update {data : Fin capacity → α} {head size : Nat} {written : Fin capacity}
    (value : α) (unused : ∀ offset < size, slot positive head offset ≠ written) :
    stored positive (Function.update data written value) head size =
      stored positive data head size := by
  unfold stored
  refine List.map_congr_left fun offset inside => ?_
  exact Function.update_of_ne (unused offset (List.mem_range.mp inside)) value data

/-- Writing the first free slot appends. -/
theorem stored_update_next {data : Fin capacity → α} {head size : Nat} (value : α)
    (room : size < capacity) :
    stored positive (Function.update data (slot positive head size) value) head (size + 1) =
      stored positive data head size ++ [value] := by
  have unused : ∀ offset < size, slot positive head offset ≠ slot positive head size :=
    fun offset inside => slot_ne inside (by omega)
  rw [stored_succ, stored_update value unused, Function.update_self]

/-- Writing the oldest slot of a full buffer and moving the head on drops the oldest
value and appends. -/
theorem stored_update_oldest {data : Fin capacity → α} {head : Nat} (value : α) :
    stored positive (Function.update data (slot positive head 0) value)
        ((head + 1) % capacity) capacity =
      (stored positive data head capacity).tail ++ [value] := by
  obtain ⟨size, rfl⟩ : ∃ size, capacity = size + 1 := ⟨capacity - 1, by omega⟩
  have last : slot positive ((head + 1) % (size + 1)) size = slot positive head 0 := by
    rw [slot_next, slot_capacity]
  rw [stored_eq_cons data, List.tail_cons, ← last]
  exact stored_update_next value (Nat.lt_succ_self size)

end Slots

end CircularBuffer

end Dls2
